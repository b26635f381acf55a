/-
# Symbol tables hand out stable tokens

Two rows of a table never have one key (`Interner.eq_of_key`), and asking for a row whose key is
there adds nothing (`SymbolTable.ask_of_rowAt`).  Rows keep their numbers whatever is asked for,
also by requests that are refused, so a token goes on to name the row that it was handed out for,
of the kind that was asked for; it is handed out again for rows with the key of this one, and for
no others (`SymbolTable.ask_stable`).
-/

import Mathlib
import HookImage.Proofs.Import.Growth
import HookImage.Proofs.Signature.Headers
import HookImage.Proofs.Symbols.Handing
import HookImage.Proofs.Symbols.TypePaths

namespace HookImage

namespace Interner

variable {ρ κ : Type} [BEq κ] [Hashable κ] {key : ρ → κ} {t : Interner key} {n m : Nat}
  {row row' : ρ}

/-- Rows with one key are one row. -/
theorem eq_of_key (h : t.row? n = some row) (h' : t.row? m = some row')
    (same : key row = key row') : n = m := by
  have here : (t.row? n).map key = some (key row) := by rw [h, Option.map_some]
  have there : (t.row? m).map key = some (key row) := by rw [h', Option.map_some, same]
  exact Option.some.inj (((t.found _ _).2 here).symm.trans ((t.found _ _).2 there))

/-- A row whose key is there is not added. -/
theorem add_of_row? [LawfulBEq κ] (h : t.row? n = some row') (same : key row' = key row) :
    t.add row = (n, t) := by
  rcases t.add_cases row with ⟨old, found, shared, kept⟩ | ⟨number, pushed⟩
  · exact Prod.ext (eq_of_key found h (shared.trans same.symm)) kept
  · -- The added row would be a second one with the key.
    have added : (t.add row).2.row? (t.rows.size + 1) = some row := by
      rw [row?, pushed, nthRow?_push, if_pos rfl]
    have last := eq_of_key ((t.extends_add row) _ _ h) added same
    have := row?_le_size h
    omega

end Interner

/-- What kind of row is asked for.  Whether a member is a method or a field, its signature says. -/
inductive SymbolRow.IsOf : SymbolRow → SymbolKind → Prop
  | assembly (a : ModuleInfo) : IsOf (.assembly a) .assemblyRef
  | type (row : TypeRow) : IsOf (.type row) .typeRef
  | spec (signature : Bytes) : IsOf (.spec signature) .typeSpec
  | method {row : MemberRow} {m : MethodSig} (signature : Blob.method m = .ok row.signature) :
    IsOf (.member row) .methodRef
  | field {row : MemberRow} {type : TypeSig} (signature : Blob.field type = .ok row.signature) :
    IsOf (.member row) .fieldRef
  | signature (bytes : Bytes) : IsOf (.signature bytes) .standAloneSig
  | instantiation (row : InstantiationRow) : IsOf (.instantiation row) .methodSpec

namespace SymbolRow

variable {a b c : SymbolRow}

/-- Rows that share one are the same, or assemblies that differ in the case of their names. -/
theorem shares_cases (h : a.Shares b) :
    a = b ∨ ∃ x y, a = .assembly x ∧ b = .assembly y ∧ assemblyKey x = assemblyKey y := by
  unfold Shares at h
  split at h
  · exact .inr ⟨_, _, rfl, rfl, h⟩
  · exact .inl h

/-- Sharing a row goes both ways. -/
theorem Shares.symm (h : a.Shares b) : b.Shares a := by
  rcases shares_cases h with rfl | ⟨x, y, rfl, rfl, same⟩
  · exact h
  · exact same.symm

/-- Rows that share one with a third share one. -/
theorem Shares.trans (h : a.Shares b) (h' : b.Shares c) : a.Shares c := by
  rcases shares_cases h with rfl | ⟨x, y, rfl, rfl, same⟩
  · exact h'
  · rcases shares_cases h' with rfl | ⟨y', z, between, rfl, same'⟩
    · exact same
    · cases between
      exact same.trans same'

/-- Rows that share one are of the same table. -/
theorem Shares.table_eq (h : a.Shares b) : a.table = b.table := by
  rcases shares_cases h with rfl | ⟨x, y, rfl, rfl, -⟩
  · rfl
  · rfl

end SymbolRow

namespace SymbolTable

/-! ### Requests -/

/-- Asks for the token of a row, with what is left of the table.  Rows of types are asked for as
imports do. -/
def ask (s : SymbolTable) : SymbolRow → Except Error Token × SymbolTable
  | .assembly a => (.ok (s.assemblyRef a).1, (s.assemblyRef a).2)
  | .type row => (Importer.within row.scope ⟨none, row.nspace, row.name⟩).run.run s
  | .spec signature => (.ok (s.typeSpec signature).1, (s.typeSpec signature).2)
  | .member row => (.ok (s.memberRef row).1, (s.memberRef row).2)
  | .signature bytes => (.ok (s.standAloneSig bytes).1, (s.standAloneSig bytes).2)
  | .instantiation row => (.ok (s.methodSpec row).1, (s.methodSpec row).2)

/-- What is left of a table by requests one after the other, those that are refused among them. -/
def serve (s : SymbolTable) (rows : List SymbolRow) : SymbolTable :=
  rows.foldl (fun s row => (s.ask row).2) s

variable {s s' : SymbolTable} {table : TableId} {n : Nat} {row row' : SymbolRow} {t : Token}

/-- A request gives the token with the table that has its row, or the error and the table as it
was. -/
theorem ask_eq (s : SymbolTable) (row : SymbolRow) : s.ask row =
    match s.tokenOf row with
    | .ok (t, s') => (.ok t, s')
    | .error e => (.error e, s) := by
  cases row with
  | type row => exact Importer.run_within row.scope ⟨none, row.nspace, row.name⟩ s
  | _ => rfl

/-- A request that is granted is an addition. -/
theorem tokenOf_of_ask (h : (s.ask row).1 = .ok t) : s.tokenOf row = .ok (t, (s.ask row).2) := by
  rw [ask_eq] at h ⊢
  rcases asked : s.tokenOf row with e | ⟨t', s'⟩
  · rw [asked] at h
    cases h
  · rw [asked] at h
    cases h
    rfl

/-- A request that is refused leaves the table as it is. -/
theorem ask_of_error {e : Error} (h : (s.ask row).1 = .error e) : (s.ask row).2 = s := by
  rw [ask_eq] at h ⊢
  rcases asked : s.tokenOf row with e | ⟨t', s'⟩
  · rfl
  · rw [asked] at h
    cases h

/-- A request leaves every row where it is. -/
theorem rowAt_ask (h : s.rowAt table n = some row') : (s.ask row).2.rowAt table n = some row' := by
  rcases asked : (s.ask row).1 with e | t
  · rw [ask_of_error asked]
    exact h
  · exact rowAt_of_tokenOf (tokenOf_of_ask asked) h

/-- **Rows keep their numbers**, whatever requests are made. -/
theorem rowAt_serve (h : s.rowAt table n = some row') (rows : List SymbolRow) :
    (s.serve rows).rowAt table n = some row' :=
  List.foldlRecOn (motive := fun s : SymbolTable => s.rowAt table n = some row') rows _ h
    fun _ found _ _ => rowAt_ask found

/-! ### Rows and their tokens -/

/-- A token has room for the number of a row. -/
theorem row_ofRow_of_rowAt (small : s.Small) (h : s.rowAt table n = some row') :
    (Token.ofRow table n).row = n := by
  have number {ρ κ : Type} [BEq κ] [Hashable κ] {key : ρ → κ} {f : ρ → SymbolRow}
      {u : Interner key} (few : u.rows.size < 0x1000000)
      (hu : (u.row? n).map f = some row') : (Token.ofRow table n).row = n := by
    obtain ⟨r, hr, -⟩ := Option.map_eq_some_iff.1 hu
    exact row_ofRow_of_row? table hr few
  unfold rowAt at h
  split at h
  · exact number small.assemblies h
  · exact number small.types h
  · exact number small.specs h
  · exact number small.members h
  · exact number small.signatures h
  · exact number small.instantiations h
  · cases h

/-- What has a row of an assembly or of a type is a scope. -/
theorem isScope_of_hasScope {n : Nat} (h : HasScope s.assemblies s.types n t) : s.isScope t := by
  unfold isScope resolve
  rcases h with ⟨table, a, found⟩ | ⟨table, ⟨r, found⟩, -⟩ <;>
    simp only [table, found, Option.map_some]

/-- **A row that is there is not added again**: its token is handed out, and nothing changes. -/
theorem ask_of_rowAt (h : s.rowAt row.table n = some row') (shares : row'.Shares row) :
    s.ask row = (.ok (.ofRow row.table n), s) := by
  rw [ask_eq]
  cases row with
  | assembly a =>
    obtain ⟨a', found, rfl⟩ := Option.map_eq_some_iff.1 h
    have same := Interner.add_of_row? found shares
    obtain ⟨assemblies, types, specs, members, signatures, instantiations, nested⟩ := s
    simp only [tokenOf, assemblyRef, same, SymbolRow.table]
  | type row =>
    obtain ⟨r, found, rfl⟩ := Option.map_eq_some_iff.1 h
    cases shares
    have same := Interner.add_of_row? found rfl
    have scope := isScope_of_hasScope (s.nested n row found)
    obtain ⟨assemblies, types, specs, members, signatures, instantiations, nested⟩ := s
    simp only [tokenOf, typeRef, dif_pos scope, same, SymbolRow.table]
  | spec _ | member _ | signature _ | instantiation _ =>
    obtain ⟨r, found, rfl⟩ := Option.map_eq_some_iff.1 h
    cases shares
    have same := Interner.add_of_row? found rfl
    obtain ⟨assemblies, types, specs, members, signatures, instantiations, nested⟩ := s
    simp only [tokenOf, typeSpec, memberRef, standAloneSig, methodSpec, same, SymbolRow.table]

/-- **A token is handed out again** by every table that has all rows of the one it came from, and
nothing is added there. -/
theorem tokenOf_again {S : SymbolTable} (row : SymbolRow) (h : s.tokenOf row = .ok (t, s'))
    (reach : s'.Grows S) : S.tokenOf row = .ok (t, S) := by
  obtain ⟨n, row', rfl, found, shares⟩ := tokenOf_eq_ok h
  have asked := ask_of_rowAt (reach.rowAt found) shares
  have again : S.tokenOf row = .ok (_, (S.ask row).2) := tokenOf_of_ask (congrArg Prod.fst asked)
  rw [again, asked]

/-- A member with the signature of a method is one. -/
theorem memberKind_method {m : MethodSig} {row : MemberRow}
    (h : Blob.method m = .ok row.signature) : memberKind row = .methodRef := by
  rw [memberKind, Blob.head?_method h, if_neg]
  simpa using Blob.methodHeader_ne (b := Blob.fieldHeader) (by decide)

/-- A member with the signature of a field is one. -/
theorem memberKind_field {type : TypeSig} {row : MemberRow}
    (h : Blob.field type = .ok row.signature) : memberKind row = .fieldRef := by
  rw [memberKind, Blob.head?_field h, if_pos (beq_self_eq_true _)]

/-- The row of a token tells its kind. -/
theorem resolve_of_rowAt (table : t.table? = some row.table)
    (h : s.rowAt row.table t.row = some row') (shares : row'.Shares row) {kind : SymbolKind}
    (kindOf : row.IsOf kind) : s.resolve t = some kind := by
  cases kindOf with
  | method signature =>
    obtain ⟨r, found, rfl⟩ := Option.map_eq_some_iff.1 h
    cases shares
    simp only [resolve, table, SymbolRow.table, found, Option.map_some, memberKind_method signature]
  | field signature =>
    obtain ⟨r, found, rfl⟩ := Option.map_eq_some_iff.1 h
    cases shares
    simp only [resolve, table, SymbolRow.table, found, Option.map_some, memberKind_field signature]
  | _ =>
    obtain ⟨r, found, -⟩ := Option.map_eq_some_iff.1 h
    simp only [resolve, table, SymbolRow.table, found, Option.map_some]

/-- **Tokens are stable.**  Whatever is asked for after a token was handed out, the token resolves
to the kind of row that it was handed out for, and names the same row.  It is handed out for the
rows with the key of this one, which adds nothing, and for no others.  Every type lies within an
assembly or an earlier type, and going outwards ends at an assembly.  What is refused changes
nothing. -/
theorem ask_stable (s : SymbolTable) (asked : (s.ask row).1 = .ok t) (later : List SymbolRow)
    (small : ((s.ask row).2.serve later).Small) :
    let s' := (s.ask row).2.serve later
    (∀ kind, row.IsOf kind → s'.resolve t = some kind) ∧
    (∃ row', row'.Shares row ∧ (s.ask row).2.rowAt row.table t.row = some row' ∧
      s'.rowAt row.table t.row = some row') ∧
    (∀ row', row'.Shares row → s'.ask row' = (.ok t, s')) ∧
    (∀ row' t', ¬row'.Shares row → (s'.ask row').1 = .ok t' → (s'.ask row').2.Small → t' ≠ t) ∧
    (∀ n r, s'.types.row? n = some r →
      HasScope s'.assemblies s'.types n r.scope ∧ ∃ path, s'.path? n = some path) ∧
    (∀ row' e, (s'.ask row').1 = .error e → (s'.ask row').2 = s') := by
  intro s'
  obtain ⟨n, found, rfl, here, shares⟩ := tokenOf_eq_ok (tokenOf_of_ask asked)
  have there := rowAt_serve here later
  have number := row_ofRow_of_rowAt small there
  have table := Token.table?_ofRow row.table n
  refine ⟨?kind, ?same, ?again, ?distinct, ?scopes, ?refused⟩
  case kind =>
    exact fun kind kindOf => resolve_of_rowAt table (number.symm ▸ there) shares kindOf
  case same =>
    rw [number]
    exact ⟨found, shares, here, there⟩
  case again =>
    intro row' same
    have table' := same.table_eq
    rw [← table']
    exact ask_of_rowAt (table'.symm ▸ there) (shares.trans same.symm)
  case distinct =>
    rintro row' t' other asked' small' rfl
    obtain ⟨m, found', token, here', shares'⟩ := tokenOf_eq_ok (tokenOf_of_ask asked')
    -- One token names one row of one table, which cannot have both keys.
    have tables : row.table = row'.table := by
      have table' := Token.table?_ofRow row'.table m
      rw [← token, table] at table'
      exact Option.some.inj table'
    have numbers : n = m := by
      rw [← number, token, row_ofRow_of_rowAt small' here']
    have there' : (s'.ask row').2.rowAt row.table n = some found := rowAt_ask there
    rw [tables, numbers, here'] at there'
    cases there'
    exact other (shares'.symm.trans shares)
  case scopes =>
    exact fun n r hr => ⟨s'.nested n r hr, exists_path? hr⟩
  case refused =>
    exact fun row' e refused => ask_of_error refused

/-- Requests behind that for an assembly: a type in it, a type in that type, one that lies nowhere,
a field, and another assembly. -/
def gameRequests : List SymbolRow := [
  .type ⟨.ofRow .assemblyRef 1, "Game", "Clock"⟩,
  .type ⟨.ofRow .typeRef 1, "", "Hand"⟩,
  .type ⟨.ofRow .typeRef 7, "", "Lost"⟩,
  .member ⟨.ofRow .typeRef 2, "Length", [0x06, 0x08]⟩,
  .assembly { id := ⟨2⟩, name := "Core" }]

/-- The hypotheses are satisfiable: behind the requests the assembly has its token, also under its
name in capitals, other assemblies have others, and the type in the type is found within it. -/
theorem ask_stable_game : (empty.ask (.assembly { id := ⟨1⟩, name := "Game" })).1 =
      .ok (.ofRow .assemblyRef 1) ∧
    let s := (empty.ask (.assembly { id := ⟨1⟩, name := "Game" })).2.serve gameRequests
    s.Small ∧ s.resolve (.ofRow .assemblyRef 1) = some .assemblyRef ∧
      s.ask (.assembly { id := ⟨3⟩, name := "GAME" }) = (.ok (.ofRow .assemblyRef 1), s) ∧
      (s.ask (.assembly { id := ⟨2⟩, name := "Core" })).1 ≠ .ok (.ofRow .assemblyRef 1) ∧
      (∃ path, s.path? 2 = some path) ∧
      (s.ask (.type ⟨.ofRow .typeRef 7, "", "Lost"⟩)).2 = s := by
  have asked : (empty.ask (.assembly { id := ⟨1⟩, name := "Game" })).1 =
      .ok (.ofRow .assemblyRef 1) := by cbv
  have small : ((empty.ask (.assembly { id := ⟨1⟩, name := "Game" })).2.serve
      gameRequests).Small := by
    have : decide ((empty.ask (.assembly { id := ⟨1⟩, name := "Game" })).2.serve
      gameRequests).Small = true := by cbv
    exact of_decide_eq_true this
  have lost : ((((empty.ask (.assembly { id := ⟨1⟩, name := "Game" })).2.serve
      gameRequests).ask (.type ⟨.ofRow .typeRef 7, "", "Lost"⟩)).1).toOption = none := by cbv
  obtain ⟨kind, -, again, distinct, scopes, refused⟩ := ask_stable empty asked gameRequests small
  refine ⟨asked, small, kind _ (.assembly _), again _ (by cbv), ?core, ?hand, ?lost⟩
  case core =>
    intro asked'
    have other : (assemblyKey { id := ⟨2⟩, name := "Core" } ==
        assemblyKey { id := ⟨1⟩, name := "Game" }) = false := by cbv
    have small' : decide (((empty.ask (.assembly { id := ⟨1⟩, name := "Game" })).2.serve
        gameRequests).ask (.assembly { id := ⟨2⟩, name := "Core" })).2.Small = true := by cbv
    exact distinct (.assembly { id := ⟨2⟩, name := "Core" }) _ (ne_of_beq_false other) asked'
      (of_decide_eq_true small') rfl
  case hand =>
    exact (scopes 2 ⟨.ofRow .typeRef 1, "", "Hand"⟩ (by cbv)).2
  case lost =>
    rcases answer : (((empty.ask (.assembly { id := ⟨1⟩, name := "Game" })).2.serve
      gameRequests).ask (.type ⟨.ofRow .typeRef 7, "", "Lost"⟩)).1 with e | t
    · exact refused _ e answer
    · rw [answer] at lost
      cases lost

end SymbolTable
end HookImage
