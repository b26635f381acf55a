/-
# Tokens that symbol tables hand out

Asking a symbol table for the token of a row gives the number of a row with the same key, which
may be an older one (`tokenOf_eq_ok`).  Whatever is asked for later, that row keeps its number
(`Leads.rowAt`).
-/

import HookImage.Proofs.Symbols.Growth

namespace HookImage

/-- A row of a symbol table, of whichever of its tables. -/
inductive SymbolRow where
  | assembly (a : ModuleInfo)
  | type (row : TypeRow)
  | spec (signature : Bytes)
  | member (row : MemberRow)
  | signature (bytes : Bytes)
  | instantiation (row : InstantiationRow)

namespace SymbolRow

/-- The table that the row belongs to. -/
def table : SymbolRow → TableId
  | assembly _ => .assemblyRef
  | type _ => .typeRef
  | spec _ => .typeSpec
  | member _ => .memberRef
  | signature _ => .standAloneSig
  | instantiation _ => .methodSpec

/-- Whether two rows are one row of a table: assemblies are if their names are, whatever the case
of the letters, and others if they are equal. -/
def Shares : SymbolRow → SymbolRow → Prop
  | assembly a, assembly b => assemblyKey a = assemblyKey b
  | row, row' => row = row'

end SymbolRow

namespace SymbolTable

/-- Asks for the token of a row. -/
def tokenOf (s : SymbolTable) : SymbolRow → Except Error (Token × SymbolTable)
  | .assembly a => .ok (s.assemblyRef a)
  | .type row => s.typeRef row
  | .spec signature => .ok (s.typeSpec signature)
  | .member row => .ok (s.memberRef row)
  | .signature bytes => .ok (s.standAloneSig bytes)
  | .instantiation row => .ok (s.methodSpec row)

/-- The row of a table with a number. -/
def rowAt (s : SymbolTable) (table : TableId) (n : Nat) : Option SymbolRow :=
  match table with
  | .assemblyRef => (s.assemblies.row? n).map .assembly
  | .typeRef => (s.types.row? n).map .type
  | .typeSpec => (s.specs.row? n).map .spec
  | .memberRef => (s.members.row? n).map .member
  | .standAloneSig => (s.signatures.row? n).map .signature
  | .methodSpec => (s.instantiations.row? n).map .instantiation
  | _ => none

/-- Whether asking for tokens, one after the other, leads from a symbol table to another one. -/
inductive Leads : SymbolTable → SymbolTable → Prop where
  | refl (s : SymbolTable) : Leads s s
  | ask {s s' s'' : SymbolTable} {row : SymbolRow} {t : Token}
    (asked : s.tokenOf row = .ok (t, s')) (later : Leads s' s'') : Leads s s''

variable {s s' : SymbolTable} {table : TableId} {n : Nat} {row row' : SymbolRow} {t : Token}

/-- A row stays where it is while every table is extended. -/
theorem rowAt_mono (assemblies : s.assemblies.Extends s'.assemblies)
    (types : s.types.Extends s'.types) (specs : s.specs.Extends s'.specs)
    (members : s.members.Extends s'.members) (signatures : s.signatures.Extends s'.signatures)
    (instantiations : s.instantiations.Extends s'.instantiations)
    (h : s.rowAt table n = some row) : s'.rowAt table n = some row := by
  have mono {ρ κ : Type} [BEq κ] [Hashable κ] {key : ρ → κ} {f : ρ → SymbolRow}
      {u u' : Interner key} (more : u.Extends u') (hu : (u.row? n).map f = some row) :
      (u'.row? n).map f = some row := by
    obtain ⟨r, hr, hf⟩ := Option.map_eq_some_iff.1 hu
    rw [more _ _ hr, Option.map_some, hf]
  unfold rowAt at h ⊢
  split at h
  · exact mono assemblies h
  · exact mono types h
  · exact mono specs h
  · exact mono members h
  · exact mono signatures h
  · exact mono instantiations h
  · cases h

/-- **A token that is handed out has the number of a row with the same key.** -/
theorem tokenOf_eq_ok (h : s.tokenOf row = .ok (t, s')) :
    ∃ n row', t = .ofRow row.table n ∧ s'.rowAt row.table n = some row' ∧ row'.Shares row := by
  have own {ρ : Type} [BEq ρ] [LawfulBEq ρ] [Hashable ρ] (u : RowTable ρ) (r : ρ)
      (f : ρ → SymbolRow) : ((u.add r).2.row? (u.add r).1).map f = some (f r) := by
    obtain ⟨r', found, same⟩ := u.row?_add r
    rw [found, Option.map_some]
    exact congrArg (fun r => some (f r)) same
  cases row with
  | assembly a =>
    cases h
    obtain ⟨a', found, same⟩ := s.assemblies.row?_add a
    exact ⟨_, .assembly a', rfl, Option.map_eq_some_iff.2 ⟨a', found, rfl⟩, same⟩
  | type row =>
    obtain ⟨-, rfl, types, -⟩ := typeRef_eq_ok h
    refine ⟨_, .type row, rfl, ?_, rfl⟩
    rw [SymbolRow.table, rowAt, types]
    exact own s.types row _
  | spec signature =>
    cases h
    exact ⟨_, .spec signature, rfl, own s.specs signature _, rfl⟩
  | member row =>
    cases h
    exact ⟨_, .member row, rfl, own s.members row _, rfl⟩
  | signature bytes =>
    cases h
    exact ⟨_, .signature bytes, rfl, own s.signatures bytes _, rfl⟩
  | instantiation row =>
    cases h
    exact ⟨_, .instantiation row, rfl, own s.instantiations row _, rfl⟩

/-- What grows keeps its rows under their numbers. -/
theorem Grows.rowAt (grows : s.Grows s') (h : s.rowAt table n = some row) :
    s'.rowAt table n = some row :=
  rowAt_mono grows.assemblies grows.types grows.specs grows.members grows.signatures
    grows.instantiations h

/-- Asking for a token leaves the rows that are there. -/
theorem rowAt_of_tokenOf (h : s.tokenOf row' = .ok (t, s')) (found : s.rowAt table n = some row) :
    s'.rowAt table n = some row := by
  cases row' with
  | assembly a =>
    cases h
    exact (s.grows_assemblyRef a).rowAt found
  | type row => exact (grows_typeRef h).rowAt found
  | spec signature =>
    cases h
    exact (s.grows_typeSpec signature).rowAt found
  | member row =>
    cases h
    exact (s.grows_memberRef row).rowAt found
  | signature bytes =>
    cases h
    exact (s.grows_standAloneSig bytes).rowAt found
  | instantiation row =>
    -- An instantiation may be one of any method here, so this is no growth as imports make it.
    obtain rfl : (s.methodSpec row).2 = s' := congrArg Prod.snd (Except.ok.inj h)
    exact rowAt_mono (s := s) (.refl _) (.refl _) (.refl _) (.refl _) (.refl _)
      (s.instantiations.extends_add row) found

/-- **Rows keep their numbers**, whatever is asked for later. -/
theorem Leads.rowAt (h : s.Leads s') (found : s.rowAt table n = some row) :
    s'.rowAt table n = some row := by
  induction h with
  | refl s => exact found
  | ask asked _ ih => exact ih (rowAt_of_tokenOf asked found)

end SymbolTable
end HookImage
