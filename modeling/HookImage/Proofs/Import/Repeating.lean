/-
# Importing again

What was imported imports as itself, and what could not be imported fails again for the same
reasons: every row that an import asks for is there when it is repeated, and so are the rows that a
failure left behind.  So importing a method that was imported, whether all of it could be or not,
changes neither the method nor the table (`synthetic_idempotent`).
-/

import Mathlib
import HookImage.Proofs.Import.Methods
import HookImage.Proofs.Symbols.Interning

namespace HookImage
namespace Importer

variable {α β : Type} {view : HostView} {imp : Importer} {s s' S : SymbolTable}
  {st st₁ st' : ImportState}

/-! ### Searches -/

/-- A search within a scope gives its row again, and adds none. -/
theorem within_again {scope token : Token} {t : TypeName}
    (h : (within scope t).run.run s = (.ok token, s')) (reach : s'.Grows S) :
    (within scope t).run.run S = (.ok token, S) := by
  rw [run_within] at h ⊢
  split at h
  · rename_i token s' found
    cases h
    have again : S.typeRef ⟨scope, t.nspace, t.name⟩ = .ok (token, S) :=
      SymbolTable.tokenOf_again (.type ⟨scope, t.nspace, t.name⟩) found reach
    rw [again]
  · cases h

/-- **A search through modules ends as it did**: what is around a type is there, so it fails only
for what the view does not know. -/
theorem throughModule_again {t : TypeName} {outer : List TypeName} {found : Except Error Token}
    (h : (throughModule view t outer).run.run s = (found, s')) (reach : s'.Grows S)
    (small : S.Small) : (throughModule view t outer).run.run S = (found, S) := by
  induction outer generalizing t found s' with
  | nil =>
    unfold throughModule at h ⊢
    rcases named : t.module with _ | id
    · simp only [named] at h ⊢
      cases h
      rfl
    rcases known : view.module id with _ | a
    · simp only [named, known] at h ⊢
      cases h
      rfl
    simp only [named, known] at h ⊢
    rw [run_search_bind] at h ⊢
    have last : (within (s.assemblyRef a).1 t).run.run (s.assemblyRef a).2 = (found, s') := h
    have grows := within_reaches last reach
    obtain ⟨token, rfl⟩ := within_ok last (s.isScope_assemblyRef a (small.of_grows grows))
    have same : S.assemblyRef a = ((s.assemblyRef a).1, S) :=
      Except.ok.inj (SymbolTable.tokenOf_again (.assembly a) rfl grows)
    show (within (S.assemblyRef a).1 t).run.run (S.assemblyRef a).2 = _
    rw [same]
    exact within_again last reach
  | cons o os ih =>
    unfold throughModule at h ⊢
    rw [run_search_bind] at h ⊢
    rcases inner : (throughModule view o os).run.run s with ⟨e | scope, s₁⟩
    · rw [inner] at h
      cases h
      rw [ih inner reach]
    · -- The row around the type is a scope already in the first run, so that one found the type.
      rw [inner] at h
      have last : (within scope t).run.run s₁ = (found, s') := h
      have grows := within_reaches last reach
      have around := throughModule_isTypeRow inner (.refl s₁) (small.of_grows grows)
      obtain ⟨token, rfl⟩ := within_ok last around.isScope
      rw [ih inner grows]
      exact within_again last reach

/-- A search by name ends as it did, and adds no row. -/
theorem byName_again {r : TypeRef} {found : Except Error Token}
    (h : (byName view r).run.run s = (found, s')) (reach : s'.Grows S) (small : S.Small) :
    (byName view r).run.run S = (found, S) := by
  unfold byName at h ⊢
  rcases defined : view.findType r.fullName with _ | t
  · simp only [defined] at h ⊢
    cases h
    rfl
  simp only [defined] at h ⊢
  rw [run_search_bind] at h ⊢
  rcases named : view.typeReference t.id with e | other
  · rw [named] at h
    cases h
    rfl
  · rw [named] at h
    have last : (throughModule view other.leaf other.enclosing).run.run s = (found, s') := h
    exact throughModule_again last reach small

/-- **A type is found again, or not found again**, and no row is added. -/
theorem locate_again {r : TypeRef} {found : Except (Error × Error) Token}
    (h : (locate view r).run s = (found, s')) (reach : s'.Grows S) (small : S.Small) :
    (locate view r).run S = (found, S) := by
  rw [run_locate] at h ⊢
  rcases first : (throughModule view r.leaf r.enclosing).run.run s with ⟨e | token, s₁⟩
  · rw [first] at h
    rcases second : (byName view r).run.run s₁ with ⟨e' | token, s₂⟩
    all_goals
      simp only [second] at h
      cases h
      have grows : s₁.Grows S := by
        have more := grows_byName view r s₁
        rw [second] at more
        exact more.trans reach
      rw [throughModule_again first grows small]
      simp only [byName_again second reach small]
  · rw [first] at h
    cases h
    rw [throughModule_again first reach small]

/-! ### Steps that are repeated -/

/-- Whether a step gives a result on a table and adds no rows there, and notes what some notes have
behind others, whatever was noted before. -/
def Echoes (S : SymbolTable) (before after : Diagnostics) (x : StateM ImportState α) (a : α) :
    Prop :=
  ∃ added, after = before ++ added ∧ ∀ notes, x.run ⟨S, notes⟩ = (a, ⟨S, notes ++ added⟩)

/-- Whether an import that may fail ends as it did when it is repeated on a table that has all rows
it left behind.  It notes nothing unless it fails. -/
structure Repeatable (S : SymbolTable) (x : ImportM α) : Prop where
  growing : Growing x.run
  quiet {st st' : ImportState} {a : α} : x.run.run st = (some a, st') → st'.notes = st.notes
  echoes {st st' : ImportState} {o : Option α} : x.run.run st = (o, st') → st'.symbols.Grows S →
    Echoes S st.notes st'.notes x.run o

variable {before between after : Diagnostics}

/-- What changes nothing and notes nothing echoes itself. -/
theorem Echoes.silent {x : StateM ImportState α} {a : α} (noted : after = before)
    (run : ∀ notes, x.run ⟨S, notes⟩ = (a, ⟨S, notes⟩)) : Echoes S before after x a :=
  ⟨#[], by rw [noted, Array.append_empty], fun notes => by rw [run, Array.append_empty]⟩

/-- Steps that echo one after the other echo together. -/
theorem Echoes.bind {x : StateM ImportState α} {f : α → StateM ImportState β} {a : α} {b : β}
    (hx : Echoes S before between x a) (hf : Echoes S between after (f a) b) :
    Echoes S before after (x >>= f) b := by
  obtain ⟨added, rfl, run⟩ := hx
  obtain ⟨more, rfl, run'⟩ := hf
  refine ⟨added ++ more, Array.append_assoc, fun notes => ?_⟩
  rw [← Array.append_assoc]
  exact run_bind_eq (run notes) (run' _)

/-- An import that succeeds and what comes behind it echo together. -/
theorem Echoes.bind_some {x : ImportM α} {f : α → ImportM β} {a : α} {o : Option β}
    (hx : Echoes S before between x.run (some a)) (hf : Echoes S between after (f a).run o) :
    Echoes S before after (x >>= f).run o := by
  obtain ⟨added, rfl, run⟩ := hx
  obtain ⟨more, rfl, run'⟩ := hf
  refine ⟨added ++ more, Array.append_assoc, fun notes => ?_⟩
  rw [run_bind, run notes, ← Array.append_assoc]
  exact run' _

/-- An import that fails echoes with whatever would come behind it. -/
theorem Echoes.bind_none {x : ImportM α} {f : α → ImportM β}
    (hx : Echoes S before after x.run none) : Echoes S before after (x >>= f).run none := by
  obtain ⟨added, noted, run⟩ := hx
  refine ⟨added, noted, fun notes => ?_⟩
  rw [run_bind, run notes]

/-- The second step need only end as it did on what the first one leads to. -/
theorem Repeatable.bind {x : ImportM α} {f : α → ImportM β} (hx : Repeatable S x)
    (hf : ∀ st a st', x.run.run st = (some a, st') → Repeatable S (f a)) :
    Repeatable S (x >>= f) where
  growing := growing_bind hx.growing fun st a st' first => (hf st a st' first).growing
  quiet run := by
    obtain ⟨a, st₁, first, rest⟩ := run_bind_eq_some.1 run
    exact ((hf _ a _ first).quiet rest).trans (hx.quiet first)
  echoes {st st' o} run reach := by
    rw [run_bind] at run
    rcases first : x.run.run st with ⟨_ | a, st₁⟩
    · rw [first] at run
      cases run
      exact (hx.echoes first reach).bind_none
    · rw [first] at run
      have rest := hf _ a _ first
      exact (hx.echoes first (rest.growing.reaches run reach)).bind_some (rest.echoes run reach)

/-- Giving a result is repeatable. -/
theorem repeatable_pure (a : α) : Repeatable S (pure a : ImportM α) where
  growing := growing_pure a
  quiet run := by
    cases run
    rfl
  echoes run _ := by
    cases run
    exact .silent rfl fun _ => rfl

/-- A failure notes the same again. -/
theorem repeatable_reportAndFail (imp : Importer) (message : String) :
    Repeatable S (do imp.report message; failure : ImportM α) where
  growing := imp.growing_reportAndFail message
  quiet run := by cases run
  echoes run _ := by
    cases run
    exact ⟨#[_], Array.push_eq_append, fun notes => rfl⟩

/-- Encoding is repeatable. -/
theorem repeatable_blob (imp : Importer) (what : String) (x : Except Malformation Bytes) :
    Repeatable S (imp.blob what x) := by
  cases x with
  | ok bytes => exact repeatable_pure _
  | error e => exact imp.repeatable_reportAndFail _

/-- Every row that is added is there when the import is repeated. -/
theorem repeatable_row {add : SymbolTable → Token × SymbolTable} (asked : SymbolRow)
    (request : ∀ s : SymbolTable, s.tokenOf asked = .ok (add s))
    (grows : ∀ s : SymbolTable, s.Grows (add s).2) : Repeatable S (row add) where
  growing := growing_row grows
  quiet run := by
    cases run
    rfl
  echoes {st st' o} run reach := by
    cases run
    have again : add S = ((add st.symbols).1, S) := by
      have answer := SymbolTable.tokenOf_again asked (request st.symbols) reach
      rw [request] at answer
      exact Except.ok.inj answer
    refine .silent rfl fun notes => ?_
    show (some (add S).1, (⟨(add S).2, notes⟩ : ImportState)) = _
    rw [again]

/-! ### Types -/

/-- Importing a reference is repeatable. -/
theorem repeatable_reference (small : S.Small) (r : TypeRef) : Repeatable S (imp.reference r) where
  growing := imp.growing_reference r
  quiet {st st' token} run := by
    rw [run_reference] at run
    split at run
    · cases run
      rfl
    · cases run
  echoes {st st' o} run reach := by
    rw [run_reference] at run
    split at run
    · rename_i token symbols located
      cases run
      refine .silent rfl fun notes => ?_
      rw [run_reference, locate_again located reach small]
    · rename_i first second symbols located
      cases run
      refine ⟨#[_], Array.push_eq_append, fun notes => ?_⟩
      rw [run_reference, locate_again located reach small]
      rfl

/-- Importing a named type is repeatable. -/
theorem repeatable_handle (small : S.Small) (h : TypeHandle) : Repeatable S (imp.handle h) := by
  cases h with
  | token t => exact repeatable_pure _
  | reference r => exact (repeatable_reference small r).bind fun _ _ _ _ => repeatable_pure _

mutual

/-- Importing a type is repeatable. -/
theorem repeatable_type (small : S.Small) (t : TypeSig) : Repeatable S (imp.type t) := by
  cases t with
  | reference h => exact (repeatable_handle small h).bind fun _ _ _ _ => repeatable_pure _
  | value h => exact (repeatable_handle small h).bind fun _ _ _ _ => repeatable_pure _
  | generic isValue definition arguments =>
    exact (repeatable_handle small definition).bind fun _ _ _ _ =>
      (repeatable_types small arguments).bind fun _ _ _ _ => repeatable_pure _
  | array e => exact (repeatable_type small e).bind fun _ _ _ _ => repeatable_pure _
  | byRef e => exact (repeatable_type small e).bind fun _ _ _ _ => repeatable_pure _
  | pointer e => exact (repeatable_type small e).bind fun _ _ _ _ => repeatable_pure _
  | primitive p => exact repeatable_pure _
  | typeParam n => exact repeatable_pure _
  | methodParam n => exact repeatable_pure _

/-- Importing types is repeatable. -/
theorem repeatable_types (small : S.Small) (ts : List TypeSig) : Repeatable S (imp.types ts) := by
  cases ts with
  | nil => exact repeatable_pure _
  | cons t ts =>
    exact (repeatable_type small t).bind fun _ _ _ _ =>
      (repeatable_types small ts).bind fun _ _ _ _ => repeatable_pure _

end

/-- Importing a signature is repeatable. -/
theorem repeatable_signature (small : S.Small) (s : MethodSig) : Repeatable S (imp.signature s) :=
  (repeatable_type small s.result).bind fun _ _ _ _ =>
    (repeatable_types small s.params).bind fun _ _ _ _ => repeatable_pure _

/-! ### Members -/

/-- Importing a type to a token is repeatable. -/
theorem repeatable_typeToken (small : S.Small) (t : TypeSig) : Repeatable S (imp.typeToken t) := by
  refine (repeatable_type small t).bind fun _ imported _ _ => ?_
  split
  · exact repeatable_pure _
  · exact (imp.repeatable_blob _ _).bind fun _ bytes _ _ =>
      repeatable_row (.spec bytes) (fun _ => rfl) fun s => s.grows_typeSpec bytes

/-- Importing the type that declares a member is repeatable. -/
theorem repeatable_parent (small : S.Small) (declaringType : Option TypeSig) (member : String) :
    Repeatable S (imp.parent declaringType member) := by
  cases declaringType with
  | some t => exact repeatable_typeToken small t
  | none => exact imp.repeatable_reportAndFail _

/-- Adding the row of a member is repeatable. -/
theorem repeatable_member (m : MemberRow) : Repeatable S (row (·.memberRef m)) :=
  repeatable_row (.member m) (fun _ => rfl) fun s => s.grows_memberRef m

/-- Importing a method is repeatable. -/
theorem repeatable_method (small : S.Small) (m : MethodRef) : Repeatable S (imp.method m) := by
  refine (repeatable_parent small _ _).bind fun _ parent _ _ =>
    (repeatable_signature small _).bind fun _ signature _ _ =>
      (imp.repeatable_blob _ _).bind fun _ bytes _ _ =>
        (repeatable_member _).bind fun _ member _ found => ?_
  split
  · exact repeatable_pure _
  · refine (repeatable_types small _).bind fun _ _ _ _ =>
      (imp.repeatable_blob _ _).bind fun _ bytes' _ _ =>
        repeatable_row (.instantiation ⟨member, bytes'⟩) (fun _ => rfl)
          fun s => s.grows_methodSpec ?_
    rw [(row_eq_some found).1]
    exact Token.table?_ofRow _ _

/-- Importing a field is repeatable. -/
theorem repeatable_field (small : S.Small) (f : FieldRef) : Repeatable S (imp.field f) :=
  (repeatable_parent small _ _).bind fun _ _ _ _ =>
    (repeatable_type small _).bind fun _ _ _ _ =>
      (imp.repeatable_blob _ _).bind fun _ _ _ _ => repeatable_member _

/-- Adding the row of a signature is repeatable. -/
theorem repeatable_standAloneSig (what : String) (x : Except Malformation Bytes) :
    Repeatable S (do let bytes ← imp.blob what x
                     row (·.standAloneSig bytes) : ImportM Token) :=
  (imp.repeatable_blob _ _).bind fun _ bytes _ _ =>
    repeatable_row (.signature bytes) (fun _ => rfl) fun s => s.grows_standAloneSig bytes

/-- **Importing an operand is repeatable**: it ends as it did, notes what it noted, and adds no
row. -/
theorem repeatable_operand (small : S.Small) (o : Operand) : Repeatable S (imp.operand o) := by
  cases o with
  | type t => exact (repeatable_typeToken small t).bind fun _ _ _ _ => repeatable_pure _
  | method m => exact (repeatable_method small m).bind fun _ _ _ _ => repeatable_pure _
  | field f => exact (repeatable_field small f).bind fun _ _ _ _ => repeatable_pure _
  | callSite s =>
    exact (repeatable_signature small s).bind fun _ _ _ _ =>
      (imp.repeatable_blob _ _).bind fun _ bytes _ _ =>
        (repeatable_row (.signature bytes) (fun _ => rfl)
          fun s => s.grows_standAloneSig bytes).bind fun _ _ _ _ => repeatable_pure _
  | _ => exact repeatable_pure _

/-- Importing local variables is repeatable. -/
theorem repeatable_localVars (small : S.Small) (vs : List LocalVar) :
    Repeatable S (vs.mapM imp.localVar) := by
  induction vs with
  | nil => exact repeatable_pure _
  | cons v vs ih =>
    rw [List.mapM_cons]
    exact ((repeatable_type small v.type).bind fun _ _ _ _ => repeatable_pure _).bind
      fun _ _ _ _ => ih.bind fun _ _ _ _ => repeatable_pure _

/-! ### What is imported -/

/-- Types that import to themselves do so together. -/
theorem types_own {ts : List TypeSig} (own : ∀ t ∈ ts, imp.type t = pure t) :
    imp.types ts = pure ts := by
  induction ts with
  | nil => rfl
  | cons t ts ih =>
    rw [List.forall_mem_cons] at own
    rw [types, own.1, pure_bind, ih own.2, pure_bind]

/-- **A type whose names are tokens is imported as itself.** -/
theorem type_resolved {t : TypeSig} (resolved : ∀ h ∈ t.handles, h.isResolved) :
    imp.type t = pure t := by
  have named {h : TypeHandle} (resolved : h.isResolved) : imp.handle h = pure h := by
    cases h with
    | token t => rfl
    | reference r => cases resolved
  induction t using TypeSig.induction with
  | reference h =>
    rw [TypeSig.handles, List.forall_mem_singleton] at resolved
    rw [type, named resolved, pure_bind]
  | value h =>
    rw [TypeSig.handles, List.forall_mem_singleton] at resolved
    rw [type, named resolved, pure_bind]
  | generic isValue definition arguments ih =>
    rw [TypeSig.handles, List.forall_mem_cons, List.forall_mem_flatMap] at resolved
    have own := types_own fun t ht => ih t ht (resolved.2 t ht)
    rw [type, named resolved.1, pure_bind, own, pure_bind]
  | array e ih => rw [type, ih (by simpa only [TypeSig.handles] using resolved), pure_bind]
  | byRef e ih => rw [type, ih (by simpa only [TypeSig.handles] using resolved), pure_bind]
  | pointer e ih => rw [type, ih (by simpa only [TypeSig.handles] using resolved), pure_bind]
  | primitive p => rw [type]
  | typeParam n => rw [type]
  | methodParam n => rw [type]

/-- An imported type imports to itself. -/
theorem type_of_alike {t t' : TypeSig} (alike : t.Alike (Renders view S) t') :
    imp.type t' = pure t' :=
  type_resolved (List.all_eq_true.1 (isResolved_of_alike alike))

/-- An imported signature imports to itself. -/
theorem signature_of_alike {c c' : MethodSig} (alike : c.Alike (Renders view S) c') :
    imp.signature c' = pure c' := by
  have params : imp.types c'.params = pure c'.params := types_own fun t' ht' =>
    have ⟨_, _, alike⟩ := exists_mem_of_forall₂ alike.params ht'
    type_of_alike alike
  rw [signature, type_of_alike alike.result, pure_bind, params, pure_bind]

/-- Imported local variables import to themselves. -/
theorem localVars_of_alike {vs vs' : List LocalVar}
    (alike : List.Forall₂ (ImportsLocal view S) vs vs') : vs'.mapM imp.localVar = pure vs' := by
  induction alike with
  | nil => rfl
  | @cons v v' vs vs' head _ ih =>
    have own : imp.localVar v' = pure v' := by
      rw [localVar, type_of_alike head.type, pure_bind]
    rw [List.mapM_cons, own, pure_bind, ih, pure_bind]

/-! ### Methods -/

/-- An attempt that fails keeps what there was and counts one, again. -/
theorem Echoes.attempt_none {old : α} {x : ImportM α} (h : Echoes S before after x.run none) :
    Echoes S before after (attempt old x) (old, 1) :=
  h.bind (.silent rfl fun _ => rfl)

/-- What imports as itself is imported again by an attempt that succeeded. -/
theorem attempt_again {old a : α} {x x' : ImportM α} (again : Repeatable S x)
    (run : x.run.run st = (some a, st')) (own : x' = pure a) :
    Echoes S st.notes st'.notes (attempt old x') (a, 0) := by
  rw [own]
  exact .silent (again.quiet run) fun _ => rfl

/-- The attempt at a signature ends as it did. -/
theorem signature_again {c c' : MethodSig} {n : Nat} (small : S.Small)
    (run : (attempt c (imp.signature c)).run st = ((c', n), st')) (reach : st'.symbols.Grows S) :
    Echoes S st.notes st'.notes (attempt c' (imp.signature c')) (c', n) := by
  rcases attempt_outcome run with ⟨imported, rfl⟩ | ⟨failed, rfl, rfl⟩
  · exact attempt_again (repeatable_signature small c) imported
      (signature_of_alike (signature_alike imported reach small))
  · exact ((repeatable_signature small _).echoes failed reach).attempt_none

/-- Local variables that are imported as themselves only get their signature. -/
theorem locals_own {m : SyntheticMethod}
    (own : m.body.locals.toList.mapM imp.localVar = pure m.body.locals.toList) :
    imp.locals m = if m.body.locals.toList.isEmpty then pure (m, 0) else do
      let signed : ImportM Token := do
        let bytes ← imp.blob "local signature" (Blob.locals m.body.locals.toList)
        row (·.standAloneSig bytes)
      return ({ m with localSignature := ← signed.run }, 0) := by
  unfold locals
  rw [own]
  rfl

/-- The local variables are imported again whatever the rest of the method is. -/
theorem locals_again {m m' m'' : SyntheticMethod} {n : Nat} (small : S.Small)
    (run : (imp.locals m).run st = ((m', n), st')) (reach : st'.symbols.Grows S)
    (same : m''.body.locals = m'.body.locals) (signed : m''.localSignature = m'.localSignature) :
    Echoes S st.notes st'.notes (imp.locals m'') (m'', n) := by
  unfold locals at run
  obtain ⟨imported | ls, st₁, imported, run⟩ := exists_of_run_bind run
  · -- The variables are the old ones, and are not imported again.
    cases run
    unfold locals
    rw [same]
    exact ((repeatable_localVars small _).echoes imported reach).bind (.silent rfl fun _ => rfl)
  have quiet := (repeatable_localVars small _).quiet imported
  dsimp only at run
  split at run
  · rename_i empty
    cases run
    have list : m''.body.locals.toList = ls := congrArg Array.toList same
    have own : ls.mapM imp.localVar = pure ls :=
      localVars_of_alike (localVars_import small imported reach)
    rw [← list] at own empty
    rw [locals_own own, if_pos empty]
    exact .silent quiet fun _ => rfl
  · -- The signature is written again, or fails to be written again, and its row is there.
    rename_i some
    obtain ⟨o, st₂, added, last⟩ := exists_of_run_bind run
    cases last
    have list : m''.body.locals.toList = ls := congrArg Array.toList same
    have again := imp.repeatable_standAloneSig (S := S) "local signature" (Blob.locals ls)
    have reach₁ := again.growing.reaches added reach
    have own : ls.mapM imp.localVar = pure ls :=
      localVars_of_alike (localVars_import small imported reach₁)
    rw [← list] at own some again added
    rw [locals_own own, if_neg some, ← quiet]
    refine (again.echoes added reach).bind (.silent rfl fun notes => ?_)
    dsimp only at signed
    rw [← signed]
    rfl

/-- Whether a step that is repeated on what it gave gives the same and counts the same failures. -/
structure Steady (S : SymbolTable) (step : α → StateM ImportState (α × Nat)) : Prop where
  growing (x : α) : Growing (step x)
  echoes {x y : α} {n : Nat} {st st' : ImportState} : (step x).run st = ((y, n), st') →
    st'.symbols.Grows S → Echoes S st.notes st'.notes (step y) (y, n)

/-- The attempt at a region ends as it did. -/
theorem steady_region (small : S.Small) : Steady S imp.region where
  growing := imp.growing_region
  echoes {r r' n st st'} run reach := by
    unfold region at run
    split at run
    · rename_i none
      cases run
      refine .silent rfl fun notes => ?_
      unfold region
      rw [none]
      rfl
    · rename_i t typed
      have again : Repeatable S (do
          let token ← imp.typeToken t
          return { r with catchType := some (.reference (.token token)) }) :=
        (repeatable_typeToken small t).bind fun _ _ _ _ => repeatable_pure _
      rcases attempt_outcome run with ⟨imported, rfl⟩ | ⟨failed, rfl, rfl⟩
      · -- The catch type is a token now, which is its own token.
        obtain ⟨token, st₁, -, last⟩ := run_bind_eq_some.1 imported
        obtain ⟨rfl, rfl⟩ := run_pure_eq_some.1 last
        exact attempt_again again imported rfl
      · unfold region
        rw [typed]
        exact (again.echoes failed reach).attempt_none

/-- The attempt at an instruction ends as it did. -/
theorem steady_instruction (small : S.Small) : Steady S imp.instruction where
  growing := imp.growing_instruction
  echoes {i i' n st st'} run reach := by
    unfold instruction at run
    split at run
    · rename_i symbolic
      have again : Repeatable S (do return { i with operand := ← imp.operand i.operand }) :=
        (repeatable_operand small i.operand).bind fun _ _ _ _ => repeatable_pure _
      rcases attempt_outcome run with ⟨imported, rfl⟩ | ⟨failed, rfl, rfl⟩
      · obtain ⟨o, st₁, ho, last⟩ := run_bind_eq_some.1 imported
        obtain ⟨rfl, rfl⟩ := run_pure_eq_some.1 last
        obtain ⟨token, rfl, -⟩ := operand_denotes symbolic ho reach small
        exact .silent (again.quiet imported) fun _ => rfl
      · unfold instruction
        rw [if_pos symbolic]
        exact (again.echoes failed reach).attempt_none
    · rename_i plain
      cases run
      refine .silent rfl fun notes => ?_
      unfold instruction
      rw [if_neg plain]
      rfl

/-- Attempts one after the other end as they did. -/
theorem steady_each {step : α → StateM ImportState (α × Nat)} (steady : Steady S step) :
    Steady S (each step) where
  growing := growing_each steady.growing
  echoes {xs ys n st st'} run reach := by
    induction xs generalizing ys n st st' with
    | nil =>
      cases run
      exact .silent rfl fun _ => rfl
    | cons x xs ih =>
      obtain ⟨⟨y, k⟩, st₁, first, run⟩ := exists_of_run_bind run
      obtain ⟨⟨zs, l⟩, st₂, rest, last⟩ := exists_of_run_bind run
      cases last
      have reach₁ := (growing_each steady.growing xs).reaches rest reach
      exact (steady.echoes first reach₁).bind ((ih rest reach).bind (.silent rfl fun _ => rfl))

/-- **Importing again changes nothing.**  Whether all of a method is imported or not, importing the
result counts the same failures, gives the same method and adds no row, also if anything else is
imported in between, as long as tokens can tell the rows apart.  What is noted is what was noted the
first time. -/
theorem synthetic_idempotent {m m' : SyntheticMethod} {n : Nat}
    (run : (synthetic view m).run st = ((m', n), st')) (requests : List Request)
    (small : (serveAll st' requests).symbols.Small) :
    ∃ added, st'.notes = st.notes ++ added ∧
      (synthetic view m').run (serveAll st' requests) =
        ((m', n), ⟨(serveAll st' requests).symbols, (serveAll st' requests).notes ++ added⟩) := by
  have reach := grows_serveAll st' requests
  suffices echoes : Echoes (serveAll st' requests).symbols st.notes st'.notes
      (synthetic view m') (m', n) by
    obtain ⟨added, noted, again⟩ := echoes
    exact ⟨added, noted, again _⟩
  unfold synthetic at run
  obtain ⟨⟨signature, a⟩, st₁, hs, run⟩ := exists_of_run_bind run
  obtain ⟨⟨m₁, b⟩, st₂, hl, run⟩ := exists_of_run_bind run
  obtain ⟨⟨regions, c⟩, st₃, hr, run⟩ := exists_of_run_bind run
  obtain ⟨⟨instructions, d⟩, st₄, hi, last⟩ := exists_of_run_bind run
  cases last
  -- What each of the four steps left behind is there when it is repeated.
  have reach₃ := (growing_each (growing_instruction _) _).reaches hi reach
  have reach₂ := (growing_each (growing_region _) _).reaches hr reach₃
  have reach₁ := (growing_locals _ _).reaches hl reach₂
  obtain ⟨-, kept, origin⟩ := locals_keeps hl
  dsimp only at kept origin
  subst signature
  unfold synthetic
  dsimp only
  rw [origin]
  refine (signature_again small hs reach₁).bind ?_
  refine Echoes.bind (locals_again small hl reach₂ rfl rfl) ?_
  refine ((steady_each (steady_region small)).echoes hr reach₃).bind ?_
  exact ((steady_each (steady_instruction small)).echoes hi reach).bind (.silent rfl fun _ => rfl)

/-- A method with a reference of every kind.  One of them cannot be imported: the second method that
is called lies in no type. -/
def orphanCall : SyntheticMethod where
  name := "Update"
  signature := { params := [.ofName "Clock"] }
  paramNames := ["clock"]
  body :=
    { MethodBody.ofCode [
        (.call, .method
          { declaringType := some (.ofName "Player"), name := "Get"
            signature := { genericCount := 1, result := .methodParam 0 }
            genericArguments := [.array (.ofName "Item")] }),
        (.call, .method { declaringType := none, name := "Lost", signature := {} }),
        (.ldtoken, .token (.ofRow .typeRef 1)),
        (.leaveS, .target ⟨5⟩),
        (.ldsfld, .field
          { declaringType := some (.array (.ofName "Item")), name := "Empty"
            fieldType := .primitive .int32 }),
        (.ret, .none)] with
      locals := #[⟨.ofName "Item", false⟩]
      regions := [.catching ⟨0⟩ (some ⟨4⟩) ⟨4⟩ (some ⟨5⟩) (.array (.ofName "Failure"))] }

/-- What is imported in between. -/
def mapRequest : Request := .operand ⟨.game, none⟩ (.type (.ofName "Map"))

/-- The hypotheses are satisfiable: one reference of a method stays symbolic in an empty table, and
importing the result again, behind another type, gives the same with the same note. -/
theorem synthetic_idempotent_orphanCall : ∃ m' later added,
    ((synthetic .game orphanCall).run { symbols := {} }).1 = (m', 1) ∧
      later.symbols.types.rows.size = 5 ∧ added.size = 1 ∧
      (synthetic .game m').run later = ((m', 1), ⟨later.symbols, later.notes ++ added⟩) := by
  have facts : (((synthetic .game orphanCall).run { symbols := {} }).1.2 == 1 &&
      ((synthetic .game orphanCall).run { symbols := {} }).2.notes.size == 1) = true := by
    cbv
  have left : ((serveAll ((synthetic .game orphanCall).run { symbols := {} }).2
        [mapRequest]).symbols.types.rows.size == 5 &&
      decide (serveAll ((synthetic .game orphanCall).run { symbols := {} }).2
        [mapRequest]).symbols.Small) = true := by
    cbv
  simp only [Bool.and_eq_true, beq_iff_eq, decide_eq_true_eq] at facts left
  rcases run : (synthetic .game orphanCall).run { symbols := {} } with ⟨⟨m', n⟩, st'⟩
  rw [run] at facts left
  obtain ⟨rfl, noted⟩ := facts
  obtain ⟨added, all, again⟩ := synthetic_idempotent run [mapRequest] left.2
  rw [all, Array.empty_append] at noted
  exact ⟨m', _, added, rfl, left.1, noted, again⟩

end Importer
end HookImage
