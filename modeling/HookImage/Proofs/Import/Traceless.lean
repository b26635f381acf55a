/-
# A failed import leaves no trace

A search for a type asks the view before it adds the first row, and adds the rows from the assembly
inwards, so that each of them has what is around it.  So a search that fails has added nothing, at
whatever depth (`Importer.throughModule_error`), and one that does not fail adds the rows of one
chain (`Importer.throughModule_gains`).  The search by name therefore starts where the search
through the module did, and a failed import leaves only a note (`Importer.reference_traceless`).
-/

import HookImage.Proofs.Import.Sites

namespace HookImage

namespace SymbolTable

variable {s s₁ s' : SymbolTable} {n : Nat} {p : TypePath} {a : ModuleInfo}
  {links : List (String × String)} {link : String × String} {row : TypeRow} {token : Token}

/-- What the rows of a type tell stays as it is. -/
theorem Grows.path? (grows : s.Grows s') (h : s.path? n = some p) : s'.path? n = some p := by
  induction n using Nat.strongRecOn generalizing p with
  | _ n ih =>
    obtain ⟨row, found, around⟩ := path?_cases h
    have found' := grows.types _ _ found
    rcases around with ⟨table, outer, own⟩ | ⟨q, table, outer, assembly, own⟩
    · rw [path?_of_assembly found' table (grows.assemblies _ _ outer), ← own]
    · rw [path?_of_type found' table (ih _ (scope_row_lt found table) outer), ← own, ← assembly]

/-- Whether a table has gained rows for a chain of types only: for their assembly, and for types of
the chain within what is around them. -/
structure GainsChain (s s' : SymbolTable) (a : ModuleInfo) (links : List (String × String)) :
    Prop where
  grows : s.Grows s'
  assemblies : ∀ n row, s'.assemblies.row? n = some row → s.assemblies.row? n = some row ∨ row = a
  types : ∀ n row, s'.types.row? n = some row → s.types.row? n = some row ∨
    ∃ outer, outer <:+ links ∧ (s'.path? n).map TypePath.site = some ⟨assemblyKey a, outer⟩
  specs : s'.specs = s.specs
  members : s'.members = s.members
  signatures : s'.signatures = s.signatures
  instantiations : s'.instantiations = s.instantiations

/-- The row of an assembly is the beginning of a chain. -/
theorem gainsChain_assemblyRef (s : SymbolTable) (a : ModuleInfo) :
    s.GainsChain (s.assemblyRef a).2 a [] where
  grows := s.grows_assemblyRef a
  assemblies _ _ h := (Interner.row?_add_cases h).imp_right fun ⟨_, same⟩ => same
  types _ _ h := .inl h
  specs := rfl
  members := rfl
  signatures := rfl
  instantiations := rfl

/-- A type within a chain makes it one link longer. -/
theorem GainsChain.typeRef (gains : s.GainsChain s₁ a links)
    (added : s₁.typeRef row = .ok (token, s')) (small : s'.Small)
    (told : s'.site? token = some ⟨assemblyKey a, link :: links⟩) :
    s.GainsChain s' a (link :: links) := by
  obtain ⟨-, -, types, assemblies, specs, members, signatures, instantiations⟩ :=
    typeRef_eq_ok added
  have grows := grows_typeRef added
  exact {
    grows := gains.grows.trans grows
    assemblies := assemblies ▸ gains.assemblies
    types := by
      intro n r h
      have cases := Interner.row?_add_cases (types ▸ h)
      rcases cases with old | ⟨-, rfl⟩
      · rcases gains.types n r old with before | ⟨outer, suffix, site⟩
        · exact .inl before
        · obtain ⟨p, path, same⟩ := Option.map_eq_some_iff.1 site
          refine .inr ⟨outer, suffix.trans (List.suffix_cons ..), ?_⟩
          rw [grows.path? path, Option.map_some, same]
      · -- The row that is added is the one that the token names.
        have place : n = token.row := Interner.eq_of_key h (row?_typeRef added small).2 rfl
        exact .inr ⟨_, List.suffix_rfl, place ▸ told⟩
    specs := specs.trans gains.specs
    members := members.trans gains.members
    signatures := signatures.trans gains.signatures
    instantiations := instantiations.trans gains.instantiations }

end SymbolTable

namespace Importer

variable {view : HostView} {imp : Importer} {s s' : SymbolTable} {st st' : ImportState}
  {t : TypeName} {outer : List TypeName} {token : Token} {r : TypeRef} {a : ModuleInfo} {e : Error}

/-- A search within a scope is the addition of a row. -/
theorem within_eq_ok {scope : Token} : (within scope t).run.run s = (.ok token, s') ↔
    s.typeRef ⟨scope, t.nspace, t.name⟩ = .ok (token, s') := by
  rw [run_within]
  rcases s.typeRef ⟨scope, t.nspace, t.name⟩ with e | ⟨token', s''⟩
  · exact iff_of_false (fun h => by cases h) (fun h => by cases h)
  · constructor <;>
    · intro h
      cases h
      rfl

/-! ### Searches that fail -/

/-- A search for a type without a home fails and adds no row. -/
theorem throughModule_homeless (home : view.home? ⟨t, outer⟩ = none) (s : SymbolTable) :
    ∃ e, (throughModule view t outer).run.run s = (.error e, s) := by
  induction outer generalizing t with
  | nil =>
    unfold throughModule
    rcases named : t.module with _ | id
    · exact ⟨_, rfl⟩
    · have unknown : view.module id = none := by
        rwa [HostView.home?, show TypeRef.outermost ⟨t, []⟩ = t from rfl, named] at home
      simp only [unknown]
      exact ⟨_, rfl⟩
  | cons o os ih =>
    rw [home?_nested] at home
    obtain ⟨e, failed⟩ := ih home
    refine ⟨e, ?_⟩
    rw [throughModule, run_search_bind, failed]

/-- **A search through modules that fails has added nothing.** -/
theorem throughModule_error (h : (throughModule view t outer).run.run s = (.error e, s'))
    (small : s'.Small) : s' = s := by
  rcases home : view.home? ⟨t, outer⟩ with _ | a
  · obtain ⟨e', failed⟩ := throughModule_homeless home s
    exact (Prod.mk.inj (h.symm.trans failed)).2
  · obtain ⟨_, impossible, -⟩ := throughModule_tells home h (.refl s') small
    cases impossible

/-- A search by name that fails adds no row. -/
theorem byName_error (h : (byName view r).run.run s = (.error e, s')) (small : s'.Small) :
    s' = s := by
  unfold byName at h
  rcases defined : view.findType r.fullName with _ | t
  · simp only [defined] at h
    cases h
    rfl
  simp only [defined] at h
  rw [run_search_bind] at h
  rcases named : view.typeReference t.id with e' | found
  · rw [named] at h
    cases h
    rfl
  · rw [named] at h
    have last : (throughModule view found.leaf found.enclosing).run.run s = (.error e, s') := h
    exact throughModule_error last small

/-! ### Searches that find a type -/

/-- The row that a search through the module gives lies in the module, within the types around
it. -/
theorem throughModule_lies (home : view.home? ⟨t, outer⟩ = some a)
    (h : (throughModule view t outer).run.run s = (.ok token, s')) (small : s'.Small) :
    s'.site? token = some ⟨assemblyKey a, TypeRef.links ⟨t, outer⟩⟩ := by
  obtain ⟨_, same, -, a', path, key⟩ := throughModule_tells home h (.refl s') small
  cases same
  rw [SymbolTable.site?, path, Option.map_some, TypePath.site, key]

/-- **A search through modules gains the rows of its chain**, and none else. -/
theorem throughModule_gains (home : view.home? ⟨t, outer⟩ = some a)
    (h : (throughModule view t outer).run.run s = (.ok token, s')) (small : s'.Small) :
    s.GainsChain s' a (TypeRef.links ⟨t, outer⟩) := by
  have told := throughModule_lies home h small
  induction outer generalizing t token s' with
  | nil =>
    obtain ⟨id, named, known⟩ := Option.bind_eq_some_iff.1 home
    have named : t.module = some id := named
    unfold throughModule at h
    simp only [named, known] at h
    rw [run_search_bind] at h
    have last : (within (s.assemblyRef a).1 t).run.run (s.assemblyRef a).2 = (.ok token, s') := h
    exact (s.gainsChain_assemblyRef a).typeRef (within_eq_ok.1 last) small told
  | cons o os ih =>
    obtain ⟨scope, s₁, inner, last⟩ := run_bind_eq_ok.1 h
    rw [home?_nested] at home
    have before : s₁.Small := small.of_grows (within_reaches last (.refl s'))
    have gains := ih home inner before (throughModule_lies home inner before)
    exact gains.typeRef (within_eq_ok.1 last) small told

/-- A search by name is one through the module of the type that has the name. -/
theorem byName_eq_ok (h : (byName view r).run.run s = (.ok token, s')) :
    ∃ t found, view.findType r.fullName = some t ∧ view.typeReference t.id = .ok found ∧
      (throughModule view found.leaf found.enclosing).run.run s = (.ok token, s') := by
  unfold byName at h
  split at h
  · cases h
  · rename_i t named
    obtain ⟨found, s₁, answered, last⟩ := run_bind_eq_ok.1 h
    obtain ⟨reference, rfl⟩ := run_lift_eq_ok.1 answered
    exact ⟨t, found, named, reference, last⟩

/-- Which reference is searched for a type: the given one, or, if the search through its module has
failed and added nothing, the one that the full name leads to. -/
inductive Chooses (view : HostView) (s : SymbolTable) (r : TypeRef) : TypeRef → Prop
  | given : Chooses view s r r
  | named {t : TypeInfo} {found : TypeRef} {e : Error}
    (failed : (throughModule view r.leaf r.enclosing).run.run s = (.error e, s))
    (named : view.findType r.fullName = some t) (answered : view.typeReference t.id = .ok found) :
    Chooses view s r found

/-- **Locating either fails in both ways and adds no row, or finds the type that it chooses.** -/
theorem locate_cases {found : Except (Error × Error) Token}
    (h : (locate view r).run s = (found, s')) (small : s'.Small) :
    (∃ first second, found = .error (first, second) ∧ s' = s ∧
      (throughModule view r.leaf r.enclosing).run.run s = (.error first, s) ∧
      (byName view r).run.run s = (.error second, s)) ∨
    ∃ token chosen, found = .ok token ∧ Chooses view s r chosen ∧
      (throughModule view chosen.leaf chosen.enclosing).run.run s = (.ok token, s') := by
  rw [run_locate] at h
  rcases first : (throughModule view r.leaf r.enclosing).run.run s with ⟨e | token, s₁⟩
  · rw [first] at h
    have grows := grows_byName view r s₁
    rcases second : (byName view r).run.run s₁ with ⟨e' | token, s₂⟩
    all_goals
      simp only [second] at h grows
      cases h
      -- The second search starts from the table that the first one was given.
      obtain rfl := throughModule_error first (small.of_grows grows)
    · obtain rfl := byName_error second small
      exact .inl ⟨e, e', rfl, rfl, rfl, second⟩
    · obtain ⟨t, chosen, named, answered, last⟩ := byName_eq_ok second
      exact .inr ⟨token, chosen, rfl, .named first named answered, last⟩
  · rw [first] at h
    cases h
    exact .inr ⟨token, r, rfl, .given, first⟩

/-- **A failed import of a type leaves no trace**: if neither search finds the type, the table is
what it was, and there is one more note, a warning with both reasons.  Else there is no note, and
the table has gained rows only for the chain of the one reference whose token is the answer: the
given one, or the one of the full name where the first search failed and added nothing. -/
theorem reference_traceless {o : Option Token} (run : (imp.reference r).run.run st = (o, st'))
    (small : st'.symbols.Small) :
    (o = none → ∃ first second,
      (throughModule imp.view r.leaf r.enclosing).run.run st.symbols = (.error first, st.symbols) ∧
      (byName imp.view r).run.run st.symbols = (.error second, st.symbols) ∧
      st'.symbols = st.symbols ∧
      st'.notes = st.notes.push {
        severity := .warning
        topic := .imports
        message := s!"failed to import {r.fullName}: {first.message}; {second.message}"
        method := imp.origin }) ∧
    (∀ token, o = some token → st'.notes = st.notes ∧ ∃ chosen a,
      Chooses imp.view st.symbols r chosen ∧
      (throughModule imp.view chosen.leaf chosen.enclosing).run.run st.symbols =
        (.ok token, st'.symbols) ∧
      imp.view.home? chosen = some a ∧
      st.symbols.GainsChain st'.symbols a chosen.links ∧
      st'.symbols.site? token = some ⟨assemblyKey a, chosen.links⟩) := by
  rw [run_reference] at run
  rcases located : (locate imp.view r).run st.symbols with ⟨found, symbols⟩
  rw [located] at run
  have few : symbols.Small := by
    rcases found with ⟨first, second⟩ | token <;>
    · cases run
      exact small
  rcases locate_cases located few with
    ⟨first, second, rfl, rfl, failed, failed'⟩ | ⟨token, chosen, rfl, chooses, ran⟩
  · cases run
    exact ⟨fun _ => ⟨first, second, failed, failed', rfl, rfl⟩,
      fun _ impossible => by cases impossible⟩
  · cases run
    refine ⟨fun impossible => (by cases impossible), fun token' same => ?_⟩
    cases same
    obtain ⟨a, home⟩ := home?_of_throughModule ran
    exact ⟨rfl, chosen, a, chooses, ran, home, throughModule_gains home ran small,
      throughModule_lies home ran small⟩

/-- The game, with a type in a type. -/
def clockView : HostView where
  method _ := none
  body _ := none
  type id := [
    { id := ⟨1⟩, module := some ⟨1⟩, nspace := "Game", name := "Clock" },
    { id := ⟨2⟩, module := some ⟨1⟩, nspace := "", name := "Hand", enclosing := some ⟨1⟩ }
    ].find? fun t : TypeInfo => t.id == id
  module := HostView.game.module
  modules := HostView.game.modules
  findType name :=
    if name == "Game.Clock+Hand" then
      some { id := ⟨2⟩, module := some ⟨1⟩, nspace := "", name := "Hand", enclosing := some ⟨1⟩ }
    else none
  patches := none

/-- The type in the type, said to lie in a module that is not loaded. -/
def strayHand : TypeRef := .nested (.topLevel (some ⟨2⟩) "Game" "Clock") "Hand"

/-- The hypotheses are satisfiable: in an empty table a type is found by its name, and one that has
neither a module nor a name that is known is not found. -/
theorem reference_traceless_stray :
    (∃ token st', (reference ⟨clockView, none⟩ strayHand).run.run { symbols := {} } =
        (some token, st') ∧ st'.notes = #[] ∧ st'.symbols.types.rows.size = 2 ∧
      ∃ chosen, chosen ≠ strayHand ∧ Chooses clockView {} strayHand chosen ∧
        SymbolTable.GainsChain {} st'.symbols { id := ⟨1⟩, name := "Game" }
          [("", "Hand"), ("Game", "Clock")]) ∧
    ∃ st', (reference ⟨clockView, none⟩ (.topLevel none "Game" "Lost")).run.run { symbols := {} } =
        (none, st') ∧ st'.symbols = {} ∧ st'.notes.size = 1 := by
  have facts : (((reference ⟨clockView, none⟩ strayHand).run.run { symbols := {} }).1.isSome &&
      ((reference ⟨clockView, none⟩ strayHand).run.run
        { symbols := {} }).2.symbols.types.rows.size == 2 &&
      decide ((reference ⟨clockView, none⟩ strayHand).run.run
        { symbols := {} }).2.symbols.Small) = true := by
    cbv
  simp only [Bool.and_eq_true, beq_iff_eq, decide_eq_true_eq] at facts
  constructor
  · rcases run : (reference ⟨clockView, none⟩ strayHand).run.run { symbols := {} } with ⟨o, st'⟩
    rw [run] at facts
    obtain ⟨⟨answered, rows⟩, small⟩ := facts
    obtain ⟨token, rfl⟩ := Option.isSome_iff_exists.1 answered
    obtain ⟨-, found⟩ := reference_traceless run small
    obtain ⟨notes, chosen, a, chooses, -, home, gains, -⟩ := found token rfl
    refine ⟨token, st', rfl, notes, rows, chosen, ?_⟩
    cases chooses with
    | given => cases home
    | named failed named reference =>
      cases named
      cases reference
      cases home
      exact ⟨by decide, .named failed rfl rfl, gains⟩
  · rcases run : (reference ⟨clockView, none⟩ (.topLevel none "Game" "Lost")).run.run
      { symbols := {} } with ⟨o, st'⟩
    have lost : o = none := (congrArg Prod.fst run).symm
    have small : st'.symbols.Small := by
      have kept : st'.symbols = {} := (congrArg (·.2.symbols) run).symm
      rw [kept]
      decide
    obtain ⟨first, second, -, -, symbols, notes⟩ := (reference_traceless run small).1 lost
    exact ⟨st', by rw [lost], symbols, by rw [notes]; rfl⟩

end Importer
end HookImage
