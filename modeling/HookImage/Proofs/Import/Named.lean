/-
# What imported types name

A type of the audited process becomes a type row.  If the outermost type around it lies in a
module that the view knows, the rows say the names of the type and an assembly with the name
of that module (`throughModule_tells`), as long as the table has room.  Everything is said
about a table that the import reaches, in the import itself or in any import behind it.
-/

import HookImage.Proofs.Import.Growth
import HookImage.Proofs.Signature.Alike
import HookImage.Proofs.Symbols.TypePaths

namespace HookImage

/-- The module in which the outermost type around a type lies, if the view knows it. -/
def HostView.home? (view : HostView) (r : TypeRef) : Option ModuleInfo :=
  r.outermost.module.bind view.module

namespace SymbolTable

/-- Whether a token names a type row. -/
def IsTypeRow (s : SymbolTable) (t : Token) : Prop :=
  t.table? = some .typeRef ∧ ∃ row, s.types.row? t.row = some row

/-- Whether the rows of a token say the names of a type, and an assembly with the name of a
module up to the case of its letters. -/
def Tells (s : SymbolTable) (t : Token) (r : TypeRef) (a : ModuleInfo) : Prop :=
  ∃ a', s.path? t.row = some ⟨a', r.links⟩ ∧ assemblyKey a' = assemblyKey a

/-- The row of a referenced type resolves to one. -/
theorem IsTypeRow.resolve_eq {s : SymbolTable} {t : Token} (h : s.IsTypeRow t) :
    s.resolve t = some .typeRef := by
  obtain ⟨table, row, hr⟩ := h
  rw [resolve, table]
  simp only [hr, Option.map_some]

/-- The row of a type is a scope for nested ones. -/
theorem IsTypeRow.isScope {s : SymbolTable} {t : Token} (h : s.IsTypeRow t) : s.isScope t := by
  rw [SymbolTable.isScope, h.resolve_eq]

/-- The row of an assembly is a scope for its types. -/
theorem isScope_assemblyRef (s : SymbolTable) (a : ModuleInfo) (small : (s.assemblyRef a).2.Small) :
    (s.assemblyRef a).2.isScope (s.assemblyRef a).1 := by
  have table : (s.assemblyRef a).1.table? = some .assemblyRef := Token.table?_ofRow _ _
  obtain ⟨a', found, -⟩ := s.row?_assemblyRef a small
  rw [isScope, resolve, table]
  simp only [found, Option.map_some]

/-- The token of a type can be written into a signature. -/
theorem IsTypeRow.written {s : SymbolTable} {t : Token} (h : s.IsTypeRow t) :
    (TypeHandle.token t).Written :=
  ⟨t, rfl, .inr (.inl h.1)⟩

/-- A type within an accepted scope gets a row. -/
theorem exists_typeRef_eq_ok {s : SymbolTable} {row : TypeRow} (h : s.isScope row.scope) :
    ∃ p, s.typeRef row = .ok p := by
  unfold typeRef
  rw [dif_pos h]
  exact ⟨_, rfl⟩

end SymbolTable

namespace Importer

variable {view : HostView} {s s' S : SymbolTable} {t : TypeName} {token : Token}

/-- A search within a scope gives the row of the type in it. -/
theorem within_row {scope : Token} (h : (within scope t).run.run s = (.ok token, s'))
    (reach : s'.Grows S) (small : S.Small) :
    token.table? = some .typeRef ∧ S.types.row? token.row = some ⟨scope, t.nspace, t.name⟩ := by
  rw [run_within] at h
  split at h
  · rename_i token s' found
    cases h
    obtain ⟨table, row⟩ := SymbolTable.row?_typeRef found (small.of_grows reach)
    exact ⟨table, reach.types _ _ row⟩
  · exact nomatch h

/-- A search within an accepted scope succeeds. -/
theorem within_ok {scope : Token} {found : Except Error Token}
    (h : (within scope t).run.run s = (found, s')) (outer : s.isScope scope) :
    ∃ token, found = .ok token := by
  obtain ⟨⟨token, s''⟩, added⟩ : ∃ p, s.typeRef ⟨scope, t.nspace, t.name⟩ = .ok p :=
    SymbolTable.exists_typeRef_eq_ok outer
  rw [run_within, added] at h
  cases h
  exact ⟨token, rfl⟩

/-- A search through the module gives the row of a type. -/
theorem throughModule_isTypeRow {outer : List TypeName}
    (h : (throughModule view t outer).run.run s = (.ok token, s')) (reach : s'.Grows S)
    (small : S.Small) : S.IsTypeRow token := by
  cases outer with
  | nil =>
    unfold throughModule at h
    split at h
    · cases h
    · split at h
      · cases h
      · obtain ⟨scope, s₁, _, last⟩ := run_bind_eq_ok.1 h
        obtain ⟨table, row⟩ := within_row last reach small
        exact ⟨table, _, row⟩
  | cons o os =>
    obtain ⟨scope, s₁, _, last⟩ := run_bind_eq_ok.1 h
    obtain ⟨table, row⟩ := within_row last reach small
    exact ⟨table, _, row⟩

/-- A nested type is at home where the one around it is. -/
theorem home?_nested (o : TypeName) (os : List TypeName) :
    view.home? ⟨t, o :: os⟩ = view.home? ⟨o, os⟩ := by
  simp only [HostView.home?, TypeRef.outermost, List.getLast?_cons, Option.getD_some]

/-- A table that holds the rows behind a search held those before it. -/
theorem within_reaches {scope : Token} {found : Except Error Token}
    (h : (within scope t).run.run s = (found, s')) (reach : s'.Grows S) : s.Grows S := by
  have grows := grows_within scope t s
  rw [h] at grows
  exact grows.trans reach

/-- **A type of a known module is found**, and its rows say its names. -/
theorem throughModule_tells {outer : List TypeName} {a : ModuleInfo} {found : Except Error Token}
    (home : view.home? ⟨t, outer⟩ = some a)
    (h : (throughModule view t outer).run.run s = (found, s')) (reach : s'.Grows S)
    (small : S.Small) : ∃ token, found = .ok token ∧ S.IsTypeRow token ∧
      S.Tells token ⟨t, outer⟩ a := by
  induction outer generalizing t found s' S with
  | nil =>
    obtain ⟨id, named, known⟩ := Option.bind_eq_some_iff.1 home
    have named : t.module = some id := named
    unfold throughModule at h
    simp only [named, known] at h
    rw [run_search_bind] at h
    have last : (within (s.assemblyRef a).1 t).run.run (s.assemblyRef a).2 = (found, s') := h
    have grows := within_reaches last reach
    have table : (s.assemblyRef a).1.table? = some .assemblyRef := Token.table?_ofRow _ _
    obtain ⟨a', outer, same⟩ := s.row?_assemblyRef a (small.of_grows grows)
    obtain ⟨token, rfl⟩ := within_ok last (s.isScope_assemblyRef a (small.of_grows grows))
    obtain ⟨typeTable, row⟩ := within_row last reach small
    exact ⟨token, rfl, ⟨typeTable, _, row⟩, a',
      SymbolTable.path?_of_assembly row table (grows.assemblies _ _ outer), same⟩
  | cons o os ih =>
    rw [home?_nested] at home
    unfold throughModule at h
    rw [run_search_bind] at h
    rcases inner : (throughModule view o os).run.run s with ⟨found₁, s₁⟩
    rw [inner] at h
    -- What is around the type is a scope for the row that is added, and stays what it is.
    obtain ⟨scope, rfl⟩ : ∃ scope, found₁ = .ok scope := by
      cases found₁ with
      | ok scope => exact ⟨scope, rfl⟩
      | error e =>
        cases h
        obtain ⟨_, impossible, _⟩ := ih home inner reach small
        cases impossible
    have last : (within scope t).run.run s₁ = (found, s') := h
    have grows := within_reaches last reach
    obtain ⟨_, same, around, _⟩ := ih home inner (.refl s₁) (small.of_grows grows)
    cases same
    obtain ⟨token, rfl⟩ := within_ok last around.isScope
    obtain ⟨typeTable, row⟩ := within_row last reach small
    obtain ⟨_, same, ⟨table, _⟩, a', path, key⟩ := ih home inner grows small
    cases same
    exact ⟨token, rfl, ⟨typeTable, _, row⟩, a', SymbolTable.path?_of_type row table path, key⟩

/-- A search by name gives the row of a type. -/
theorem byName_isTypeRow {r : TypeRef} (h : (byName view r).run.run s = (.ok token, s'))
    (reach : s'.Grows S) (small : S.Small) : S.IsTypeRow token := by
  unfold byName at h
  split at h
  · exact nomatch h
  · obtain ⟨found, s₁, _, last⟩ := run_bind_eq_ok.1 h
    exact throughModule_isTypeRow last reach small

/-- **A type with a home is located**, and its row tells of it. -/
theorem locate_tells {r : TypeRef} {a : ModuleInfo} {found : Except (Error × Error) Token}
    (home : view.home? r = some a) (h : (locate view r).run s = (found, s'))
    (reach : s'.Grows S) (small : S.Small) :
    ∃ token, found = .ok token ∧ S.Tells token r a := by
  rw [run_locate] at h
  rcases first : (throughModule view r.leaf r.enclosing).run.run s with ⟨e | token, s₁⟩
  · rw [first] at h
    have grows : s₁.Grows S := by
      have more := grows_byName view r s₁
      dsimp only at h
      split at h <;>
      · rename_i second
        rw [second] at more
        cases h
        exact more.trans reach
    obtain ⟨_, impossible, _⟩ := throughModule_tells home first grows small
    exact nomatch impossible
  · rw [first] at h
    cases h
    obtain ⟨_, same, _, told⟩ := throughModule_tells home first reach small
    cases same
    exact ⟨token, rfl, told⟩

/-- Whatever is located is the row of a type. -/
theorem locate_isTypeRow {r : TypeRef} (h : (locate view r).run s = (.ok token, s'))
    (reach : s'.Grows S) (small : S.Small) : S.IsTypeRow token := by
  rw [run_locate] at h
  rcases first : (throughModule view r.leaf r.enclosing).run.run s with ⟨e | token, s₁⟩
  · rw [first] at h
    dsimp only at h
    split at h
    · rename_i second
      cases h
      exact byName_isTypeRow second reach small
    · exact nomatch h
  · rw [first] at h
    cases h
    exact throughModule_isTypeRow first reach small

/-! ### Named types -/

variable {imp : Importer} {st st' : ImportState} {R : TypeHandle → TypeHandle → Prop}

/-- A table that holds the rows behind a growing step held those before it. -/
theorem Growing.reaches {α : Type} {x : StateM ImportState α} (h : Growing x) {a : α}
    (run : x.run st = (a, st')) (reach : st'.symbols.Grows S) : st.symbols.Grows S := by
  have grows := h.grows st
  rw [run] at grows
  exact grows.trans reach

/-- Whether a named type becomes another one under an import.  The token of a type is a type
row, and if the type lies in a module that the view knows, the rows say what it is. -/
def Renders (view : HostView) (s : SymbolTable) : TypeHandle → TypeHandle → Prop
  | .reference r, .token t => s.IsTypeRow t ∧ ∀ a, view.home? r = some a → s.Tells t r a
  | .token t, h => h = .token t
  | .reference _, .reference _ => False

/-- Whether imports into a table replace names by such that `R` relates to them. -/
def Replaces (imp : Importer) (S : SymbolTable) (R : TypeHandle → TypeHandle → Prop) : Prop :=
  ∀ {h h' : TypeHandle} {st st' : ImportState}, (imp.handle h).run.run st = (some h', st') →
    st'.symbols.Grows S → R h h'

/-- An imported named type stands for the one it was. -/
theorem handle_renders {h h' : TypeHandle} (run : (imp.handle h).run.run st = (some h', st'))
    (reach : st'.symbols.Grows S) (small : S.Small) : Renders imp.view S h h' := by
  cases h with
  | token t =>
    obtain ⟨rfl, _⟩ := run_pure_eq_some.1 run
    rfl
  | reference r =>
    obtain ⟨token, st₁, found, last⟩ := run_bind_eq_some.1 run
    obtain ⟨rfl, rfl⟩ := run_pure_eq_some.1 last
    rw [run_reference] at found
    split at found
    · rename_i symbols located
      cases found
      refine ⟨locate_isTypeRow located reach small, fun a home => ?_⟩
      obtain ⟨_, same, told⟩ := locate_tells home located reach small
      cases same
      exact told
    · exact nomatch found

/-- A name that is no token yet becomes a type row. -/
theorem Renders.exists_isTypeRow {h h' : TypeHandle} (renders : Renders view S h h')
    (symbolic : ¬h.isResolved) : ∃ t, h' = .token t ∧ S.IsTypeRow t := by
  cases h with
  | token t => exact absurd rfl symbolic
  | reference r =>
    cases h' with
    | reference _ => exact renders.elim
    | token t => exact ⟨t, rfl, renders.1⟩

/-- The names of an imported type can be written. -/
theorem written_of_alike {t t' : TypeSig} (alike : t.Alike (Renders view S) t')
    (symbolic : ∀ h ∈ t.handles, ¬h.isResolved) : ∀ h ∈ t'.handles, h.Written :=
  alike.forall_handles fun h hh _ renders => by
    obtain ⟨_, rfl, isRow⟩ := renders.exists_isTypeRow (symbolic h hh)
    exact isRow.written

/-- The names of an imported type are tokens. -/
theorem isResolved_of_alike {t t' : TypeSig} (alike : t.Alike (Renders view S) t') :
    t'.isResolved := by
  refine List.all_eq_true.2 (alike.forall_handles fun h _ h' renders => ?_)
  cases h' with
  | token t => rfl
  | reference r =>
    cases h with
    | token t => exact nomatch renders
    | reference r' => exact renders.elim

/-- Whether a type is named by where it lies, and its outermost type lies in a module that the
view knows. -/
def Known (view : HostView) : TypeHandle → Prop
  | .reference r => ∃ a, view.home? r = some a
  | .token _ => False

/-- A known type is named by a reference. -/
theorem Known.symbolic {h : TypeHandle} (known : Known view h) : ¬h.isResolved := by
  cases h with
  | token t => exact known.elim
  | reference r => exact Bool.false_ne_true

/-- A known type is imported. -/
theorem handle_ne_none {h : TypeHandle} (known : Known imp.view h)
    (run : (imp.handle h).run.run st = (none, st')) (reach : st'.symbols.Grows S)
    (small : S.Small) : False := by
  cases h with
  | token t => exact nomatch run
  | reference r =>
    obtain ⟨a, home⟩ := known
    rcases run_bind_eq_none.1 run with found | ⟨_, _, _, last⟩
    · rw [run_reference] at found
      split at found
      · exact nomatch found
      · rename_i located
        cases found
        obtain ⟨_, impossible, _⟩ := locate_tells home located reach small
        cases impossible
    · exact nomatch last

/-! ### Types -/

mutual

/-- **A type keeps its form**, and each of its names becomes what an import makes of it. -/
theorem type_alike_of (names : imp.Replaces S R) {st st' : ImportState} {t t' : TypeSig}
    (run : (imp.type t).run.run st = (some t', st')) (reach : st'.symbols.Grows S) :
    t.Alike R t' := by
  cases t with
  | reference h =>
    obtain ⟨h', st₁, hh, last⟩ := run_bind_eq_some.1 run
    obtain ⟨rfl, rfl⟩ := run_pure_eq_some.1 last
    exact .reference (names hh reach)
  | value h =>
    obtain ⟨h', st₁, hh, last⟩ := run_bind_eq_some.1 run
    obtain ⟨rfl, rfl⟩ := run_pure_eq_some.1 last
    exact .value (names hh reach)
  | generic isValue definition arguments =>
    obtain ⟨d', st₁, hd, run⟩ := run_bind_eq_some.1 run
    obtain ⟨ts', st₂, hs, last⟩ := run_bind_eq_some.1 run
    obtain ⟨rfl, rfl⟩ := run_pure_eq_some.1 last
    have reach₁ := (growing_types imp arguments).reaches hs reach
    exact .generic _ (names hd reach₁) (types_alike_of names hs reach)
  | array e =>
    obtain ⟨e', st₁, he, last⟩ := run_bind_eq_some.1 run
    obtain ⟨rfl, rfl⟩ := run_pure_eq_some.1 last
    exact .array (type_alike_of names he reach)
  | byRef e =>
    obtain ⟨e', st₁, he, last⟩ := run_bind_eq_some.1 run
    obtain ⟨rfl, rfl⟩ := run_pure_eq_some.1 last
    exact .byRef (type_alike_of names he reach)
  | pointer e =>
    obtain ⟨e', st₁, he, last⟩ := run_bind_eq_some.1 run
    obtain ⟨rfl, rfl⟩ := run_pure_eq_some.1 last
    exact .pointer (type_alike_of names he reach)
  | primitive p =>
    obtain ⟨rfl, rfl⟩ := run_pure_eq_some.1 run
    exact .primitive p
  | typeParam n =>
    obtain ⟨rfl, rfl⟩ := run_pure_eq_some.1 run
    exact .typeParam n
  | methodParam n =>
    obtain ⟨rfl, rfl⟩ := run_pure_eq_some.1 run
    exact .methodParam n

/-- Imported types have their forms, with other names that are related to theirs. -/
theorem types_alike_of (names : imp.Replaces S R) {st st' : ImportState} {ts ts' : List TypeSig}
    (run : (imp.types ts).run.run st = (some ts', st')) (reach : st'.symbols.Grows S) :
    List.Forall₂ (TypeSig.Alike R) ts ts' := by
  cases ts with
  | nil =>
    obtain ⟨rfl, rfl⟩ := run_pure_eq_some.1 run
    exact .nil
  | cons t ts =>
    obtain ⟨t', st₁, ht, run⟩ := run_bind_eq_some.1 run
    obtain ⟨ts', st₂, hs, last⟩ := run_bind_eq_some.1 run
    obtain ⟨rfl, rfl⟩ := run_pure_eq_some.1 last
    have reach₁ := (growing_types imp ts).reaches hs reach
    exact .cons (type_alike_of names ht reach₁) (types_alike_of names hs reach)

end

/-- An imported signature has its form, with other names that are related to its own. -/
theorem signature_alike_of (names : imp.Replaces S R) {s s' : MethodSig}
    (run : (imp.signature s).run.run st = (some s', st')) (reach : st'.symbols.Grows S) :
    s.Alike R s' := by
  obtain ⟨result, st₁, hr, run⟩ := run_bind_eq_some.1 run
  obtain ⟨params, st₂, hp, last⟩ := run_bind_eq_some.1 run
  obtain ⟨rfl, rfl⟩ := run_pure_eq_some.1 last
  have reach₁ := (growing_types imp s.params).reaches hp reach
  exact ⟨rfl, rfl, rfl, rfl, type_alike_of names hr reach₁, types_alike_of names hp reach⟩

/-- The names of an imported type are type rows. -/
theorem type_alike {t t' : TypeSig} (run : (imp.type t).run.run st = (some t', st'))
    (reach : st'.symbols.Grows S) (small : S.Small) : t.Alike (Renders imp.view S) t' :=
  type_alike_of (fun run reach => handle_renders run reach small) run reach

/-- **Imported types have their forms**, with rows for names. -/
theorem types_alike {ts ts' : List TypeSig} (run : (imp.types ts).run.run st = (some ts', st'))
    (reach : st'.symbols.Grows S) (small : S.Small) :
    List.Forall₂ (TypeSig.Alike (Renders imp.view S)) ts ts' :=
  types_alike_of (fun run reach => handle_renders run reach small) run reach

/-- **An imported signature has its form**, with rows for names. -/
theorem signature_alike {s s' : MethodSig} (run : (imp.signature s).run.run st = (some s', st'))
    (reach : st'.symbols.Grows S) (small : S.Small) : s.Alike (Renders imp.view S) s' :=
  signature_alike_of (fun run reach => handle_renders run reach small) run reach

mutual

/-- **A type of known modules is imported.** -/
theorem type_ne_none {st st' : ImportState} {t : TypeSig}
    (known : ∀ h ∈ t.handles, Known imp.view h)
    (run : (imp.type t).run.run st = (none, st')) (reach : st'.symbols.Grows S)
    (small : S.Small) : False := by
  cases t with
  | reference h =>
    rw [TypeSig.handles, List.forall_mem_singleton] at known
    rcases run_bind_eq_none.1 run with run | ⟨_, _, _, last⟩
    · exact handle_ne_none known run reach small
    · exact nomatch last
  | value h =>
    rw [TypeSig.handles, List.forall_mem_singleton] at known
    rcases run_bind_eq_none.1 run with run | ⟨_, _, _, last⟩
    · exact handle_ne_none known run reach small
    · exact nomatch last
  | generic isValue definition arguments =>
    rw [TypeSig.handles, List.forall_mem_cons] at known
    rcases run_bind_eq_none.1 run with run | ⟨_, _, _, run⟩
    · exact handle_ne_none known.1 run reach small
    · rcases run_bind_eq_none.1 run with run | ⟨_, _, _, last⟩
      · exact types_ne_none (List.forall_mem_flatMap.1 known.2) run reach small
      · exact nomatch last
  | array e =>
    rcases run_bind_eq_none.1 run with run | ⟨_, _, _, last⟩
    · exact type_ne_none (by simpa only [TypeSig.handles] using known) run reach small
    · exact nomatch last
  | byRef e =>
    rcases run_bind_eq_none.1 run with run | ⟨_, _, _, last⟩
    · exact type_ne_none (by simpa only [TypeSig.handles] using known) run reach small
    · exact nomatch last
  | pointer e =>
    rcases run_bind_eq_none.1 run with run | ⟨_, _, _, last⟩
    · exact type_ne_none (by simpa only [TypeSig.handles] using known) run reach small
    · exact nomatch last
  | primitive p => exact nomatch run
  | typeParam n => exact nomatch run
  | methodParam n => exact nomatch run

/-- Types whose names are known are imported. -/
theorem types_ne_none {st st' : ImportState} {ts : List TypeSig}
    (known : ∀ t ∈ ts, ∀ h ∈ t.handles, Known imp.view h)
    (run : (imp.types ts).run.run st = (none, st')) (reach : st'.symbols.Grows S)
    (small : S.Small) : False := by
  cases ts with
  | nil => exact nomatch run
  | cons t ts =>
    rw [List.forall_mem_cons] at known
    rcases run_bind_eq_none.1 run with run | ⟨_, _, _, run⟩
    · exact type_ne_none known.1 run reach small
    · rcases run_bind_eq_none.1 run with run | ⟨_, _, _, last⟩
      · exact types_ne_none known.2 run reach small
      · exact nomatch last

end

/-- A signature whose names are known is imported. -/
theorem signature_ne_none {s : MethodSig} (known : ∀ h ∈ s.handles, Known imp.view h)
    (run : (imp.signature s).run.run st = (none, st')) (reach : st'.symbols.Grows S)
    (small : S.Small) : False := by
  rw [MethodSig.handles, List.forall_mem_append, List.forall_mem_flatMap] at known
  rcases run_bind_eq_none.1 run with run | ⟨_, _, _, run⟩
  · exact type_ne_none known.1 run reach small
  · rcases run_bind_eq_none.1 run with run | ⟨_, _, _, last⟩
    · exact types_ne_none known.2 run reach small
    · cases last

end Importer

/-! ### A process with one module -/

/-- A process with one module. -/
def HostView.ofModule (a : ModuleInfo) : HostView where
  method _ := none
  body _ := none
  type _ := none
  module id := if id = a.id then some a else none
  modules := [a]
  findType _ := none
  patches := none

/-- A type of the game by its name. -/
def TypeSig.ofName (name : String) : TypeSig :=
  .reference (.reference (.topLevel (some ⟨1⟩) "Game" name))

/-- A process with the module of a game. -/
def HostView.game : HostView := .ofModule { id := ⟨1⟩, name := "Game" }

end HookImage
