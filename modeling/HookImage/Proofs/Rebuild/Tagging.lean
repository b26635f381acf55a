/-
# Tags in the order of categories

A patch that is added to a breakdown goes behind those of its category and of the categories before
it, so a breakdown is always in stable order (`PatchInfo.stableOrder_ofList`).  An interception of
the patch engine that the engine has a breakdown for (`Provenance.BrokenDown`) has one tag for each
patch of it, in this order, and any other one has a single tag (`Provenance.tags_ordered`).
-/

import Mathlib
import HookImage.Proofs.StableOrder
import HookImage.Proofs.Text.AsciiCase
import HookImage.Rebuild.Provenance

namespace HookImage

/-! ### Breakdowns -/

/-- Categories are told by their ranks. -/
theorem PatchCategory.rank_inj {c d : PatchCategory} : c.rank = d.rank ↔ c = d := by
  cases c <;> cases d <;> decide

namespace PatchInfo

variable {added : List Patch} {info : PatchInfo}

/-- One more patch keeps a breakdown in order. -/
theorem stableOrder_add (h : StableOrder (·.category.rank) added info.patches) (p : Patch) :
    StableOrder (·.category.rank) (added ++ [p]) (info.add p).patches :=
  h.insert p

/-- **A breakdown is in stable order**, whatever patches are added to it. -/
theorem stableOrder_ofList (added : List Patch) :
    StableOrder (·.category.rank) added (ofList added).patches := by
  induction added using List.reverseRecOn with
  | nil => exact .nil
  | append_singleton added p ih =>
    have last : ofList (added ++ [p]) = (ofList added).add p := by
      rw [ofList, List.foldl_append]
      rfl
    rw [last]
    exact stableOrder_add ih p

/-- **A breakdown has the patches of one category after those of another.** -/
theorem patches_ofList (added : List Patch) :
    (ofList added).patches = [.before, .after, .transpiler, .finalizer, .manipulator].flatMap
      fun c : PatchCategory => added.filter (·.category = c) := by
  have ranks : ([.before, .after, .transpiler, .finalizer, .manipulator].map
      PatchCategory.rank).Pairwise (· < ·) := by decide
  have parts := (stableOrder_ofList added).eq_flatMap ranks fun p _ =>
    List.mem_map_of_mem (by cases p.category <;> decide)
  simpa only [List.flatMap_map, PatchCategory.rank_inj] using parts

end PatchInfo

/-! ### Tags -/

namespace Provenance

variable {view : HostView} {r : Interception} {target : MethodId} {engine : Option String}
  {info : PatchInfo}

/-- Whether an interception is one of the patch engine: its owner is a loaded module that has the
name of the engine but for the case of letters. -/
def OfEngine (view : HostView) (r : Interception) (engine : Option String) : Prop :=
  ∃ id a name, r.owner = some id ∧ view.module id = some a ∧ engine = some name ∧
    Text.SameLetters a.name name

/-- Whether an interception is one of the patch engine, which has a breakdown of the target with a
patch in it. -/
structure BrokenDown (view : HostView) (r : Interception) (target : MethodId)
    (engine : Option String) (info : PatchInfo) : Prop where
  owned : OfEngine view r engine
  reported : ∃ reports, view.patches = some reports ∧ reports target = some info
  patched : info.patches ≠ []

/-- The test for an engine decides `OfEngine`. -/
theorem isEngine_iff : isEngine view r.owner engine ↔ OfEngine view r engine := by
  unfold isEngine OfEngine
  split
  · rename_i a name known
    obtain ⟨id, own, loaded⟩ := Option.bind_eq_some_iff.1 known
    rw [Text.sameName_iff]
    constructor
    · intro same
      exact ⟨id, a, name, own, loaded, rfl, same⟩
    · rintro ⟨id', a', name', own', loaded', same, letters⟩
      cases own.symm.trans own'
      cases loaded.symm.trans loaded'
      cases same
      exact letters
  · rename_i unknown
    refine iff_of_false Bool.false_ne_true ?_
    rintro ⟨id, a, name, own, loaded, rfl, -⟩
    exact unknown a name (Option.bind_eq_some_iff.2 ⟨id, own, loaded⟩) rfl

/-- The patches of an interception that is broken down. -/
theorem breakdown_of_brokenDown (h : BrokenDown view r target engine info) :
    breakdown view r target engine = info.patches := by
  obtain ⟨reports, asked, answer⟩ := h.reported
  rw [breakdown, if_pos (isEngine_iff.2 h.owned), asked, Option.bind_some, answer]

/-- An interception that is not broken down has no patches. -/
theorem breakdown_eq_nil (h : ∀ info, ¬BrokenDown view r target engine info) :
    breakdown view r target engine = [] := by
  unfold breakdown
  split
  · rename_i owned
    split
    · rename_i info answer
      by_contra patched
      exact h info ⟨isEngine_iff.1 owned, Option.bind_eq_some_iff.1 answer, patched⟩
    · rfl
  · rfl

/-- **Tags follow the order of categories.**  A breakdown has the patches that were added in the one
order by category that keeps the order of addition within a category: patches before the method,
patches after it, transpilers, finalizers, manipulators.  An interception that is broken down has
one tag for each patch, in the order of the breakdown, and any other one has a single tag of its
mechanism and its owner. -/
theorem tags_ordered :
    (∀ added sorted, StableOrder (·.category.rank) added sorted ↔
      sorted = (PatchInfo.ofList added).patches) ∧
    (∀ added, (PatchInfo.ofList added).patches =
      [.before, .after, .transpiler, .finalizer, .manipulator].flatMap
        fun c : PatchCategory => added.filter (·.category = c)) ∧
    ∀ view r target engine,
      (∀ info, BrokenDown view r target engine info → tags view r target engine =
        info.patches.map fun p => ⟨p.category.label, ownerLabel view p.owner⟩) ∧
      ((∀ info, ¬BrokenDown view r target engine info) →
        tags view r target engine = [⟨r.kind.tag.label, ownerLabel view r.owner⟩]) := by
  refine ⟨fun added sorted => ⟨fun h => h.eq (PatchInfo.stableOrder_ofList added), ?_⟩,
    PatchInfo.patches_ofList, fun view r target engine => ⟨fun info h => ?_, fun h => ?_⟩⟩
  · rintro rfl
    exact PatchInfo.stableOrder_ofList added
  · unfold tags
    split
    · rename_i none
      exact absurd ((breakdown_of_brokenDown h).symm.trans none) h.patched
    · rw [breakdown_of_brokenDown h]
      rfl
  · rw [tags, breakdown_eq_nil h]
    rfl

/-! ### A patch engine -/

/-- A patch engine. -/
def loom : ModuleInfo := { id := ⟨1⟩, name := "Loom", version := { major := 2 } }

/-- A module that patches by way of the engine. -/
def dyer : ModuleInfo := { id := ⟨2⟩, name := "Dyer" }

/-- Patches that were not added in the order of their categories. -/
def threads : List Patch := [
  { category := .finalizer, method := none, owner := some ⟨2⟩ },
  { category := .before, method := none, owner := some ⟨1⟩ },
  { category := .after, method := some ⟨5⟩, owner := none },
  { category := .before, method := none, owner := some ⟨2⟩ }]

/-- A process with the engine, which has a breakdown of one method. -/
def loomView : HostView where
  method _ := none
  body _ := none
  type _ := none
  module id := [loom, dyer].find? (·.id == id)
  modules := [loom, dyer]
  findType _ := none
  patches := some fun target => if target = ⟨10⟩ then some (.ofList threads) else none

/-- An interception of the engine. -/
def woven : Interception where
  handle := ⟨3⟩
  target := some ⟨10⟩
  replacement := none
  kind := .raw none
  owner := some ⟨1⟩

/-- The hypotheses are satisfiable: an interception of the engine has the tags of the patches on the
method that there is a breakdown of, and one of its own on another method. -/
theorem tags_ordered_woven :
    BrokenDown loomView woven ⟨10⟩ (some "LOOM") (.ofList threads) ∧
    tags loomView woven ⟨10⟩ (some "LOOM") =
      [⟨"HarmonyPrefix", "Loom, Version=2.0.0.0, Culture=neutral, PublicKeyToken=null"⟩,
        ⟨"HarmonyPrefix", "Dyer, Version=0.0.0.0, Culture=neutral, PublicKeyToken=null"⟩,
        ⟨"HarmonyPostfix", ""⟩,
        ⟨"HarmonyFinalizer", "Dyer, Version=0.0.0.0, Culture=neutral, PublicKeyToken=null"⟩] ∧
    (∀ info, ¬BrokenDown loomView woven ⟨11⟩ (some "LOOM") info) ∧
    tags loomView woven ⟨11⟩ (some "LOOM") =
      [⟨"Detour", "Loom, Version=2.0.0.0, Culture=neutral, PublicKeyToken=null"⟩] := by
  have named : Text.SameLetters "Loom" "LOOM" := Text.sameName_iff.1 (by cbv)
  have broken : BrokenDown loomView woven ⟨10⟩ (some "LOOM") (.ofList threads) :=
    ⟨⟨⟨1⟩, loom, "LOOM", rfl, by cbv, rfl, named⟩, ⟨_, rfl, by cbv⟩, by decide⟩
  have whole : ∀ info, ¬BrokenDown loomView woven ⟨11⟩ (some "LOOM") info := by
    rintro info ⟨-, ⟨reports, asked, answer⟩, -⟩
    cases asked
    have silent : loomView.patches.bind (· ⟨11⟩) = none := by cbv
    cases silent.symm.trans answer
  refine ⟨broken, ?_, whole, ?_⟩
  · rw [(tags_ordered.2.2 _ _ _ _).1 _ broken]
    cbv
  · rw [(tags_ordered.2.2 _ _ _ _).2 whole]
    cbv

end Provenance
end HookImage
