/-
# Who is made the owner

The frames of a call stack run outwards, so the outermost entry frame is the last one of the list,
and what lies outside of it is the rest of the list (`outside?_eq_some_iff`).  Only that rest is
searched.  So the owner is the module of the first frame behind the outermost entry frame that has
a module that may be an owner, and what lies inside of an entry frame never matters
(`owner?_attributes`).
-/

import Mathlib
import HookImage.Host.Owner
import HookImage.Proofs.Text.AsciiCase

namespace HookImage
namespace OwnerPolicy

variable {policy : OwnerPolicy} {frames outer : List CallFrame}

/-- Whether the framework is entered through the method of a frame. -/
def Enters (policy : OwnerPolicy) (f : CallFrame) : Prop :=
  ∃ type, f.declaringType = some type ∧
    ∃ entry ∈ policy.entryTypes, Text.SameLetters entry type

/-- Whether a module of a name never is an owner: it is a helper of the framework, or its name
begins like those of generated proxies. -/
def Reserves (policy : OwnerPolicy) (name : String) : Prop :=
  (∃ reserved ∈ policy.reservedModules, Text.SameLetters reserved name) ∨
    policy.proxyHead ≠ "" ∧
      ∃ front rest, name = front ++ rest ∧ Text.SameLetters front policy.proxyHead

/-- The test for the frame of an entry decides `Enters`. -/
theorem isEntryFrame_iff {f : CallFrame} : policy.isEntryFrame f ↔ policy.Enters f := by
  simp only [isEntryFrame, isEntryType, Option.any_eq_true, List.any_eq_true, Text.sameName_iff,
    Enters]

/-- The test for a reserved module decides `Reserves`. -/
theorem isReservedModule_iff {name : String} :
    policy.isReservedModule name ↔ policy.Reserves name := by
  simp only [isReservedModule, Bool.or_eq_true, List.any_eq_true, Text.sameName_iff,
    Bool.and_eq_true, Bool.not_eq_true', String.isEmpty_eq_false_iff, Text.beginsWith_iff, Reserves]

/-! ### The outermost entry frame -/

/-- There is nothing outside of the entry exactly if no frame is one. -/
theorem outside?_eq_none_iff : policy.outside? frames = none ↔ ∀ f ∈ frames, ¬policy.Enters f := by
  induction frames with
  | nil => simp [outside?]
  | cons f fs ih =>
    rw [outside?, Option.or_eq_none_iff, ih, List.forall_mem_cons, ← isEntryFrame_iff, and_comm]
    simp

/-- What lies outside of the outermost entry frame is what stands behind the last one. -/
theorem outside?_eq_some_iff : policy.outside? frames = some outer ↔
    ∃ inner entry, frames = inner ++ entry :: outer ∧ policy.Enters entry ∧
      ∀ f ∈ outer, ¬policy.Enters f := by
  induction frames with
  | nil => simp [outside?]
  | cons f fs ih =>
    rw [outside?, Option.or_eq_some_iff, ih]
    constructor
    · rintro (⟨inner, entry, rfl, enters, last⟩ | ⟨none, here⟩)
      · exact ⟨f :: inner, entry, rfl, enters, last⟩
      · obtain ⟨enters, same⟩ := Option.ite_none_right_eq_some.1 here
        cases same
        exact ⟨[], f, rfl, isEntryFrame_iff.1 enters, outside?_eq_none_iff.1 none⟩
    · rintro ⟨_ | ⟨_, inner⟩, entry, same, enters, last⟩
      · obtain ⟨rfl, rfl⟩ := List.cons.inj same
        exact .inr ⟨outside?_eq_none_iff.2 last, if_pos (isEntryFrame_iff.2 enters)⟩
      · obtain ⟨rfl, rfl⟩ := List.cons.inj same
        exact .inl ⟨inner, entry, rfl, enters, last⟩

/-- What lies inside of an entry frame does not matter. -/
theorem outside?_append_cons (inner : List CallFrame) {entry : CallFrame}
    (enters : policy.Enters entry) :
    policy.outside? (inner ++ entry :: outer) = policy.outside? (entry :: outer) := by
  have entered : policy.outside? (entry :: outer) ≠ none := fun none =>
    outside?_eq_none_iff.1 none entry List.mem_cons_self enters
  obtain ⟨rest, found⟩ := Option.ne_none_iff_exists'.1 entered
  induction inner with
  | nil => rfl
  | cons f inner ih => rw [List.cons_append, outside?, ih, found, Option.some_or]

/-! ### The first module that may be an owner -/

/-- The first module with a property is that of the first frame that has such a module. -/
theorem find?_modules_eq_some_iff {p : ModuleInfo → Bool} {a : ModuleInfo} :
    (frames.filterMap (·.module)).find? p = some a ↔
      ∃ skipped f beyond, frames = skipped ++ f :: beyond ∧ f.module = some a ∧ p a ∧
        ∀ g ∈ skipped, ∀ b, g.module = some b → ¬p b := by
  rw [List.find?_filterMap, Option.bind_eq_some_iff]
  simp only [List.find?_eq_some_iff_append, Option.any_eq_true, Bool.not_eq_true',
    Option.any_eq_false, Bool.not_eq_true]
  constructor
  · rintro ⟨f, ⟨⟨b, named, accepted⟩, skipped, beyond, rfl, refused⟩, own⟩
    cases named.symm.trans own
    exact ⟨skipped, f, beyond, rfl, own, accepted, refused⟩
  · rintro ⟨skipped, f, beyond, rfl, own, accepted, refused⟩
    exact ⟨f, ⟨⟨a, own, accepted⟩, skipped, beyond, rfl, refused⟩, own⟩

/-- **The owner is the module of the first frame outside of the outermost entry frame that may be
one.**  Whatever lies inside of an entry frame, of the outermost one in particular, does not
matter. -/
theorem owner?_attributes (policy : OwnerPolicy) :
    (∀ frames a, policy.owner? frames = some a ↔
      ∃ inner entry skipped f beyond, frames = inner ++ entry :: (skipped ++ f :: beyond) ∧
        policy.Enters entry ∧ (∀ g ∈ skipped ++ f :: beyond, ¬policy.Enters g) ∧
        f.module = some a ∧ ¬policy.Reserves a.name ∧
        ∀ g ∈ skipped, ∀ b, g.module = some b → policy.Reserves b.name) ∧
    ∀ inner inner' entry outer, policy.Enters entry →
      policy.owner? (inner ++ entry :: outer) = policy.owner? (inner' ++ entry :: outer) := by
  constructor
  · intro frames a
    simp only [owner?, Option.bind_eq_bind, Option.bind_eq_some_iff, outside?_eq_some_iff,
      find?_modules_eq_some_iff, Bool.not_eq_true', ← Bool.not_eq_true, isReservedModule_iff,
      not_not]
    constructor
    · rintro ⟨outer, ⟨inner, entry, rfl, enters, last⟩, skipped, f, beyond, rfl, own, free, passed⟩
      exact ⟨inner, entry, skipped, f, beyond, rfl, enters, last, own, free, passed⟩
    · rintro ⟨inner, entry, skipped, f, beyond, rfl, enters, last, own, free, passed⟩
      exact ⟨_, ⟨inner, entry, rfl, enters, last⟩, skipped, f, beyond, rfl, own, free, passed⟩
  · intro inner inner' entry outer enters
    rw [owner?, owner?, outside?_append_cons inner enters, outside?_append_cons inner' enters]

/-! ### A stack with proxies -/

/-- A framework that is entered through one type, with a helper and with proxies. -/
def detourPolicy : OwnerPolicy where
  entryTypes := ["Rt.Detour"]
  reservedModules := ["Rt.Gen"]
  proxyHead := "ON_"

/-- The frame of an entry type, in other letters. -/
def detourFrame : CallFrame := { declaringType := some "rt.DETOUR" }

/-- A module whose name has a letter of two bytes where those of proxies have their underscore. -/
def cutModule : ModuleInfo := { id := ⟨8⟩, name := "ONé" }

/-- Frames outside of an entry frame: one without type and module, one of the helper, one of a
proxy, and one of the module. -/
def hookedFrames : List CallFrame := [
  {},
  { declaringType := some "Rt.Manager", module := some { id := ⟨6⟩, name := "RT.Gen" } },
  { declaringType := some "On.Player", module := some { id := ⟨7⟩, name := "on_Game" } },
  { declaringType := some "Mod.Plugin", module := some cutModule }]

/-- The hypothesis is satisfiable: whatever the stack is inside of the entry frame, the module with
the letter of two bytes is the owner. -/
theorem owner?_attributes_hooked : detourPolicy.Enters detourFrame ∧
    ∀ inner, detourPolicy.owner? (inner ++ detourFrame :: hookedFrames) = some cutModule := by
  have enters : detourPolicy.Enters detourFrame := isEntryFrame_iff.1 (by cbv)
  have outside : hookedFrames.all fun f => !detourPolicy.isEntryFrame f := by cbv
  have helper : detourPolicy.isReservedModule "RT.Gen" := by cbv
  have proxy : detourPolicy.isReservedModule "on_Game" := by cbv
  have free : detourPolicy.isReservedModule cutModule.name = false := by cbv
  refine ⟨enters, fun inner => ?_⟩
  rw [(owner?_attributes detourPolicy).2 inner [] detourFrame hookedFrames enters]
  refine ((owner?_attributes detourPolicy).1 _ _).2
    ⟨[], detourFrame, hookedFrames.take 3, _, [], rfl, enters, fun g hg => ?_, rfl, ?_, ?_⟩
  · have entered := List.all_eq_true.1 outside g hg
    rwa [Bool.not_eq_true', ← Bool.not_eq_true, isEntryFrame_iff] at entered
  · rwa [← Bool.not_eq_true, isReservedModule_iff] at free
  · show ∀ g ∈ [_, _, _], _
    simp only [List.forall_mem_cons, List.not_mem_nil, false_imp_iff, implies_true, and_true]
    refine ⟨fun b own => ?_, fun b own => ?_, fun b own => ?_⟩
    · cases own
    · cases own
      exact isReservedModule_iff.1 helper
    · cases own
      exact isReservedModule_iff.1 proxy

end OwnerPolicy
end HookImage
