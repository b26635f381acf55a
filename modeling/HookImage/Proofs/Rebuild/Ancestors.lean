/-
# A call for a container adds all that it needs or nothing

A call asks for the container around first and adds its own only when that is there
(`Placement.Gives`).  Everything that can fail comes before the first container is added: a type
that is not there, a definition or a type around that is not there, and too many levels.  So a call
that fails leaves image and placement as they were, at whatever level it fails.  On the way back
each call adds one container in the one that was given to it, so what was added are the container
that is given in the end and those around it (`Placement.Gives.completes`).

Nothing is assumed about the process, which may not know types, let them lie in each other in a
circle, or answer with types of other numbers.  Nor is anything assumed about placement and image:
a container may name one around it that is not there, and it is then a root that still names it.
-/

import HookImage.Proofs.Rebuild.Forest
import Mathlib

namespace HookImage

/-- A container without what lies in it. -/
def Container.childless (c : Container) : Container := { c with children := [] }

namespace Image

/-- Whether a container names another one as the one around it. -/
def Encloses (image : Image) (outer inner : ContainerId) : Prop :=
  image.parents[inner]? = some (some outer)

/-- A container that is added may be one more root; only containers and roots change. -/
theorem addContainer_rest (image : Image) (c : Container) :
    image.roots <+: (image.addContainer c).2.roots ∧
      (image.addContainer c).2.name = image.name ∧
      (image.addContainer c).2.symbols = image.symbols ∧
      (image.addContainer c).2.provenance = image.provenance := by
  unfold addContainer
  dsimp only
  split
  · split
    · exact ⟨List.prefix_rfl, rfl, rfl, rfl⟩
    · exact ⟨List.prefix_append _ _, rfl, rfl, rfl⟩
  · exact ⟨List.prefix_append _ _, rfl, rfl, rfl⟩

/-- A new container leaves the others where they lie. -/
theorem Encloses.addContainer {image : Image} {outer inner : ContainerId}
    (h : image.Encloses outer inner) (c : Container) :
    (image.addContainer c).2.Encloses outer inner := by
  rw [Encloses, parents_addContainer, List.getElem?_append_left (List.getElem?_eq_some_iff.1 h).1]
  exact h

end Image

namespace Placement

variable {view : HostView} {p p₁ : Placement} {image image₁ : Image} {id : TypeId}

/-- Whether a placement and an image continue others: containers stay as they are but for what lies
in them, and the placement leads to what it led to, or to a container behind those for the type
that it stands for. -/
structure Continues (p : Placement) (image : Image) (p' : Placement) (image' : Image) : Prop where
  kept : image.containers.map Container.childless <+: image'.containers.map Container.childless
  found : ∀ (t : TypeId) (i : ContainerId), p'.cache[t]? = some i →
    p.cache[t]? = some i ∨ image.containers.length ≤ i ∧ image'.originals[i]? = some t
  rootNamespace : p'.rootNamespace = p.rootNamespace
  roots : image.roots <+: image'.roots
  rest : image'.name = image.name ∧ image'.symbols = image.symbols ∧
    image'.provenance = image.provenance

/-- Nothing continues an image. -/
theorem Continues.refl (p : Placement) (image : Image) : Continues p image p image :=
  ⟨List.prefix_rfl, fun _ _ => .inl, rfl, List.prefix_rfl, rfl, rfl, rfl⟩

/-- A continuation has no fewer containers. -/
theorem Continues.length_le (h : Continues p image p₁ image₁) :
    image.containers.length ≤ image₁.containers.length := by
  have kept := h.kept.length_le
  rwa [List.length_map, List.length_map] at kept

/-- A created container continues what it is added to. -/
theorem Continues.create (h : Continues p image p₁ image₁) (t : TypeInfo) (nspace : String)
    (parent : Option ContainerId) :
    Continues p image (p₁.create image₁ t nspace parent).2.1
      (p₁.create image₁ t nspace parent).2.2 := by
  obtain ⟨d, -, -, -, -, created⟩ := exists_create p₁ image₁ t nspace parent
  have originals := image₁.originals_addContainer d
  obtain ⟨roots, name, symbols, provenance⟩ := image₁.addContainer_rest d
  rw [created]
  constructor
  · rw [image₁.map_addContainer d Container.childless fun _ _ => rfl]
    exact h.kept.trans (List.prefix_append _ _)
  · intro u i cached
    rw [Std.HashMap.getElem?_insert] at cached
    rw [originals, getElem?_concat_eq_some, Image.length_originals]
    split at cached
    · rename_i same
      cases cached
      exact .inr ⟨h.length_le, .inr ⟨rfl, eq_of_beq same⟩⟩
    · exact (h.found u i cached).imp id fun ⟨behind, stands⟩ => ⟨behind, .inl stands⟩
  · exact h.rootNamespace
  · exact h.roots.trans roots
  · exact ⟨name.trans h.rest.1, symbols.trans h.rest.2.1, provenance.trans h.rest.2.2⟩

/-- What is behind the containers of an image lies around a created one, or is it, if it lies
around the one in which this is created. -/
theorem encloses_create {n : Nat} (t : TypeInfo) (nspace : String) {parent : Option ContainerId}
    (around : ∀ i, n ≤ i → i < image₁.containers.length →
      ∃ q, parent = some q ∧ Relation.ReflTransGen image₁.Encloses i q) :
    ∀ i, n ≤ i → i < (p₁.create image₁ t nspace parent).2.2.containers.length →
      Relation.ReflTransGen (p₁.create image₁ t nspace parent).2.2.Encloses i
        (p₁.create image₁ t nspace parent).1 := by
  obtain ⟨d, -, inside, -, -, created⟩ := exists_create p₁ image₁ t nspace parent
  rw [created, Image.length_addContainer]
  intro i behind bound
  rcases Nat.lt_succ_iff_lt_or_eq.1 bound with old | rfl
  · obtain ⟨q, rfl, lies⟩ := around i behind old
    have last : (image₁.addContainer d).2.Encloses q image₁.containers.length := by
      rw [Image.Encloses, Image.parents_addContainer, inside, getElem?_concat_eq_some]
      exact .inr ⟨by simp, rfl⟩
    have kept : image₁.Encloses ≤ (image₁.addContainer d).2.Encloses :=
      fun _ _ h => h.addContainer d
    exact (Relation.ReflTransGen.mono kept i q lies).tail last
  · exact .refl

/-- Whether what a call leaves is complete: the type or its definition has the container that is
given, and what was added is this container or lies around it. -/
structure Completes (view : HostView) (p : Placement) (image : Image) (id : TypeId)
    (s : ContainerId × Placement × Image) : Prop where
  continues : Continues p image s.2.1 s.2.2
  given : ∃ t, collapse view id = .ok t ∧ s.2.1.cache[t.id]? = some s.1
  around : ∀ i, image.containers.length ≤ i → i < s.2.2.containers.length →
    Relation.ReflTransGen s.2.2.Encloses i s.1

/-- A placement knows the container that it created. -/
theorem cache_create (p : Placement) (image : Image) (t : TypeInfo) (nspace : String)
    (parent : Option ContainerId) : (p.create image t nspace parent).2.1.cache[t.id]? =
      some (p.create image t nspace parent).1 := by
  obtain ⟨d, stands, -, -, -, created⟩ := exists_create p image t nspace parent
  rw [created, stands]
  exact Std.HashMap.getElem?_insert_self

/-- **A call that succeeds adds the container that it gives and containers around it.** -/
theorem Gives.completes {depth : Nat} {s : ContainerId × Placement × Image}
    (h : Gives view p image depth id s) : Completes view p image id s := by
  induction h with
  | @found _ _ t c type cached =>
    refine ⟨.refl p image, ⟨t, type, cached⟩, fun i behind bound => ?_⟩
    exact absurd bound (Nat.not_lt.2 behind)
  | @root _ _ t type =>
    refine ⟨(Continues.refl p image).create t _ none, ⟨t, type, cache_create ..⟩, ?_⟩
    exact encloses_create t _ fun i behind bound => absurd bound (Nat.not_lt.2 behind)
  | @within _ _ _ t s type _ _ _ ih =>
    refine ⟨ih.continues.create t "" (some s.1), ⟨t, type, cache_create ..⟩, ?_⟩
    exact encloses_create t "" fun i behind bound => ⟨s.1, rfl, ih.around i behind bound⟩

/-- Whether an error is one that a call may give: there were too many levels, or a type is not
there. -/
def IsRefusal (view : HostView) (e : Error) : Prop :=
  e = .recursionLimit nestingLimit ∨ ∃ missing, e = .typeNotFound missing ∧ view.type missing = none

/-- A type that does not collapse is refused for a reason that the view gives. -/
theorem isRefusal_of_collapse {e : Error} (h : collapse view id = .error e) :
    IsRefusal view e := by
  unfold collapse at h
  split at h
  · rename_i missing
    cases h
    exact .inr ⟨id, rfl, missing⟩
  · split at h
    · cases h
    · split at h
      · cases h
      · rename_i missing
        cases h
        exact .inr ⟨_, rfl, missing⟩

/-- **A call that fails is refused for a reason that the view gives.** -/
theorem isRefusal_of_error {depth : Nat} {e : Error} {s : Placement × Image}
    (run : containerWithin view p image id depth = (.error e, s)) : IsRefusal view e := by
  induction depth generalizing id s with
  | zero =>
    cases run
    exact .inl rfl
  | succ depth ih =>
    rw [containerWithin] at run
    split at run
    · rename_i missing
      cases run
      exact isRefusal_of_collapse missing
    · split at run
      · cases run
      · split at run
        · cases run
        · split at run
          · rename_i failed
            cases run
            exact ih failed
          · cases run

/-- **A call adds all that it needs or nothing.**  For any process, placement, image and type, a
call gives a container and what it leaves is complete, or it is refused and leaves placement and
image exactly as they were. -/
theorem container_completes_or_refused (view : HostView) (p : Placement) (image : Image)
    (id : TypeId) :
    (∃ s, p.container view image id = (.ok s.1, s.2) ∧ Completes view p image id s) ∨
      ∃ e, p.container view image id = (.error e, p, image) ∧ IsRefusal view e := by
  rcases run : p.container view image id with ⟨e | c, p', image'⟩
  · obtain ⟨rfl, rfl⟩ := eq_of_error run
    exact .inr ⟨e, rfl, isRefusal_of_error run⟩
  · have gives := (containerWithin_eq_ok (s := (c, p', image'))).1 run
    exact .inl ⟨(c, p', image'), rfl, gives.completes⟩

end Placement
end HookImage
