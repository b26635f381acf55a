/-
# What containers are called

A container for a type has the name of the type without the number of its parameters, and the
namespace of the type behind the root one if the type lies in no other.  Two types may come to the
same name in this way.  So containers of one name may lie in one place, but they stand for different
types, and it is exactly the types that tell when (`Placement.Housed.homonyms_iff`).

Methods change nothing of this: it is all in the containers without them (`Image.outline`).
-/

import HookImage.Proofs.Rebuild.Forest

namespace HookImage

/-! ### Containers without their methods -/

/-- A container without its methods. -/
def Container.bare (c : Container) : Container := { c with methods := [] }

/-- Bare containers are told by all but their methods. -/
theorem Container.bare_inj {c d : Container} : c.bare = d.bare ↔
    c.nspace = d.nspace ∧ c.name = d.name ∧ c.parent = d.parent ∧ c.standsFor = d.standsFor ∧
      c.children = d.children := by
  rw [bare, bare, Container.mk.injEq]
  simp

namespace Image

variable {image image' : Image}

/-- The containers of an image without their methods. -/
def outline (image : Image) : List Container := image.containers.map Container.bare

/-- Data that do not depend on methods are those of the outline. -/
theorem map_outline {α : Type} (image : Image) {f : Container → α}
    (blind : ∀ c, f (Container.bare c) = f c) : image.outline.map f = image.containers.map f := by
  rw [outline, List.map_map]
  exact congrArg (List.map · _) (funext blind)

/-- Under the same outline containers stand for the same types. -/
theorem originals_congr (same : image'.outline = image.outline) :
    image'.originals = image.originals := by
  rw [originals, ← map_outline image' fun _ => rfl, same]
  exact map_outline image fun _ => rfl

/-- Under the same outline containers lie where they lay. -/
theorem parents_congr (same : image'.outline = image.outline) : image'.parents = image.parents := by
  rw [parents, ← map_outline image' fun _ => rfl, same]
  exact map_outline image fun _ => rfl

/-- Under the same outline there are as many containers. -/
theorem length_congr (same : image'.outline = image.outline) :
    image'.containers.length = image.containers.length := by
  rw [← length_originals, originals_congr same, length_originals]

/-- Under the same outline, every container has one that differs in its methods only. -/
theorem exists_of_outline (same : image'.outline = image.outline) {id : ContainerId} {c' : Container}
    (here : image'.containers[id]? = some c') :
    ∃ c, image.containers[id]? = some c ∧ c.bare = c'.bare := by
  have there : image.outline[id]? = some c'.bare := by
    rw [← same, outline, List.getElem?_map, here]
    rfl
  rw [outline, List.getElem?_map] at there
  exact Option.map_eq_some_iff.1 there

/-- Under the same outline every container has one that differs in its methods only. -/
theorem exists_mem_of_outline (same : image'.outline = image.outline) {c' : Container}
    (h : c' ∈ image'.containers) : ∃ c ∈ image.containers, c.bare = c'.bare := by
  obtain ⟨id, here⟩ := List.mem_iff_getElem?.1 h
  obtain ⟨c, there, bare⟩ := exists_of_outline same here
  exact ⟨c, List.mem_of_getElem? there, bare⟩

/-- Under the same outline the same containers lie in a given one. -/
theorem lyingIn_congr (same : image'.outline = image.outline) (parent : Option ContainerId) :
    image'.lyingIn parent = image.lyingIn parent := by
  rw [lyingIn, lyingIn, length_congr same, parents_congr same]

end Image

namespace Placement

variable {view : HostView} {p p' : Placement} {image image' : Image} {id : TypeId}
  {c : ContainerId}

/-- A forest stays one under the same outline. -/
theorem Forest.of_outline (h : Forest p image) (same : image'.outline = image.outline)
    (roots : image'.roots = image.roots) : Forest p image' where
  outer := Image.parents_congr same ▸ h.outer
  children id c' here := by
    obtain ⟨c, there, bare⟩ := Image.exists_of_outline same here
    obtain ⟨-, -, -, -, children⟩ := Container.bare_inj.1 bare
    rw [Image.lyingIn_congr same, ← h.children id c there, children]
  roots := by rw [roots, Image.lyingIn_congr same, h.roots]
  distinct := Image.originals_congr same ▸ h.distinct
  found := Image.originals_congr same ▸ h.found

/-- Containers mirror their types under the same outline. -/
theorem Mirrors.of_outline (h : Mirrors view p image) (same : image'.outline = image.outline) :
    Mirrors view p image' := by
  intro c' hc'
  obtain ⟨c, hc, bare⟩ := Image.exists_mem_of_outline same hc'
  obtain ⟨-, -, parent, stands, -⟩ := Container.bare_inj.1 bare
  rw [← stands, ← parent]
  exact h c hc

/-! ### Names -/

/-- The namespace and the name of a container for a type. -/
def label (p : Placement) (t : TypeInfo) : String × String :=
  (if t.enclosing = none then p.namespaceFor t.nspace else "", stripArity t.name)

/-- Whether containers are called after their types. -/
def Named (view : HostView) (p : Placement) (image : Image) : Prop :=
  ∀ c ∈ image.containers, ∃ t, view.type c.standsFor = some t ∧ (c.nspace, c.name) = p.label t

/-- Containers are named by their types under the same outline. -/
theorem Named.of_outline (h : Named view p image) (same : image'.outline = image.outline) :
    Named view p image' := by
  intro c' hc'
  obtain ⟨c, hc, bare⟩ := Image.exists_mem_of_outline same hc'
  obtain ⟨nspace, name, -, stands, -⟩ := Container.bare_inj.1 bare
  rw [← stands, ← nspace, ← name]
  exact h c hc

/-- A created container is called after its type. -/
theorem named_create (named : Named view p image) {t : TypeInfo} (type : view.type t.id = some t)
    {nspace : String} (label : p.label t = (nspace, stripArity t.name))
    (parent : Option ContainerId) :
    Named view (p.create image t nspace parent).2.1 (p.create image t nspace parent).2.2 := by
  intro c hc
  have labels := image.map_addContainer
    { nspace, name := stripArity t.name, parent, standsFor := t.id }
    (fun c => (c.standsFor, c.nspace, c.name)) fun _ _ => rfl
  have mem := List.mem_map_of_mem (f := fun c : Container => (c.standsFor, c.nspace, c.name)) hc
  rw [create] at mem
  dsimp only at mem
  rw [labels, List.mem_append, List.mem_singleton] at mem
  rcases mem with old | new
  · obtain ⟨d, hd, same⟩ := List.mem_map.1 old
    obtain ⟨stands, called⟩ := Prod.mk.inj same
    rw [← stands, ← called]
    exact named d hd
  · obtain ⟨stands, called⟩ := Prod.mk.inj new
    rw [stands, called]
    exact ⟨t, type, label.symm⟩

/-- **A call that succeeds leaves containers called after their types.** -/
theorem Gives.named (own : OwnNumbers view) (named : Named view p image) {depth : Nat}
    {s : ContainerId × Placement × Image} (h : Gives view p image depth id s) :
    Named view s.2.1 s.2.2 := by
  induction h with
  | found => exact named
  | @root _ _ t type new alone =>
    have labelled : p.label t = (p.namespaceFor t.nspace, stripArity t.name) := by
      rw [label, if_pos alone]
    exact named_create named (type_of_collapse own type) labelled none
  | @within _ _ outer t s type new enclosing _ ih =>
    have labelled : s.2.1.label t = ("", stripArity t.name) := by
      rw [label, enclosing, if_neg (Option.some_ne_none outer)]
    exact named_create ih (type_of_collapse own type) labelled (some s.1)

/-- Whether an image has one container for each of some types, which lie as the types do and are
called after them. -/
structure Housed (view : HostView) (p : Placement) (image : Image) : Prop where
  forest : Forest p image
  mirrors : Mirrors view p image
  named : Named view p image

/-- A new placement is right about no containers. -/
theorem housed_empty {image : Image} (empty : image.containers = []) (rootless : image.roots = [])
    (rootNamespace : String) : Housed view { rootNamespace } image where
  forest := forest_empty empty rootless rootNamespace
  mirrors c hc := by
    rw [empty] at hc
    cases hc
  named c hc := by
    rw [empty] at hc
    cases hc

/-- A placement stays right about its containers under the same outline. -/
theorem Housed.of_outline (h : Housed view p image) (same : image'.outline = image.outline)
    (roots : image'.roots = image.roots) : Housed view p image' :=
  ⟨h.forest.of_outline same roots, h.mirrors.of_outline same, h.named.of_outline same⟩

/-- A call that succeeds leaves the placement right about its containers. -/
theorem Housed.container (h : Housed view p image) (own : OwnNumbers view)
    (run : p.container view image id = (.ok c, p', image')) : Housed view p' image' :=
  have gives := (containerWithin_eq_ok (s := (c, p', image'))).1 run
  have placed := gives.placed own h.forest h.mirrors
  ⟨placed.forest, placed.mirrors, gives.named own h.named⟩

/-- Where the container of a type lies, and what it is called. -/
theorem Housed.of_mem (h : Housed view p image) {c : Container} (hc : c ∈ image.containers)
    {t : TypeInfo} (type : view.type c.standsFor = some t) :
    LiesIn view p t c.parent ∧ (c.nspace, c.name) = p.label t := by
  obtain ⟨u, known, lies⟩ := h.mirrors c hc
  obtain ⟨v, known', called⟩ := h.named c hc
  cases type.symm.trans known
  cases type.symm.trans known'
  exact ⟨lies, called⟩

/-! ### Types of one name -/

/-- Whether two types have one name in one place, up to the numbers of their parameters: they lie in
the same type, or in none and in the same namespace. -/
def Homonyms (view : HostView) (t u : TypeInfo) : Prop :=
  stripArity t.name = stripArity u.name ∧
    (t.enclosing = none ∧ u.enclosing = none ∧ t.nspace = u.nspace ∨
      ∃ outer outer' around, t.enclosing = some outer ∧ u.enclosing = some outer' ∧
        collapse view outer = .ok around ∧ collapse view outer' = .ok around)

/-- Namespaces that differ go to namespaces that differ. -/
theorem namespaceFor_inj {nspace nspace' : String} :
    p.namespaceFor nspace = p.namespaceFor nspace' ↔ nspace = nspace' := by
  have longer (ns : String) : p.rootNamespace ≠ s!"{p.rootNamespace}.{ns}" := by
    intro same
    have lengths := congrArg String.length same
    simp only [toString, String.length_append] at lengths
    have dot : ".".length = 1 := by decide
    omega
  refine ⟨fun same => ?_, congrArg _⟩
  unfold namespaceFor at same
  split at same <;> split at same
  · rename_i h h'
    rw [String.isEmpty_iff.1 h, String.isEmpty_iff.1 h']
  · exact absurd same (longer _)
  · exact absurd same.symm (longer _)
  · simpa [toString, String.append_assoc] using same

/-- Two types have one container exactly if they come to one type. -/
theorem Forest.cached_inj (h : Forest p image) (own : OwnNumbers view) {outer outer' : TypeId}
    {t u : TypeInfo} (collapsed : collapse view outer = .ok t)
    (collapsed' : collapse view outer' = .ok u) {q q' : ContainerId}
    (cached : p.cache[t.id]? = some q) (cached' : p.cache[u.id]? = some q') : q = q' ↔ t = u := by
  constructor
  · rintro rfl
    have stands := (h.found _ _).1 cached
    have ids := Option.some.inj (stands.symm.trans ((h.found _ _).1 cached'))
    have known := type_of_collapse own collapsed
    rw [ids, type_of_collapse own collapsed'] at known
    exact (Option.some.inj known).symm
  · rintro rfl
    exact Option.some.inj (cached.symm.trans cached')

/-- **Containers have one name in one place exactly if their types do.** -/
theorem Housed.homonyms_iff (h : Housed view p image) (own : OwnNumbers view) {c d : Container}
    (hc : c ∈ image.containers) (hd : d ∈ image.containers) {t u : TypeInfo}
    (type : view.type c.standsFor = some t) (type' : view.type d.standsFor = some u) :
    (c.parent = d.parent ∧ c.nspace = d.nspace ∧ c.name = d.name) ↔ Homonyms view t u := by
  obtain ⟨lies, called⟩ := h.of_mem hc type
  obtain ⟨lies', called'⟩ := h.of_mem hd type'
  obtain ⟨nspace, name⟩ := Prod.mk.inj called
  obtain ⟨nspace', name'⟩ := Prod.mk.inj called'
  rw [name, name', nspace, nspace', Homonyms]
  generalize c.parent = q at lies
  generalize d.parent = q' at lies'
  cases lies with
  | root alone =>
    cases lies' with
    | root alone' => simp [alone, alone', namespaceFor_inj, and_comm]
    | within enclosing' _ _ => simp [alone, enclosing']
  | within enclosing collapsed cached =>
    cases lies' with
    | root alone' => simp [enclosing, alone']
    | within enclosing' collapsed' cached' =>
      rw [Option.some.injEq, h.forest.cached_inj own collapsed collapsed' cached cached', enclosing,
        enclosing', if_neg (Option.some_ne_none _), if_neg (Option.some_ne_none _)]
      constructor
      · rintro ⟨rfl, -, named⟩
        exact ⟨named, .inr ⟨_, _, _, rfl, rfl, collapsed, collapsed'⟩⟩
      · rintro ⟨named, ⟨impossible, -⟩ | ⟨_, _, _, ⟨⟩, ⟨⟩, within, within'⟩⟩
        · cases impossible
        · cases collapsed.symm.trans within
          cases collapsed'.symm.trans within'
          exact ⟨rfl, rfl, named⟩

end Placement
end HookImage
