/-
# Containers form a forest

Containers are added one after the other, each behind the one that it lies in, and a placement
finds them by the types that they stand for (`Placement.Forest`).  A call that fails changes
nothing.  A call that succeeds adds the containers that are missing, the outermost first, so the
container that it gives is an old one or the last (`Placement.Placed`).

The point that needs an argument is that a type has no container yet when its own turn comes,
after those around it.  If the call for the type around it had added one, that container would
lie in the one that the call gives, hence behind it, although nothing lies behind that one
(`Placement.Placed.missing`).  So no type gets a second container, whatever is called in which
order (`Placement.callAll_forest`).
-/

import HookImage.Rebuild.Placement
import Mathlib

namespace HookImage

/-! ### Lists of containers -/

/-- A member of a longer list is one of the shorter list, or the new one at its end. -/
theorem getElem?_concat_eq_some {α : Type} {xs : List α} {x y : α} {i : Nat} :
    (xs ++ [x])[i]? = some y ↔ xs[i]? = some y ∨ i = xs.length ∧ x = y := by
  rcases Nat.lt_trichotomy i xs.length with h | rfl | h
  · simp [List.getElem?_append_left h, Nat.ne_of_lt h]
  · simp
  · rw [List.getElem?_eq_none (by simp; omega), List.getElem?_eq_none (by omega)]
    simp [Nat.ne_of_gt h]

namespace Image

/-- The types that the containers stand for, by their numbers. -/
def originals (image : Image) : List TypeId := image.containers.map (·.standsFor)

/-- Where the containers lie, by their numbers. -/
def parents (image : Image) : List (Option ContainerId) := image.containers.map (·.parent)

/-- The containers that lie in a given one, or in none, in the order of their numbers. -/
def lyingIn (image : Image) (parent : Option ContainerId) : List ContainerId :=
  (List.range image.containers.length).filter fun id => image.parents[id]? = some parent

/-- Every container stands for one type. -/
@[simp] theorem length_originals (image : Image) :
    image.originals.length = image.containers.length :=
  List.length_map ..

/-- Every container lies in one place. -/
@[simp] theorem length_parents (image : Image) :
    image.parents.length = image.containers.length :=
  List.length_map ..

/-- A container lies in another one if it says so. -/
@[simp] theorem mem_lyingIn {image : Image} {parent : Option ContainerId} {id : ContainerId} :
    id ∈ image.lyingIn parent ↔ image.parents[id]? = some parent := by
  rw [lyingIn, List.mem_filter, List.mem_range, decide_eq_true_eq, and_iff_right_iff_imp]
  intro h
  simpa using (List.getElem?_eq_some_iff.1 h).1

/-- The container at a place, with a new last child if this lies in it. -/
def linked (parent : Option ContainerId) (child id : ContainerId) (c : Container) : Container :=
  { c with children := c.children ++ if parent = some id then [child] else [] }

/-- A container that gets no child stays as it is. -/
theorem linked_other {parent : Option ContainerId} {id : ContainerId} (h : parent ≠ some id)
    (child : ContainerId) : linked parent child id = fun c => c := by
  funext c
  simp [linked, h]

/-- An added container is the last one, and the one around it has it as its last child. -/
theorem exists_addContainer {image : Image} {c : Container}
    (before : ∀ q, c.parent = some q → q < image.containers.length) :
    ∃ cs, (∀ id, cs[id]? =
        image.containers[id]?.map (linked c.parent image.containers.length id)) ∧
      image.addContainer c = (image.containers.length, { image with
        containers := cs ++ [c]
        roots := image.roots ++ if c.parent = none then [image.containers.length] else [] }) := by
  unfold addContainer
  rcases hp : c.parent with _ | q
  · refine ⟨image.containers, fun id => ?_, by simp⟩
    rw [linked_other (by simp), Option.map_id_fun']
    rfl
  · have bound := before q hp
    refine ⟨image.containers.modify q
      fun p => { p with children := p.children ++ [image.containers.length] }, fun id => ?_, ?_⟩
    · rw [List.getElem?_modify]
      refine congrArg (Option.map · _) (funext fun p => ?_)
      by_cases h : q = id
      · simp [linked, h]
      · simp [linked, h]
    · simp [bound]

/-- A new container has the next number. -/
theorem fst_addContainer (image : Image) (c : Container) :
    (image.addContainer c).1 = image.containers.length := by
  unfold addContainer
  dsimp only
  split
  · split <;> rfl
  · rfl

/-- Data that an added container does not change in those before it. -/
theorem map_addContainer {α : Type} (image : Image) (c : Container) (f : Container → α)
    (same : ∀ p children, f { p with children } = f p) :
    (image.addContainer c).2.containers.map f = image.containers.map f ++ [f c] := by
  have kept (q child : ContainerId) : (image.containers.modify q fun p =>
      { p with children := p.children ++ [child] }).map f = image.containers.map f := by
    refine List.ext_getElem? fun id => ?_
    rw [List.getElem?_map, List.getElem?_map, List.getElem?_modify, Option.map_eq_map,
      Option.map_map]
    refine congrArg (fun g => Option.map g _) (funext fun p => ?_)
    by_cases here : q = id
    · simp [here, same]
    · simp [here]
  unfold addContainer
  dsimp only
  split
  · split
    · rw [List.map_append, kept, List.map_singleton]
    · rw [List.map_append, List.map_singleton]
  · rw [List.map_append, List.map_singleton]

/-- A new container stands for its type, and the others for theirs. -/
@[simp] theorem originals_addContainer (image : Image) (c : Container) :
    (image.addContainer c).2.originals = image.originals ++ [c.standsFor] :=
  map_addContainer image c _ fun _ _ => rfl

/-- A new container lies where it says, and the others where they lay. -/
@[simp] theorem parents_addContainer (image : Image) (c : Container) :
    (image.addContainer c).2.parents = image.parents ++ [c.parent] :=
  map_addContainer image c _ fun _ _ => rfl

/-- There is one container more. -/
@[simp] theorem length_addContainer (image : Image) (c : Container) :
    (image.addContainer c).2.containers.length = image.containers.length + 1 := by
  rw [← List.length_map (f := Container.standsFor), ← List.length_map (f := Container.standsFor),
    map_addContainer image c _ fun _ _ => rfl, List.length_append, List.length_singleton]

/-- The added container joins those that lie where it lies. -/
theorem lyingIn_addContainer (image : Image) (c : Container) (parent : Option ContainerId) :
    (image.addContainer c).2.lyingIn parent = image.lyingIn parent ++
      if c.parent = parent then [image.containers.length] else [] := by
  have length := image.length_parents
  rw [lyingIn, length_addContainer, parents_addContainer, List.range_succ, List.filter_append,
    lyingIn]
  congr 1
  · refine List.filter_congr fun id hid => ?_
    rw [List.getElem?_append_left (by rw [length]; exact List.mem_range.1 hid)]
  · rw [← length]
    by_cases h : c.parent = parent
    · simp [h]
    · simp [h]

end Image

namespace Placement

/-! ### Forests -/

/-- Whether the containers of an image form a forest in which every type has at most one, and a
placement finds them by their types. -/
structure Forest (p : Placement) (image : Image) : Prop where
  /-- What a container lies in comes before it. -/
  outer : ∀ id q : ContainerId, image.parents[id]? = some (some q) → q < id
  /-- The children are those that name the container as the one around them. -/
  children : ∀ id c, image.containers[id]? = some c → c.children = image.lyingIn (some id)
  /-- The roots are those that lie in no other. -/
  roots : image.roots = image.lyingIn none
  distinct : image.originals.Nodup
  /-- The placement leads from the types one to one to the containers. -/
  found : ∀ (t : TypeId) (id : ContainerId), p.cache[t]? = some id ↔ image.originals[id]? = some t

/-- A placement leads to containers that are there. -/
theorem Forest.lt_length {p : Placement} {image : Image} (h : Forest p image) {t : TypeId}
    {id : ContainerId} (cached : p.cache[t]? = some id) : id < image.containers.length := by
  simpa using (List.getElem?_eq_some_iff.1 ((h.found t id).1 cached)).1

/-- A new placement and no containers are a forest. -/
theorem forest_empty {image : Image} (empty : image.containers = []) (rootless : image.roots = [])
    (rootNamespace : String) : Forest { rootNamespace } image where
  outer id q h := by
    rw [Image.parents, empty] at h
    cases h
  children id c h := by
    rw [empty] at h
    cases h
  roots := by
    rw [rootless, Image.lyingIn, empty]
    rfl
  distinct := by
    rw [Image.originals, empty]
    exact List.nodup_nil
  found t id := by
    rw [Image.originals, empty]
    simp

/-- The placement knows every type that has a container. -/
theorem Forest.not_mem_originals {p : Placement} {image : Image} (h : Forest p image) {t : TypeId}
    (new : p.cache[t]? = none) : t ∉ image.originals := by
  intro mem
  obtain ⟨id, here⟩ := List.mem_iff_getElem?.1 mem
  rw [(h.found t id).2 here] at new
  cases new

/-- No container lies in one that comes only after it. -/
theorem Forest.lyingIn_length {p : Placement} {image : Image} (h : Forest p image) :
    image.lyingIn (some image.containers.length) = [] := by
  rw [List.eq_nil_iff_forall_not_mem]
  intro child mem
  have parent := Image.mem_lyingIn.1 mem
  have bound := (List.getElem?_eq_some_iff.1 parent).1
  rw [Image.length_parents] at bound
  exact Nat.lt_asymm bound (h.outer child _ parent)

/-- **A container for a type that has none continues a forest**, if the one around it is there. -/
theorem Forest.addContainer {p : Placement} {image : Image} (h : Forest p image) {c : Container}
    (new : p.cache[c.standsFor]? = none) (childless : c.children = [])
    (before : ∀ q, c.parent = some q → q < image.containers.length) :
    Forest { p with cache := p.cache.insert c.standsFor image.containers.length }
      (image.addContainer c).2 := by
  obtain ⟨cs, old, added⟩ := Image.exists_addContainer before
  have originals := image.originals_addContainer c
  have parents := image.parents_addContainer c
  have lying := image.lyingIn_addContainer c
  have length := image.length_originals
  have numbers := image.length_parents
  have size : cs.length = image.containers.length := by
    have all := congrArg (·.2.originals.length) added
    rw [originals] at all
    simpa [Image.originals] using all.symm
  have absent := h.not_mem_originals new
  constructor
  case outer =>
    intro id q hq
    rw [parents, getElem?_concat_eq_some, numbers] at hq
    rcases hq with hq | ⟨rfl, hq⟩
    · exact h.outer id q hq
    · exact before q hq
  case children =>
    intro id d hd
    rw [lying]
    rw [added, getElem?_concat_eq_some, old] at hd
    rcases hd with hd | ⟨hid, rfl⟩
    · obtain ⟨d, here, rfl⟩ := Option.map_eq_some_iff.1 hd
      rw [Image.linked, h.children id d here]
    · -- The container itself is too new to have children.
      obtain rfl : id = image.containers.length := hid.trans size
      have outside : c.parent ≠ some image.containers.length := by
        intro same
        exact Nat.lt_irrefl _ (before _ same)
      rw [childless, h.lyingIn_length, if_neg outside]
      rfl
  case roots =>
    rw [lying, added, h.roots]
  case distinct =>
    rw [originals, List.nodup_append]
    refine ⟨h.distinct, List.nodup_singleton _, ?_⟩
    intro u hu v hv same
    rw [List.mem_singleton] at hv
    exact absent (hv ▸ same ▸ hu)
  case found =>
    intro u id
    rw [originals, getElem?_concat_eq_some, length, Std.HashMap.getElem?_insert]
    by_cases own : c.standsFor = u
    · subst own
      have none : image.originals[id]? ≠ some c.standsFor := fun here =>
        absent (List.mem_of_getElem? here)
      simp [none, eq_comm]
    · simp [own, h.found u id]

/-! ### What a call does -/

/-- How a call that may use up some levels gives a container: the type has one, or one is added for
it, alone or in the one that a call for the type around it gives. -/
inductive Gives (view : HostView) (p : Placement) (image : Image) :
    Nat → TypeId → ContainerId × Placement × Image → Prop
  | found {depth : Nat} {id : TypeId} {t : TypeInfo} {c : ContainerId}
      (type : collapse view id = .ok t) (cached : p.cache[t.id]? = some c) :
    Gives view p image (depth + 1) id (c, p, image)
  | root {depth : Nat} {id : TypeId} {t : TypeInfo} (type : collapse view id = .ok t)
      (new : p.cache[t.id]? = none) (alone : t.enclosing = none) :
    Gives view p image (depth + 1) id (p.create image t (p.namespaceFor t.nspace) none)
  | within {depth : Nat} {id outer : TypeId} {t : TypeInfo} {s : ContainerId × Placement × Image}
      (type : collapse view id = .ok t) (new : p.cache[t.id]? = none)
      (enclosing : t.enclosing = some outer) (around : Gives view p image depth outer s) :
    Gives view p image (depth + 1) id (s.2.1.create s.2.2 t "" (some s.1))

/-- **A call gives a container** exactly in these ways. -/
theorem containerWithin_eq_ok {view : HostView} {p : Placement} {image : Image} {id : TypeId}
    {depth : Nat} {s : ContainerId × Placement × Image} :
    containerWithin view p image id depth = (.ok s.1, s.2) ↔ Gives view p image depth id s := by
  constructor
  · intro run
    induction depth generalizing id s with
    | zero => cases run
    | succ depth ih =>
      obtain ⟨c, p', image'⟩ := s
      rw [containerWithin] at run
      split at run
      · cases run
      · rename_i t type
        split at run
        · rename_i cached
          cases run
          exact .found type cached
        · rename_i new
          split at run
          · rename_i alone
            cases run
            exact .root type new alone
          · rename_i outer enclosing
            split at run
            · cases run
            · rename_i parent p₁ image₁ around
              cases run
              exact .within type new enclosing (ih (s := (parent, p₁, image₁)) around)
  · intro gives
    induction gives with
    | found type cached => simp only [containerWithin, type, cached]
    | root type new alone => simp only [containerWithin, type, new, alone]
    | within type new enclosing _ ih => simp only [containerWithin, type, new, enclosing, ih]

/-- A call that fails changes nothing. -/
theorem eq_of_error {view : HostView} {p p' : Placement} {image image' : Image} {id : TypeId}
    {e : Error} {depth : Nat}
    (run : containerWithin view p image id depth = (.error e, p', image')) :
    p' = p ∧ image' = image := by
  induction depth generalizing id p' image' with
  | zero =>
    cases run
    exact ⟨rfl, rfl⟩
  | succ depth ih =>
    rw [containerWithin] at run
    split at run
    · cases run
      exact ⟨rfl, rfl⟩
    · split at run
      · cases run
      · split at run
        · cases run
        · split at run
          · rename_i failed
            cases run
            exact ih failed
          · cases run

/-- What creating a container leaves of an image, a call leaves of it. -/
theorem Gives.keeps {view : HostView} {p : Placement} {image : Image} {id : TypeId} {depth : Nat}
    {s : ContainerId × Placement × Image} (h : Gives view p image depth id s) {P : Image → Prop}
    (create : ∀ p image t nspace parent, P image → P (create p image t nspace parent).2.2)
    (start : P image) : P s.2.2 := by
  induction h with
  | found => exact start
  | root => exact create _ _ _ _ _ start
  | within _ _ _ _ ih => exact create _ _ _ _ _ ih

/-- So it does if the call fails. -/
theorem containerWithin_keeps {P : Image → Prop}
    (create : ∀ p image t nspace parent, P image → P (create p image t nspace parent).2.2)
    (view : HostView) (p : Placement) {image : Image} (start : P image) (id : TypeId)
    (depth : Nat) : P (containerWithin view p image id depth).2.2 := by
  rcases run : containerWithin view p image id depth with ⟨e | c, p', image'⟩
  · obtain ⟨-, rfl⟩ := eq_of_error run
    exact start
  · exact (containerWithin_eq_ok (s := (c, p', image')).1 run).keeps create start

/-! ### Calls -/

/-- Whether a process answers for a type under the number of the type. -/
def OwnNumbers (view : HostView) : Prop := ∀ id t, view.type id = some t → t.id = id

/-- What a type collapses to is a type of the view. -/
theorem type_of_collapse {view : HostView} (own : OwnNumbers view) {id : TypeId} {t : TypeInfo}
    (h : collapse view id = .ok t) : view.type t.id = some t := by
  unfold collapse at h
  split at h
  · cases h
  · rename_i first known
    split at h
    · cases h
      rw [own id t known]
      exact known
    · rename_i definition _
      split at h
      · rename_i d known
        cases h
        rw [own definition t known]
        exact known
      · cases h

/-- Where the container of a type lies: in that of the type around it, if there is one. -/
inductive LiesIn (view : HostView) (p : Placement) (t : TypeInfo) : Option ContainerId → Prop
  | root (alone : t.enclosing = none) : LiesIn view p t none
  | within {outer : TypeId} {around : TypeInfo} {parent : ContainerId}
      (enclosing : t.enclosing = some outer) (type : collapse view outer = .ok around)
      (cached : p.cache[around.id]? = some parent) : LiesIn view p t (some parent)

/-- Whether containers are nested as their types are. -/
def Mirrors (view : HostView) (p : Placement) (image : Image) : Prop :=
  ∀ c ∈ image.containers, ∃ t, view.type c.standsFor = some t ∧ LiesIn view p t c.parent

/-- Whether whatever has a container keeps it. -/
def Keeps (p p' : Placement) : Prop :=
  ∀ (t : TypeId) (id : ContainerId), p.cache[t]? = some id → p'.cache[t]? = some id

/-- A container lies where it does for a placement that knows more. -/
theorem LiesIn.mono {view : HostView} {p p' : Placement} (keeps : Keeps p p') {t : TypeInfo}
    {parent : Option ContainerId} (h : LiesIn view p t parent) : LiesIn view p' t parent := by
  cases h with
  | root alone => exact .root alone
  | within enclosing type cached => exact .within enclosing type (keeps _ _ cached)

/-- What a call that succeeds leaves: the type has the container that the call gives, and this is
an old one or the last. -/
structure Placed (view : HostView) (p : Placement) (image : Image) (id : TypeId)
    (c : ContainerId) (p' : Placement) (image' : Image) : Prop where
  forest : Forest p' image'
  mirrors : Mirrors view p' image'
  keeps : Keeps p p'
  cached : ∃ t, collapse view id = .ok t ∧ p'.cache[t.id]? = some c
  last : p' = p ∧ image' = image ∨ c + 1 = image'.containers.length

section Calls

variable {view : HostView} {p p' p₁ : Placement} {image image' image₁ : Image} {id : TypeId}
  {c : ContainerId}

/-- A type that has no container has none either when those around it are there. -/
theorem Placed.missing {t : TypeInfo} (type : view.type t.id = some t)
    (new : p.cache[t.id]? = none) {outer : TypeId} (enclosing : t.enclosing = some outer)
    {parent : ContainerId} (h : Placed view p image outer parent p₁ image₁) :
    p₁.cache[t.id]? = none := by
  by_contra some
  obtain ⟨id, cached⟩ := Option.ne_none_iff_exists'.1 some
  rcases h.last with ⟨rfl, -⟩ | last
  · rw [cached] at new
    cases new
  -- The container of the type would lie in the last one, hence behind it.
  · have original := (h.forest.found t.id id).1 cached
    rw [Image.originals, List.getElem?_map] at original
    obtain ⟨d, here, stands⟩ := Option.map_eq_some_iff.1 original
    obtain ⟨t', same, lies⟩ := h.mirrors d (List.mem_of_getElem? here)
    rw [stands, type] at same
    cases same
    generalize inside : d.parent = q at lies
    cases lies with
    | root alone =>
      rw [alone] at enclosing
      cases enclosing
    | within enclosing' collapsed' cached' =>
      obtain ⟨around, collapsed, found⟩ := h.cached
      cases enclosing.symm.trans enclosing'
      cases collapsed.symm.trans collapsed'
      cases found.symm.trans cached'
      have behind : parent < id := h.forest.outer id parent (by
        rw [Image.parents, List.getElem?_map, here, Option.map_some, inside])
      have bound : id < parent + 1 := last ▸ h.forest.lt_length cached
      exact Nat.lt_irrefl _ (Nat.lt_of_lt_of_le behind (Nat.lt_succ_iff.1 bound))

/-- What is created is an empty container for the type, behind the others. -/
theorem exists_create (p : Placement) (image : Image) (t : TypeInfo) (nspace : String)
    (parent : Option ContainerId) :
    ∃ d : Container, d.standsFor = t.id ∧ d.parent = parent ∧ d.children = [] ∧ d.methods = [] ∧
      p.create image t nspace parent = (image.containers.length,
        { p with cache := p.cache.insert d.standsFor image.containers.length },
        (image.addContainer d).2) := by
  refine ⟨{ nspace, name := stripArity t.name, parent, standsFor := t.id }, rfl, rfl, rfl, rfl, ?_⟩
  rw [← image.fst_addContainer { nspace, name := stripArity t.name, parent, standsFor := t.id }]
  rfl

/-- **A container that is missing is added** behind the others, once those around it are there. -/
theorem placed_create (own : OwnNumbers view) {t : TypeInfo} (type : collapse view id = .ok t)
    (before : Keeps p p₁) (forest : Forest p₁ image₁) (mirrors : Mirrors view p₁ image₁)
    (new : p₁.cache[t.id]? = none) (nspace : String) {parent : Option ContainerId}
    (lies : LiesIn view p₁ t parent) :
    Placed view p image id (p₁.create image₁ t nspace parent).1
      (p₁.create image₁ t nspace parent).2.1 (p₁.create image₁ t nspace parent).2.2 := by
  have bound : ∀ q, parent = some q → q < image₁.containers.length := by
    rintro q rfl
    cases lies with
    | within _ _ cached => exact forest.lt_length cached
  obtain ⟨d, stands, inside, childless, -, created⟩ := exists_create p₁ image₁ t nspace parent
  rw [← inside] at bound lies
  rw [← stands] at new
  rw [created]
  have keeps : Keeps p₁ { p₁ with
      cache := p₁.cache.insert d.standsFor image₁.containers.length } := by
    intro u c cached
    have other : d.standsFor ≠ u := by
      rintro rfl
      rw [cached] at new
      cases new
    rw [Std.HashMap.getElem?_insert, if_neg (by simpa using other)]
    exact cached
  refine ⟨forest.addContainer new childless bound, ?_, fun u c h => keeps u c (before u c h),
    ⟨t, type, ?_⟩, .inr ?_⟩
  · intro c mem
    obtain ⟨cs, old, added⟩ := Image.exists_addContainer bound
    rw [added, List.mem_append, List.mem_singleton] at mem
    rcases mem with mem | rfl
    · obtain ⟨i, hi⟩ := List.mem_iff_getElem?.1 mem
      rw [old] at hi
      obtain ⟨c₀, here, rfl⟩ := Option.map_eq_some_iff.1 hi
      obtain ⟨u, known, lies⟩ := mirrors c₀ (List.mem_of_getElem? here)
      exact ⟨u, known, lies.mono keeps⟩
    · exact ⟨t, stands ▸ type_of_collapse own type, lies.mono keeps⟩
  · rw [← stands]
    exact Std.HashMap.getElem?_insert_self
  · exact (Image.length_addContainer ..).symm

/-- **A call that succeeds continues a forest.** -/
theorem Gives.placed (own : OwnNumbers view) (forest : Forest p image)
    (mirrors : Mirrors view p image) {depth : Nat} {s : ContainerId × Placement × Image}
    (h : Gives view p image depth id s) : Placed view p image id s.1 s.2.1 s.2.2 := by
  have keeps : Keeps p p := fun _ _ h => h
  induction h with
  | found type cached => exact ⟨forest, mirrors, keeps, ⟨_, type, cached⟩, .inl ⟨rfl, rfl⟩⟩
  | root type new alone =>
    exact placed_create own type keeps forest mirrors new _ (.root alone)
  | within type new enclosing _ placed =>
    obtain ⟨u, type', cached⟩ := placed.cached
    have missing := placed.missing (type_of_collapse own type) new enclosing
    exact placed_create own type placed.keeps placed.forest placed.mirrors missing ""
      (.within enclosing type' cached)

/-- **A call that succeeds gives the container of the type, within those of the types around
it.** -/
theorem placed_of_ok (own : OwnNumbers view) (forest : Forest p image)
    (mirrors : Mirrors view p image) {depth : Nat}
    (run : containerWithin view p image id depth = (.ok c, p', image')) :
    Placed view p image id c p' image' :=
  (containerWithin_eq_ok (s := (c, p', image')).1 run).placed own forest mirrors

end Calls

/-- What calls one after the other leave, those that succeed and those that fail. -/
def callAll (view : HostView) : List TypeId → Placement × Image → Placement × Image
  | [], s => s
  | id :: ids, s => callAll view ids (s.1.container view s.2 id).2

/-- What any calls leave of a forest that mirrors the nesting of types. -/
theorem callAll_keeps {view : HostView} (own : OwnNumbers view) (calls : List TypeId)
    {s : Placement × Image} (forest : Forest s.1 s.2) (mirrors : Mirrors view s.1 s.2) :
    Forest (callAll view calls s).1 (callAll view calls s).2 ∧
      Mirrors view (callAll view calls s).1 (callAll view calls s).2 ∧
      Keeps s.1 (callAll view calls s).1 := by
  induction calls generalizing s with
  | nil => exact ⟨forest, mirrors, fun _ _ h => h⟩
  | cons id ids ih =>
    obtain ⟨p, image⟩ := s
    rw [callAll]
    rcases run : p.container view image id with ⟨result, p', image'⟩
    cases result with
    | error e =>
      obtain ⟨rfl, rfl⟩ := eq_of_error run
      exact ih forest mirrors
    | ok c =>
      have placed := placed_of_ok own forest mirrors run
      obtain ⟨forest', mirrors', keeps⟩ := ih (s := (p', image')) placed.forest placed.mirrors
      exact ⟨forest', mirrors', fun t id h => keeps t id (placed.keeps t id h)⟩

/-- A type with a container is found without any change. -/
theorem container_of_cached {view : HostView} {p : Placement} {image : Image} {id : TypeId}
    {t : TypeInfo} (type : collapse view id = .ok t) {c : ContainerId}
    (cached : p.cache[t.id]? = some c) : p.container view image id = (.ok c, p, image) := by
  rw [container, nestingLimit, containerWithin, type]
  dsimp only
  rw [cached]

/-- **Containers form a forest, whatever is called.**  Beginning with an image without containers,
calls leave a forest in which every type has at most one container.  A type that has one keeps it:
later calls for the type, its definition or an instantiation give it and change nothing. -/
theorem callAll_forest {view : HostView} (own : OwnNumbers view) {image : Image}
    (empty : image.containers = []) (rootless : image.roots = []) (rootNamespace : String)
    (calls : List TypeId) :
    let s := callAll view calls ({ rootNamespace }, image)
    Forest s.1 s.2 ∧
      ∀ id c s', s.1.container view s.2 id = (.ok c, s') →
        ∀ later id' t t', collapse view id = .ok t → collapse view id' = .ok t' → t'.id = t.id →
          (callAll view later s').1.container view (callAll view later s').2 id' =
            (.ok c, callAll view later s') := by
  intro s
  obtain ⟨forest, mirrors, -⟩ := callAll_keeps own calls
    (s := ({ rootNamespace }, image)) (forest_empty empty rootless rootNamespace) (by
      intro c mem
      rw [empty] at mem
      cases mem)
  refine ⟨forest, fun id c s' run later id' t t' type type' same => ?_⟩
  have placed := placed_of_ok own forest mirrors run
  obtain ⟨u, collapsed, cached⟩ := placed.cached
  cases type.symm.trans collapsed
  obtain ⟨-, -, keeps⟩ := callAll_keeps own later placed.forest placed.mirrors
  exact container_of_cached type' (same ▸ keeps _ _ cached)

/-- A process with a generic type in another type, and with a type in an instantiation of it.  One
more type lies in a type that is not there. -/
def nestedView : HostView where
  method _ := none
  body _ := none
  type id := [
    { id := ⟨1⟩, module := some ⟨1⟩, nspace := "Game", name := "Clock" },
    { id := ⟨2⟩, module := some ⟨1⟩, nspace := "", name := "Hand\x601", enclosing := some ⟨1⟩ },
    { id := ⟨3⟩, module := some ⟨1⟩, nspace := "", name := "Hand", genericDefinition := some ⟨2⟩,
      genericArguments := [.primitive .string] },
    { id := ⟨4⟩, module := some ⟨1⟩, nspace := "", name := "Tip", enclosing := some ⟨3⟩ },
    { id := ⟨5⟩, module := some ⟨1⟩, nspace := "", name := "Lost", enclosing := some ⟨6⟩ }
    ].find? fun t : TypeInfo => t.id == id
  module _ := none
  modules := []
  findType _ := none
  patches := none

/-- An image without containers, and a placement without types. -/
def nestedStart : Placement × Image :=
  ({ rootNamespace := "Hook" }, {
    name := "dump"
    symbols := .empty
    provenance := Image.attributeType "PatchInfo" (.ofRow .typeRef 1) (.ofRow .memberRef 1) })

/-- The hypotheses are satisfiable: a call that fails and one for the innermost type leave three
containers, and a call for the instantiation and, after more calls, one for its definition give
the second of them. -/
theorem callAll_forest_nested : ∃ s s', callAll nestedView [⟨5⟩, ⟨4⟩] nestedStart = s ∧
    Forest s.1 s.2 ∧ s.2.containers.length = 3 ∧
    s.1.container nestedView s.2 ⟨3⟩ = (.ok 1, s') ∧
    (callAll nestedView [⟨5⟩, ⟨1⟩] s').1.container nestedView
      (callAll nestedView [⟨5⟩, ⟨1⟩] s').2 ⟨2⟩ =
        (.ok 1, callAll nestedView [⟨5⟩, ⟨1⟩] s') := by
  have own : OwnNumbers nestedView := fun id t known => by
    have same := List.find?_some known
    exact eq_of_beq same
  have empty : nestedStart.2.containers = [] := rfl
  obtain ⟨forest, stays⟩ := callAll_forest own empty rfl "Hook" [⟨5⟩, ⟨4⟩]
  have three : (callAll nestedView [⟨5⟩, ⟨4⟩] nestedStart).2.containers.length = 3 := by cbv
  have second : ((callAll nestedView [⟨5⟩, ⟨4⟩] nestedStart).1.container nestedView
      (callAll nestedView [⟨5⟩, ⟨4⟩] nestedStart).2 ⟨3⟩).1 = .ok 1 := by cbv
  have run := Prod.ext (y := (Except.ok 1, _)) second rfl
  exact ⟨_, _, rfl, forest, three, run, stays ⟨3⟩ 1 _ run [⟨5⟩, ⟨1⟩] ⟨2⟩ _ _ rfl rfl rfl⟩

end Placement
end HookImage
