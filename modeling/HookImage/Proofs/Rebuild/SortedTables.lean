/-
# Tables that are said to be sorted

The stream of tables marks two tables as sorted without sorting them: the custom attributes by
their parent, and the nested types by their own row.  They are because of the order in which rows
are drafted.  Tags are drafted with their methods, whose rows are numbered on, and shifting the
number of a row and adding a tag keeps the order (`Tables.sorted_customAttribute`).  Nesting is drafted
with the containers, which have their numbers from the order in which they were added.

That a container lies in one with a smaller row is due to how containers are added: a placement finds
or adds the one around first, and knows only containers that are there (`Placement.Built.outer`).
This holds with any number of placements on one image, for processes that change between two calls,
and whatever else is done to the image that leaves containers where they lie.
-/

import HookImage.Proofs.Image.Ownership
import HookImage.Proofs.Rebuild.Forest
import Mathlib

namespace HookImage

/-! ### Images that placements have built -/

namespace Image

/-- Whether containers lie in such that were added before them. -/
def Outer (image : Image) : Prop :=
  ∀ id q : ContainerId, image.parents[id]? = some (some q) → q < id

/-- A container that lies in one that is there keeps the order. -/
theorem Outer.addContainer {image : Image} (h : image.Outer) {c : Container}
    (before : ∀ q, c.parent = some q → q < image.containers.length) :
    (image.addContainer c).2.Outer := by
  intro id q hq
  rw [parents_addContainer, getElem?_concat_eq_some, length_parents] at hq
  rcases hq with hq | ⟨rfl, hq⟩
  · exact h id q hq
  · exact before q hq

end Image

namespace Placement

variable {view : HostView} {p : Placement} {image image' : Image} {id : TypeId}

/-- Whether a placement leads to containers that are there. -/
def Leads (p : Placement) (image : Image) : Prop :=
  ∀ (t : TypeId) (c : ContainerId), p.cache[t]? = some c → c < image.containers.length

/-- A placement leads to containers that are there while these get more. -/
theorem Leads.mono (h : p.Leads image)
    (more : image.containers.length ≤ image'.containers.length) : p.Leads image' :=
  fun t c cached => Nat.lt_of_lt_of_le (h t c cached) more

/-- What a call leaves: the containers of an image in their order, a placement that leads to them, and
the number of one of them. -/
structure Extends (image : Image) (s : ContainerId × Placement × Image) : Prop where
  outer : s.2.2.Outer
  leads : s.2.1.Leads s.2.2
  given : s.1 < s.2.2.containers.length
  more : image.containers.length ≤ s.2.2.containers.length

/-- A container is added behind the others, in one that is there. -/
theorem extends_create (outer : image'.Outer) (leads : p.Leads image')
    (more : image.containers.length ≤ image'.containers.length) (t : TypeInfo) (nspace : String)
    {parent : Option ContainerId} (before : ∀ q, parent = some q → q < image'.containers.length) :
    Extends image (p.create image' t nspace parent) := by
  obtain ⟨d, -, inside, -, -, created⟩ := exists_create p image' t nspace parent
  have length := image'.length_addContainer d
  rw [created]
  refine ⟨outer.addContainer (inside ▸ before), fun u c cached => ?_, ?_, ?_⟩
  · dsimp only at cached ⊢
    rw [length]
    rw [Std.HashMap.getElem?_insert] at cached
    split at cached
    · cases cached
      exact Nat.lt_succ_self _
    · exact Nat.lt_succ_of_lt (leads u c cached)
  · dsimp only
    rw [length]
    exact Nat.lt_succ_self _
  · dsimp only
    rw [length]
    exact Nat.le_succ_of_le more

/-- **A call that succeeds adds containers in such that are there.** -/
theorem Gives.extends (outer : image.Outer) (leads : p.Leads image) {depth : Nat}
    {s : ContainerId × Placement × Image} (h : Gives view p image depth id s) :
    Extends image s := by
  induction h with
  | found type cached => exact ⟨outer, leads, leads _ _ cached, Nat.le_refl _⟩
  | root type new alone =>
    exact extends_create outer leads (Nat.le_refl _) _ _ (by simp)
  | within type new enclosing _ ih =>
    refine extends_create ih.outer ih.leads ih.more _ _ fun q same => ?_
    cases same
    exact ih.given

/-- The images that begin without containers and get them from placements, with the placements that
were used on them.  Whatever leaves the containers where they lie may be done in between.

A placement that was used on another image is left out: what it remembers are containers of that
image, and a call on this one would take them for its own. -/
inductive Built : List Placement → Image → Prop
  | empty {image : Image} (bare : image.containers = []) : Built [] image
  | placement {ps : List Placement} {image : Image} (h : Built ps image) (rootNamespace : String) :
    Built ({ rootNamespace } :: ps) image
  | call {ps : List Placement} {image : Image} {p : Placement} (h : Built ps image) (used : p ∈ ps)
      (view : HostView) (id : TypeId) :
    Built ((p.container view image id).2.1 :: ps) (p.container view image id).2.2
  | change {ps : List Placement} {image image' : Image} (h : Built ps image)
      (same : image'.parents = image.parents) : Built ps image'

/-- Calls one after the other build an image further. -/
theorem Built.callAll {ps : List Placement} (h : Built ps image) (used : p ∈ ps) (view : HostView)
    (calls : List TypeId) : ∃ ps', Built ps' (Placement.callAll view calls (p, image)).2 := by
  induction calls generalizing ps p image with
  | nil => exact ⟨ps, h⟩
  | cons id calls ih => exact ih (h.call used view id) (List.mem_cons_self ..)

/-- **Whatever is called, containers lie in such that were added before them.** -/
theorem Built.outer {ps : List Placement} (h : Built ps image) :
    image.Outer ∧ ∀ p ∈ ps, p.Leads image := by
  induction h with
  | @empty image bare =>
    refine ⟨fun id q hq => ?_, fun p hp => by cases hp⟩
    rw [Image.parents, bare] at hq
    cases hq
  | placement _ rootNamespace ih =>
    refine ⟨ih.1, List.forall_mem_cons.2 ⟨fun t c cached => ?_, ih.2⟩⟩
    rw [Std.HashMap.getElem?_empty] at cached
    cases cached
  | @call ps image p _ used view id ih =>
    obtain ⟨outer, leads⟩ := ih
    rcases run : p.container view image id with ⟨e | c, p', image'⟩
    · obtain ⟨rfl, rfl⟩ := eq_of_error run
      exact ⟨outer, List.forall_mem_cons.2 ⟨leads _ used, leads⟩⟩
    · have after := Gives.extends outer (leads p used)
        ((containerWithin_eq_ok (s := (c, p', image'))).1 run)
      exact ⟨after.outer, List.forall_mem_cons.2
        ⟨after.leads, fun q hq => (leads q hq).mono after.more⟩⟩
  | @change ps image image' _ same ih =>
    have length : image'.containers.length = image.containers.length := by
      rw [← Image.length_parents, same, Image.length_parents]
    refine ⟨fun id q hq => ih.1 id q (same ▸ hq), fun p hp => (ih.2 p hp).mono ?_⟩
    exact Nat.le_of_eq length.symm

end Placement

/-! ### Nested types -/

/-- In a list with ascending keys, only one member has the key of a member. -/
theorem filter_key_eq_singleton {α : Type} {key : α → Nat} {xs : List α}
    (ascends : xs.Pairwise fun x y => key x < key y) {x : α} (mem : x ∈ xs) :
    xs.filter (fun y => key y == key x) = [x] := by
  induction ascends with
  | nil => cases mem
  | @cons y ys behind _ ih =>
    rcases List.mem_cons.1 mem with rfl | later
    · have others : ys.filter (fun y => key y == key x) = [] :=
        List.filter_eq_nil_iff.2 fun y hy same =>
          Nat.ne_of_gt (behind y hy) (eq_of_beq same)
      rw [List.filter_cons, if_pos (beq_self_eq_true _), others]
    · have before := behind x later
      rw [List.filter_cons_of_neg (by simpa using Nat.ne_of_lt before), ih later]

namespace Image

variable {image : Image}

/-- The containers that lie in another one, each with that one, in the order of their numbers. -/
def nestings (image : Image) : List (ContainerId × ContainerId) :=
  image.containers.zipIdx.filterMap fun (c, id) => c.parent.map (id, ·)

/-- A container is nested exactly if it lies in another one. -/
theorem mem_nestings {id q : ContainerId} :
    (id, q) ∈ image.nestings ↔ image.parents[id]? = some (some q) := by
  rw [nestings, List.mem_filterMap, parents, List.getElem?_map]
  constructor
  · rintro ⟨⟨c, i⟩, mem, found⟩
    obtain ⟨p, parent, same⟩ := Option.map_eq_some_iff.1 found
    cases same
    rw [List.mem_zipIdx_iff_getElem?.1 mem, Option.map_some, parent]
  · intro found
    obtain ⟨c, here, parent⟩ := Option.map_eq_some_iff.1 found
    exact ⟨(c, id), List.mem_zipIdx_iff_getElem?.2 here, Option.map_eq_some_iff.2 ⟨q, parent, rfl⟩⟩

/-- Nestings ascend by the inner container. -/
theorem pairwise_nestings (image : Image) :
    image.nestings.Pairwise fun n next => n.1 < next.1 := by
  have numbers : image.containers.zipIdx.Pairwise fun entry next => entry.2 < next.2 := by
    rw [← List.pairwise_map (f := Prod.snd) (R := (· < ·)), List.zipIdx_map_snd]
    exact List.pairwise_lt_range' ..
  refine List.pairwise_filterMap.2 (numbers.imp ?_)
  rintro ⟨c, i⟩ ⟨c', i'⟩ before n hn n' hn'
  obtain ⟨q, -, rfl⟩ := Option.map_eq_some_iff.1 hn
  obtain ⟨q', -, rfl⟩ := Option.map_eq_some_iff.1 hn'
  exact before

end Image

/-- The columns that say of a container which one it lies in. -/
def Column.nesting (n : ContainerId × ContainerId) : List Column :=
  [.row .typeDef (n.1 + 3), .row .typeDef (n.2 + 3)]

/-- The row of a container, if there are not too many. -/
theorem Image.row_typeDefToken {image : Image} (small : image.rowCount .typeDef < 0x1000000)
    {id : Nat} (inside : id < image.containers.length) : (typeDefToken id).row = id + 3 := by
  have few : image.containers.length + 2 < 0x1000000 := small
  rw [typeDefToken, Token.row_ofRow, reservedTypes]
  exact Nat.mod_eq_of_lt (by omega)

/-- The drafted rows of nested types. -/
theorem Image.flatMap_nestingRows (image : Image) :
    image.containers.zipIdx.flatMap Container.nestingRows = image.nestings.map fun n =>
      [.row .typeDef (typeDefToken n.1).row, .row .typeDef (typeDefToken n.2).row] := by
  rw [nestings, List.map_filterMap, List.filterMap_eq_flatMap_toList]
  refine List.flatMap_congr fun entry _ => ?_
  obtain ⟨c, id⟩ := entry
  dsimp only [Container.nestingRows]
  rcases c.parent with _ | q
  · rfl
  · rfl

namespace Tables

/-- **The rows of nested types are those of the containers in others**, in the order of their
numbers. -/
theorem ofTable_nestedClass {d : Draft} {image : Image} (contents : d.Contents image)
    (outer : image.Outer) (small : image.rowCount .typeDef < 0x1000000) :
    (ofDraft d).ofTable .nestedClass = image.nestings.map Column.nesting := by
  have shows := showsRows_ofDraft d .nestedClass
  rw [contents.nesting, image.flatMap_nestingRows, List.forall₂_map_left_iff] at shows
  rw [← List.forall₂_eq_eq_eq, List.forall₂_map_right_iff]
  refine (forall₂_of_mem shows ?_).flip
  rintro ⟨id, q⟩ mem columns row
  have parent := Image.mem_nestings.1 mem
  have inside : id < image.containers.length :=
    image.length_parents ▸ (List.getElem?_eq_some_iff.1 parent).1
  have before := outer id q parent
  rw [Image.row_typeDefToken small inside,
    Image.row_typeDefToken small (Nat.lt_trans before inside)] at row
  rcases row with _ | ⟨first, row⟩
  rcases row with _ | ⟨second, row⟩
  cases row
  cases first
  cases second
  rfl

end Tables

/-! ### Custom attributes -/

/-- Tags are numbered in the order of their methods. -/
theorem SyntheticMethod.pairwise_numberedTags (methods : List SyntheticMethod) :
    (numberedTags methods).Pairwise fun tag next => tag.2 ≤ next.2 := by
  suffices numbered : ∀ first, ((methods.zipIdx first).flatMap fun entry =>
      entry.1.tags.map (·, entry.2)).Pairwise fun tag next => tag.2 ≤ next.2 from numbered 1
  induction methods with
  | nil => exact fun _ => .nil
  | cons m methods ih =>
    intro first
    rw [List.zipIdx_cons, List.flatMap_cons, List.pairwise_append]
    refine ⟨?_, ih (first + 1), fun tag own next later => ?_⟩
    · rw [List.pairwise_map]
      exact List.pairwise_of_forall fun _ _ => Nat.le_refl first
    · obtain ⟨_, -, rfl⟩ := List.mem_map.1 own
      exact Nat.le_of_succ_le (le_of_mem_tags later).1

namespace Tables

/-- Whether a table is sorted by its first column, which holds a number in a certain form. -/
def SortedBy (t : Tables) (table : TableId) (form : Nat → Column) (before : Nat → Nat → Prop) :
    Prop :=
  ∃ keys : List Nat, (t.ofTable table).map (·.head?) = keys.map (fun key => some (form key)) ∧
    keys.Pairwise before

/-- **Custom attributes are sorted by their parents**, since a coded number of a row grows with the
number. -/
theorem sorted_customAttribute {d : Draft} {image : Image} (contents : d.Contents image)
    (small : image.rowCount .methodDef < 0x1000000) :
    (ofDraft d).SortedBy .customAttribute (.coded .hasCustomAttribute) (· ≤ ·) := by
  have parents := forall₂_parents (image.length_allMethods ▸ small)
    (shown_of_forall₂ contents.defines.tags)
  have ordered := SyntheticMethod.pairwise_numberedTags (DefinedType.allMethods image.defined)
  refine ⟨(SyntheticMethod.numberedTags (DefinedType.allMethods image.defined)).map (·.2 <<< 5),
    ?_, ?_⟩
  · rw [List.map_map, ← List.forall₂_eq_eq_eq, List.forall₂_map_left_iff,
      List.forall₂_map_right_iff]
    exact parents.flip.imp fun _ _ h => h.2.1
  · rw [List.pairwise_map]
    refine ordered.imp fun before => ?_
    rw [Nat.shiftLeft_eq, Nat.shiftLeft_eq]
    exact Nat.mul_le_mul_right _ before

/-- Whether the tables that are marked as sorted are. -/
structure Sorted (t : Tables) (image : Image) : Prop where
  /-- Custom attributes stand in the order of their parents. -/
  attributes : t.SortedBy .customAttribute (.coded .hasCustomAttribute) (· ≤ ·)
  /-- Nested types stand in the order of their own rows. -/
  nested : t.SortedBy .nestedClass (.row .typeDef) (· < ·)
  /-- A container in another one has one row, which names its own and that of the other one. -/
  once : ∀ i c q, image.containers[i]? = some c → c.parent = some q →
    (t.ofTable .nestedClass).filter (·.head? == some (.row .typeDef (i + 3))) =
      [[.row .typeDef (i + 3), .row .typeDef (q + 3)]]
  outer : ∀ columns ∈ t.ofTable .nestedClass, ∃ nested enclosing, enclosing < nested ∧
    columns = [.row .typeDef nested, .row .typeDef enclosing]

end Tables

/-- **The tables that are marked as sorted are sorted**, if the containers of an image come from
placements. -/
theorem Draft.sorted_ofImage {ps : List Placement} {image : Image} {d : Draft}
    (built : Placement.Built ps image) (drafted : ofImage image = .ok d)
    (types : image.rowCount .typeDef < 0x1000000)
    (methods : image.rowCount .methodDef < 0x1000000) : (Tables.ofDraft d).Sorted image := by
  have contents := contents_ofImage drafted
  have outer := built.outer.1
  have rows := Tables.ofTable_nestedClass contents outer types
  refine ⟨Tables.sorted_customAttribute contents methods, ?_, ?_, ?_⟩
  · refine ⟨image.nestings.map (·.1 + 3), ?_, ?_⟩
    · rw [rows, List.map_map, List.map_map]
      rfl
    · rw [List.pairwise_map]
      exact image.pairwise_nestings.imp fun before => Nat.add_lt_add_right before 3
  · intro i c q here inside
    have mem : (i, q) ∈ image.nestings := by
      rw [Image.mem_nestings, Image.parents, List.getElem?_map, here, Option.map_some, inside]
    have only := filter_key_eq_singleton image.pairwise_nestings mem
    have same (n : ContainerId × ContainerId) :
        (some (Column.row .typeDef (n.1 + 3)) == some (.row .typeDef (i + 3))) = (n.1 == i) := by
      rw [Bool.eq_iff_iff]
      simp
    rw [rows, List.filter_map]
    simp only [Function.comp_def, Column.nesting, List.head?_cons, same, only, List.map_singleton]
  · rw [rows]
    intro columns mem
    obtain ⟨⟨id, q⟩, inside, rfl⟩ := List.mem_map.1 mem
    exact ⟨id + 3, q + 3,
      Nat.add_lt_add_right (outer id q (Image.mem_nestings.1 inside)) 3, rfl⟩

/-- Three containers that calls have added, each in the one before it, with a tagged method in the
first and in the last one. -/
def Placement.taggedImage : Image :=
  let image := (callAll nestedView [⟨5⟩, ⟨4⟩] nestedStart).2
  let add (image : Image) (id : ContainerId) : Image :=
    let m := SyntheticMethod.ofBody "Run" {} (.ofCode [(.ret, .none)])
    ((image.addMethod id { m with tags := [⟨"Hook", "clockwork"⟩] }).map (·.2)).getD image
  add (add image 2) 0

/-- The hypotheses are satisfiable: a failed call and one for the innermost type build an image with
two nested types, which is drafted with two tags. -/
theorem Draft.sorted_ofImage_tagged : ∃ ps d, Placement.Built ps Placement.taggedImage ∧
    ofImage Placement.taggedImage = .ok d ∧ (Tables.ofDraft d).Sorted Placement.taggedImage ∧
    Placement.taggedImage.nestings = [(1, 0), (2, 1)] := by
  have start : Placement.Built [{ rootNamespace := "Hook" }] Placement.nestedStart.2 :=
    .placement (.empty rfl) "Hook"
  obtain ⟨ps, built⟩ := start.callAll (List.mem_cons_self ..) Placement.nestedView [⟨5⟩, ⟨4⟩]
  have tagged : Placement.Built ps Placement.taggedImage := built.change (by cbv)
  have drafted : (ofImage Placement.taggedImage).toOption.isSome := by cbv
  obtain ⟨d, found⟩ := Option.isSome_iff_exists.1 drafted
  have ok := toOption_eq_some.1 found
  exact ⟨ps, d, tagged, ok, sorted_ofImage tagged ok (by cbv) (by cbv), by cbv⟩

end HookImage
