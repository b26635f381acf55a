/-
# How deep a type may lie

A call looks outward from its type, one type after the other, until it comes to one that has a
container or lies in no other (`Placement.exists_gives_iff`).  What is limited is how many types it
looks at, not how deep the type lies.  So for a type with 64 or more types around it the order of
calls decides: a new placement refuses it, but not one in which some type around it, near enough,
has a container (`Placement.container_isOk_iff`).

For all other types the order makes no difference.  With fewer types around it a type is placed
whatever was called before, and a type that lies in others without an end, or in one that is not
there, never is: containers are only there for types in complete nestings
(`Placement.Forest.exists_outermost`).
-/

import HookImage.Proofs.Rebuild.Forest
import Mathlib

namespace HookImage
namespace Placement

/-- Whether a type lies around another one, with the types from this one on up to those directly
in it. -/
inductive Outward (view : HostView) : TypeInfo → List TypeId → TypeInfo → Prop
  | here (t : TypeInfo) : Outward view t [] t
  | next {t around last : TypeInfo} {outer : TypeId} {ts : List TypeId}
      (enclosing : t.enclosing = some outer) (type : collapse view outer = .ok around)
      (rest : Outward view around ts last) : Outward view t (t.id :: ts) last

section Outward

variable {view : HostView} {t m last last' : TypeInfo} {ts ts' : List TypeId}

/-- A way outwards goes on where another one ends. -/
theorem Outward.append (h : Outward view t ts m) (h' : Outward view m ts' last) :
    Outward view t (ts ++ ts') last := by
  induction h with
  | here => exact h'
  | next enclosing type _ ih => exact .next enclosing type (ih h')

/-- The first types on a way outward are those to which there are shorter ways. -/
theorem Outward.mem_take_iff (h : Outward view t ts last) {n : Nat} (far : n ≤ ts.length)
    {u : TypeId} :
    u ∈ ts.take n ↔ ∃ before m, before.length < n ∧ Outward view t before m ∧ m.id = u := by
  induction h generalizing n with
  | here =>
    obtain rfl := Nat.le_zero.1 far
    simp
  | @next t around last outer ts enclosing type _ ih =>
    rcases n with _ | n
    · simp
    rw [List.take_succ_cons, List.mem_cons, ih (Nat.le_of_succ_le_succ far)]
    constructor
    · rintro (rfl | ⟨before, m, near, way, same⟩)
      · exact ⟨[], t, n.succ_pos, .here t, rfl⟩
      · exact ⟨t.id :: before, m, Nat.succ_lt_succ near, .next enclosing type way, same⟩
    · rintro ⟨before, m, near, way, rfl⟩
      cases way with
      | here => exact .inl rfl
      | next enclosing' type' rest =>
        cases enclosing.symm.trans enclosing'
        cases type.symm.trans type'
        exact .inr ⟨_, m, Nat.lt_of_succ_lt_succ near, rest, rfl⟩

/-- If a process answers under the own numbers, it does so for every type on the way. -/
theorem Outward.known (own : OwnNumbers view) (h : Outward view t ts last)
    (known : view.type t.id = some t) : view.type last.id = some last := by
  induction h with
  | here => exact known
  | next _ type _ ih => exact ih (type_of_collapse own type)

/-- There is one way outward to a type that lies in no other. -/
theorem Outward.unique (h : Outward view t ts last) (alone : last.enclosing = none)
    (h' : Outward view t ts' last') (alone' : last'.enclosing = none) : ts = ts' := by
  induction h generalizing ts' with
  | here =>
    cases h' with
    | here => rfl
    | next enclosing =>
      rw [alone] at enclosing
      cases enclosing
  | next enclosing type _ ih =>
    cases h' with
    | here =>
      rw [alone'] at enclosing
      cases enclosing
    | next enclosing' type' rest' =>
      cases enclosing.symm.trans enclosing'
      cases type.symm.trans type'
      rw [ih alone rest']

end Outward

/-! ### How far a call looks -/

/-- **A call gives a container** exactly if it comes to a type that has one, or that lies in no
other, before it has looked at as many types as it may. -/
theorem exists_gives_iff {view : HostView} {p : Placement} {image : Image} {id : TypeId}
    {depth : Nat} : (∃ s, Gives view p image depth id s) ↔
      ∃ t ts last, collapse view id = .ok t ∧ Outward view t ts last ∧ ts.length < depth ∧
        (last.enclosing = none ∨ ∃ c, p.cache[last.id]? = some c) := by
  constructor
  · rintro ⟨s, gives⟩
    induction gives with
    | @found _ _ t c type cached =>
      exact ⟨t, [], t, type, .here t, Nat.succ_pos _, .inr ⟨c, cached⟩⟩
    | @root _ _ t type _ alone => exact ⟨t, [], t, type, .here t, Nat.succ_pos _, .inl alone⟩
    | @within _ _ _ t _ type _ enclosing _ ih =>
      obtain ⟨around, ts, last, type', way, near, ends⟩ := ih
      exact ⟨t, t.id :: ts, last, type, .next enclosing type' way, Nat.succ_lt_succ near, ends⟩
  · rintro ⟨t, ts, last, type, way, near, ends⟩
    induction depth generalizing id t ts with
    | zero => cases near
    | succ depth ih =>
      rcases cached : p.cache[t.id]? with _ | c
      · cases way with
        | here =>
          rcases ends with alone | ⟨c, found⟩
          · exact ⟨_, .root type cached alone⟩
          · rw [cached] at found
            cases found
        | next enclosing type' rest =>
          obtain ⟨s, around⟩ := ih _ _ type' rest (Nat.lt_of_succ_lt_succ near)
          exact ⟨_, .within type cached enclosing around⟩
      · exact ⟨_, .found type cached⟩

/-- Whether a call for the container of a type succeeds. -/
def Places (view : HostView) (s : Placement × Image) (id : TypeId) : Prop :=
  ∃ r : ContainerId × Placement × Image, s.1.container view s.2 id = (.ok r.1, r.2)

/-- A call finds its place exactly if a way outwards of fewer steps than the limit leads to the
outermost type or to one that has a container. -/
theorem places_iff {view : HostView} {s : Placement × Image} {id : TypeId} :
    Places view s id ↔ ∃ t ts last, collapse view id = .ok t ∧ Outward view t ts last ∧
      ts.length < nestingLimit ∧ (last.enclosing = none ∨ ∃ c, s.1.cache[last.id]? = some c) := by
  rw [← @exists_gives_iff view s.1 s.2 id nestingLimit]
  exact exists_congr fun r => containerWithin_eq_ok

/-! ### Calls in any order -/

/-- **Whatever has a container lies in a complete nesting.** -/
theorem Forest.exists_outermost {view : HostView} {p : Placement} {image : Image}
    (forest : Forest p image) (own : OwnNumbers view) (mirrors : Mirrors view p image) {u : TypeId}
    {c : ContainerId} (cached : p.cache[u]? = some c) :
    ∃ t ts last, view.type u = some t ∧ Outward view t ts last ∧ last.enclosing = none := by
  -- The container around comes before, so the way outward is followed along the numbers.
  induction c using Nat.strong_induction_on generalizing u with
  | h c ih =>
    have original := (forest.found u c).1 cached
    rw [Image.originals, List.getElem?_map] at original
    obtain ⟨d, here, stands⟩ := Option.map_eq_some_iff.1 original
    obtain ⟨t, known, lies⟩ := mirrors d (List.mem_of_getElem? here)
    rw [stands] at known
    generalize inside : d.parent = q at lies
    cases lies with
    | root alone => exact ⟨t, [], t, known, .here t, alone⟩
    | @within outer around parent enclosing type found =>
      have before : parent < c := forest.outer c parent (by
        rw [Image.parents, List.getElem?_map, here, Option.map_some, inside])
      obtain ⟨t', ts, last, known', way, alone⟩ := ih parent before found
      cases (type_of_collapse own type).symm.trans known'
      exact ⟨t, t.id :: ts, last, known, .next enclosing type way, alone⟩

/-- **Which types a placement refuses depends on what was called before.**  A new placement has a
container for a type exactly if fewer than 64 types lie on the way from it to an outermost one.
After any calls a type is also placed if, before 64 types, there is one on the way that has a
container already.  If the process answers for types under their own numbers, such a type lies in a
complete nesting, so the calls make a difference exactly for a type with at least 64 types on the
way to an outermost one of which one of the first 64 has a container. -/
theorem container_isOk_iff (view : HostView) {image : Image} (empty : image.containers = [])
    (rootless : image.roots = []) (rootNamespace : String) (calls : List TypeId) (id : TypeId) :
    let start : Placement × Image := ({ rootNamespace }, image)
    let s := callAll view calls start
    (Places view start id ↔ ∃ t ts last, collapse view id = .ok t ∧ Outward view t ts last ∧
      ts.length < nestingLimit ∧ last.enclosing = none) ∧
    (Places view s id ↔ Places view start id ∨ ∃ t ts last, collapse view id = .ok t ∧
      Outward view t ts last ∧ ts.length < nestingLimit ∧ ∃ c, s.1.cache[last.id]? = some c) ∧
    (OwnNumbers view → (Places view s id ∧ ¬ Places view start id ↔
      ∃ t ts last, collapse view id = .ok t ∧ Outward view t ts last ∧ last.enclosing = none ∧
        nestingLimit ≤ ts.length ∧ ∃ u ∈ ts.take nestingLimit, u ∈ s.2.originals)) := by
  intro start s
  have new (u : TypeId) : start.1.cache[u]? = none := Std.HashMap.getElem?_empty
  have first : Places view start id ↔ ∃ t ts last, collapse view id = .ok t ∧
      Outward view t ts last ∧ ts.length < nestingLimit ∧ last.enclosing = none := by
    simp only [places_iff, new, reduceCtorEq, exists_false, or_false]
  have later : Places view s id ↔ Places view start id ∨ ∃ t ts last, collapse view id = .ok t ∧
      Outward view t ts last ∧ ts.length < nestingLimit ∧ ∃ c, s.1.cache[last.id]? = some c := by
    rw [first, places_iff]
    simp only [and_or_left, exists_or]
  refine ⟨first, later, fun own => ?_⟩
  obtain ⟨forest, mirrors, -⟩ := callAll_keeps own calls (s := start)
    (forest_empty empty rootless rootNamespace) (by
      intro c mem
      rw [empty] at mem
      cases mem)
  constructor
  · rintro ⟨placed, refused⟩
    obtain ⟨t, ts, m, type, way, near, c, cached⟩ := (later.1 placed).resolve_left refused
    obtain ⟨m', ts', last, known, way', alone⟩ := forest.exists_outermost own mirrors cached
    cases (way.known own (type_of_collapse own type)).symm.trans known
    have far : nestingLimit ≤ (ts ++ ts').length := by
      by_contra close
      exact refused (first.2 ⟨t, ts ++ ts', last, type, way.append way', Nat.not_le.1 close, alone⟩)
    exact ⟨t, ts ++ ts', last, type, way.append way', alone, far, m.id,
      ((way.append way').mem_take_iff far).2 ⟨ts, m, near, way, rfl⟩,
      List.mem_of_getElem? ((forest.found m.id c).1 cached)⟩
  · rintro ⟨t, ts, last, type, way, alone, far, u, near, mem⟩
    obtain ⟨before, m, short, way', rfl⟩ := (way.mem_take_iff far).1 near
    obtain ⟨c, original⟩ := List.mem_iff_getElem?.1 mem
    refine ⟨later.2 (.inr ⟨t, before, m, type, way', short, c, (forest.found m.id c).2 original⟩),
      fun placed => ?_⟩
    obtain ⟨t', ts', last', type', way'', close, alone'⟩ := first.1 placed
    cases type.symm.trans type'
    rw [← way.unique alone way'' alone'] at close
    exact absurd close (Nat.not_lt.2 far)

/-- A type that lies in the one before it, unless it is the first. -/
def rung (n : Nat) : TypeInfo where
  id := ⟨UInt64.ofNat (n + 1)⟩
  module := some ⟨1⟩
  nspace := "Game"
  name := "Rung"
  enclosing := if n = 0 then none else some ⟨UInt64.ofNat n⟩

/-- A process with types that lie in each other, each in the one with the number before. -/
def ladder : HostView where
  method _ := none
  body _ := none
  type id := if id.val = 0 then none else some (rung (id.val.toNat - 1))
  module _ := none
  modules := []
  findType _ := none
  patches := none

/-- The rungs of the ladder collapse to themselves. -/
theorem collapse_rung {n : Nat} (small : n < 1000) :
    collapse ladder ⟨UInt64.ofNat (n + 1)⟩ = .ok (rung n) := by
  have number : (UInt64.ofNat (n + 1)).toNat = n + 1 :=
    UInt64.toNat_ofNat_of_lt' (Nat.lt_of_lt_of_le (Nat.succ_lt_succ small) (by decide))
  have positive : UInt64.ofNat (n + 1) ≠ 0 := by
    intro zero
    rw [zero] at number
    cases number
  simp only [collapse, ladder, positive, if_false, number, Nat.add_sub_cancel]
  rfl

/-- The way from a rung down to the first one. -/
theorem outward_rung {n : Nat} (small : n < 1000) : Outward ladder (rung n)
    ((List.range n).map fun k => (rung (k + 1)).id).reverse (rung 0) := by
  induction n with
  | zero => exact .here _
  | succ n ih =>
    have below : n < 1000 := Nat.lt_of_succ_lt small
    rw [List.range_succ, List.map_append, List.reverse_append]
    exact .next rfl (collapse_rung below) (ih below)

/-- The hypotheses are satisfiable: a new placement refuses the 65th rung, but not if there is a
container for the second one. -/
theorem container_isOk_iff_ladder : OwnNumbers ladder ∧
    Places ladder (callAll ladder [⟨2⟩] nestedStart) ⟨65⟩ ∧ ¬ Places ladder nestedStart ⟨65⟩ := by
  have own : OwnNumbers ladder := by
    intro id t known
    dsimp only [ladder] at known
    split at known
    · cases known
    · rename_i nonzero
      cases known
      have positive : 0 < id.val.toNat := Nat.pos_of_ne_zero fun zero =>
        nonzero (UInt64.toNat_inj.1 zero)
      rw [rung, Nat.sub_add_cancel positive, UInt64.ofNat_toNat]
  obtain ⟨-, -, differs⟩ := @container_isOk_iff ladder nestedStart.2 rfl rfl "Hook" [⟨2⟩]
    ⟨65⟩
  have second : (⟨2⟩ : TypeId) ∈ (callAll ladder [⟨2⟩] nestedStart).2.originals := by
    have both : (callAll ladder [⟨2⟩] nestedStart).2.originals = [⟨1⟩, ⟨2⟩] := by cbv
    rw [both]
    decide
  refine ⟨own, (differs own).2 ⟨rung 64, _, rung 0, collapse_rung (by decide),
    outward_rung (by decide), rfl, ?_, ⟨2⟩, ?_, second⟩⟩
  · simp [nestingLimit]
  · rw [List.take_of_length_le (by simp [nestingLimit])]
    exact List.mem_reverse.2 (List.mem_map.2 ⟨0, by simp, rfl⟩)

end Placement
end HookImage
