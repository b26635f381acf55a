/-
# Interceptions by their targets

A snapshot takes the records in registration order and puts each into the group of its target, or
behind all groups if there is none for it yet.  One record keeps what the groups say of the records
before it (`Grouped.insert`, `Grouped.skip`), so a snapshot has one group for each target, in the
order in which the targets first came up, and in it the records of that target in their order
(`Snapshot.build_groups`).

Which target a record has is said apart from the search that finds it (`Interception.Targets`): for
a jump over native code it may be a pinned method, and then it is the first one whose code starts
where the jump was written.
-/

import HookImage.Registry.Snapshot
import Mathlib.Data.List.Induction
import Mathlib.Data.List.Nodup

namespace HookImage

/-! ### Targets -/

/-- Which method an interception is on: the one that was reported, or for a native jump without one
the first pinned method whose code starts where the jump was written. -/
inductive Interception.Targets (r : Interception) : MethodId → Prop
  | reported {m : MethodId} (known : r.target = some m) : Targets r m
  | pinned {j : NativeJump} {before after : List PinnedMethod} {p : PinnedMethod}
      (unknown : r.target = none) (native : r.kind = .native j)
      (pins : j.pinned = before ++ p :: after) (starts : p.nativeStart = j.source)
      (first : ∀ q ∈ before, q.nativeStart ≠ j.source) : Targets r p.method

/-- A jump is from the first method that was pinned where it starts. -/
theorem NativeJump.target?_eq_some_iff {j : NativeJump} {m : MethodId} :
    j.target? = some m ↔ ∃ before p after, j.pinned = before ++ p :: after ∧
      p.nativeStart = j.source ∧ p.method = m ∧ ∀ q ∈ before, q.nativeStart ≠ j.source := by
  rw [target?, methodAt, Option.map_eq_some_iff]
  constructor
  · rintro ⟨p, found, named⟩
    obtain ⟨starts, before, after, pins, first⟩ := List.find?_eq_some_iff_append.1 found
    refine ⟨before, p, after, pins, eq_of_beq starts, named, fun q hq same => ?_⟩
    simpa [same] using first q hq
  · rintro ⟨before, p, after, pins, starts, named, first⟩
    refine ⟨p, List.find?_eq_some_iff_append.2 ⟨beq_iff_eq.2 starts, before, after, pins, ?_⟩, named⟩
    intro q hq
    simpa using first q hq

/-- The target that is found for an interception is the one that it has. -/
theorem Interception.resolvedTarget_eq_some_iff {r : Interception} {m : MethodId} :
    r.resolvedTarget = some m ↔ r.Targets m := by
  constructor
  · intro h
    unfold resolvedTarget at h
    split at h
    · rename_i known
      cases h
      exact .reported known
    · rename_i j unknown native
      obtain ⟨before, p, after, pins, starts, rfl, first⟩ := NativeJump.target?_eq_some_iff.1 h
      exact .pinned unknown native pins starts first
    · cases h
  · intro h
    unfold resolvedTarget
    cases h with
    | reported known => rw [known]
    | pinned unknown native pins starts first =>
      rw [unknown, native]
      exact NativeJump.target?_eq_some_iff.2 ⟨_, _, _, pins, starts, rfl, first⟩

namespace Snapshot

/-! ### Adding to a group -/

section Insert

variable {target : MethodId} {r : Interception} {groups : List (MethodId × List Interception)}

/-- An interception of a new target begins a group at the end. -/
theorem insert_of_not_mem (new : target ∉ groups.map (·.1)) :
    insert target r groups = groups ++ [(target, [r])] := by
  induction groups with
  | nil => rfl
  | cons group groups ih =>
    rw [List.map_cons, List.mem_cons, not_or] at new
    rw [insert, if_neg (Ne.symm new.1), ih new.2, List.cons_append]

/-- An interception of a known target comes last in its group. -/
theorem insert_of_mem (distinct : (groups.map (·.1)).Nodup) (mem : target ∈ groups.map (·.1)) :
    insert target r groups =
      groups.map fun g => (g.1, g.2 ++ if g.1 = target then [r] else []) := by
  induction groups with
  | nil => cases mem
  | cons group groups ih =>
    rw [List.map_cons, List.nodup_cons] at distinct
    rw [insert, List.map_cons]
    split
    · rename_i same
      have others : groups.map (fun g => (g.1, g.2 ++ if g.1 = target then [r] else [])) =
          groups := by
        refine (List.map_congr_left fun g hg => ?_).trans (List.map_id' groups)
        have other : g.1 ≠ target := fun h =>
          distinct.1 (List.mem_map.2 ⟨g, hg, h.trans same.symm⟩)
        rw [if_neg other, List.append_nil]
      rw [others]
    · rename_i other
      rw [List.map_cons, List.mem_cons] at mem
      rw [List.append_nil, ih distinct.2 (mem.resolve_left (Ne.symm other))]

/-- The targets of groups are those there were and that of the new interception. -/
theorem mem_map_insert {m : MethodId} :
    m ∈ (insert target r groups).map (·.1) ↔ m ∈ groups.map (·.1) ∨ m = target := by
  induction groups with
  | nil => simp [insert]
  | cons group groups ih =>
    rw [insert]
    split
    · rename_i same
      rw [List.map_cons, List.map_cons, ← same]
      exact ⟨.inl, fun h => h.elim id fun h => h ▸ List.mem_cons_self ..⟩
    · rw [List.map_cons, List.map_cons, List.mem_cons, List.mem_cons, ih, or_assoc]

/-- Whether its group is there or not, a record joins those in groups. -/
theorem perm_insert :
    ((insert target r groups).flatMap (·.2)).Perm (groups.flatMap (·.2) ++ [r]) := by
  induction groups with
  | nil => exact .refl _
  | cons group groups ih =>
    rw [insert]
    split
    · rw [List.flatMap_cons, List.flatMap_cons, List.append_assoc, List.append_assoc]
      exact List.perm_append_comm.append_left group.2
    · rw [List.flatMap_cons, List.flatMap_cons, List.append_assoc]
      exact ih.append_left group.2

end Insert

/-! ### Groups of records -/

/-- Where the first record of a target stands among records. -/
def firstOn (records : List Interception) (target : MethodId) : Nat :=
  records.findIdx (·.resolvedTarget == some target)

/-- What groups say of records: each target has one group, groups come in the order of the first
records in them, a group has the records of its target in their order, and every record with a
target is in one. -/
structure Grouped (records : List Interception) (groups : List (MethodId × List Interception)) :
    Prop where
  targets : ∀ m, m ∈ groups.map (·.1) ↔ ∃ r ∈ records, r.resolvedTarget = some m
  ordered : (groups.map (·.1)).Pairwise fun m n => firstOn records m < firstOn records n
  members : ∀ g ∈ groups, g.2 = records.filter (·.resolvedTarget == some g.1)
  all : (groups.flatMap (·.2)).Perm (records.filter (·.resolvedTarget.isSome))

/-- No target has two groups, as there is one first record of it. -/
theorem Grouped.distinct {records : List Interception} {groups : List (MethodId × List Interception)}
    (h : Grouped records groups) : (groups.map (·.1)).Nodup := by
  refine h.ordered.imp ?_
  rintro m n before rfl
  exact Nat.lt_irrefl _ before

section Step

variable {records : List Interception} {groups : List (MethodId × List Interception)}
  {r : Interception} {target : MethodId}

/-- The first record of a target stays where it is. -/
theorem firstOn_concat (h : ∃ s ∈ records, s.resolvedTarget = some target) (r : Interception) :
    firstOn (records ++ [r]) target = firstOn records target := by
  obtain ⟨s, hs, on⟩ := h
  have inside : records.findIdx (·.resolvedTarget == some target) < records.length :=
    List.findIdx_lt_length_of_exists ⟨s, hs, beq_iff_eq.2 on⟩
  rw [firstOn, List.findIdx_append, if_pos inside, firstOn]

/-- A record of a new target is the first one of it. -/
theorem firstOn_concat_new (new : ∀ s ∈ records, s.resolvedTarget ≠ some target)
    (on : r.resolvedTarget = some target) : firstOn (records ++ [r]) target = records.length := by
  have none : records.findIdx (·.resolvedTarget == some target) = records.length :=
    List.findIdx_eq_length.2 fun s hs => beq_eq_false_iff_ne.2 (new s hs)
  rw [firstOn, List.findIdx_append, none, if_neg (Nat.lt_irrefl _), List.findIdx_singleton, on,
    beq_self_eq_true, if_pos rfl, Nat.zero_add]

/-- One of the interceptions has a property if one of the earlier ones has it, or the last one. -/
theorem exists_mem_concat (p : Interception → Prop) :
    (∃ s ∈ records ++ [r], p s) ↔ (∃ s ∈ records, p s) ∨ p r := by
  simp only [List.mem_append, List.mem_singleton, or_and_right, exists_or, exists_eq_left]

/-- Nothing is grouped into nothing. -/
theorem grouped_nil : Grouped [] [] where
  targets m := by simp
  ordered := .nil
  members g hg := by cases hg
  all := .refl _

/-- One more interception keeps targets in the order in which they came first. -/
theorem Grouped.ordered_concat (h : Grouped records groups) (r : Interception) :
    (groups.map (·.1)).Pairwise fun m n =>
      firstOn (records ++ [r]) m < firstOn (records ++ [r]) n := by
  refine h.ordered.imp_of_mem fun hm hn before => ?_
  rw [firstOn_concat ((h.targets _).1 hm), firstOn_concat ((h.targets _).1 hn)]
  exact before

/-- A record without a target leaves the groups as they are. -/
theorem Grouped.skip (h : Grouped records groups) (off : r.resolvedTarget = none) :
    Grouped (records ++ [r]) groups where
  targets m := by
    rw [h.targets, exists_mem_concat, off]
    simp
  ordered := h.ordered_concat r
  members g hg := by
    rw [List.filter_append, h.members g hg]
    simp [off]
  all := by
    rw [List.filter_append]
    simpa [off] using h.all

/-- **A record with a target joins its group**, which is opened behind the others if there was
none. -/
theorem Grouped.insert (h : Grouped records groups) (on : r.resolvedTarget = some target) :
    Grouped (records ++ [r]) (Snapshot.insert target r groups) where
  targets m := by
    rw [mem_map_insert, h.targets, exists_mem_concat, on, Option.some.injEq, eq_comm (a := m)]
  ordered := by
    by_cases mem : target ∈ groups.map (·.1)
    · rw [insert_of_mem h.distinct mem, List.map_map]
      exact h.ordered_concat r
    · rw [insert_of_not_mem mem, List.map_append, List.map_singleton, List.pairwise_append]
      refine ⟨h.ordered_concat r, List.pairwise_singleton _ _, fun m hm n hn => ?_⟩
      have known := (h.targets m).1 hm
      rw [List.mem_singleton.1 hn, firstOn_concat known, firstOn_concat_new (fun s hs found =>
        mem ((h.targets target).2 ⟨s, hs, found⟩)) on]
      obtain ⟨s, hs, found⟩ := known
      exact List.findIdx_lt_length_of_exists ⟨s, hs, beq_iff_eq.2 found⟩
  members g hg := by
    rw [List.filter_append]
    by_cases mem : target ∈ groups.map (·.1)
    · rw [insert_of_mem h.distinct mem] at hg
      obtain ⟨g, old, rfl⟩ := List.mem_map.1 hg
      rw [h.members g old]
      by_cases own : g.1 = target
      · simp [own, on]
      · simp [own, on, Ne.symm own]
    · rw [insert_of_not_mem mem, List.mem_append, List.mem_singleton] at hg
      rcases hg with old | rfl
      · have other : target ≠ g.1 := fun same => mem (same ▸ List.mem_map_of_mem old)
        rw [h.members g old]
        simp [on, other]
      · have none : records.filter (·.resolvedTarget == some target) = [] :=
          List.filter_eq_nil_iff.2 fun s hs found =>
            mem ((h.targets target).2 ⟨s, hs, eq_of_beq found⟩)
        simp [none, on]
  all := by
    rw [List.filter_append]
    simpa [on] using perm_insert.trans (h.all.append_right [r])

end Step

/-- What groups of all records but the last one become with it. -/
theorem groups_build_concat (records : List Interception) (r : Interception) :
    (build (records ++ [r])).groups = match r.resolvedTarget with
      | some target => insert target r (build records).groups
      | none => (build records).groups := by
  rw [build, List.foldl_append]
  rfl

/-- **A snapshot groups the interceptions by their targets.** -/
theorem grouped_build (records : List Interception) : Grouped records (build records).groups := by
  induction records using List.reverseRecOn with
  | nil => exact grouped_nil
  | append_singleton records r ih =>
    rw [groups_build_concat]
    rcases target : r.resolvedTarget with _ | m
    · exact ih.skip target
    · exact ih.insert target

/-- **A snapshot groups the records by their targets and loses none.**  The target of a record is the
method that was reported, or else for a native jump the first pinned one at the address. -/
theorem build_groups (records : List Interception) :
    Grouped records (build records).groups ∧ ((build records).groups.map (·.1)).Nodup ∧
      ∀ (r : Interception) (m : MethodId), r.resolvedTarget = some m ↔ r.Targets m :=
  ⟨grouped_build records, (grouped_build records).distinct,
    fun _ _ => Interception.resolvedTarget_eq_some_iff⟩

end Snapshot
end HookImage
