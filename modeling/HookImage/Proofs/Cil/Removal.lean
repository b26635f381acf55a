/-
# Taking out an instruction

Whatever named a removed instruction names its successor from then on.  Positions behind it
move down by one and all others stay, the successor's new position being the old one of the
removed instruction (`shift`), so a range between two boundaries loses the removed instruction
and nothing else (`range?_remove`), whichever boundary it was and whether or not the range runs
forward.

Where the last instruction goes there is no successor.  An end becomes the end of the body, which
is where the removed instruction stood; starts, filters and branches are left as they are
(`Shortens`).
-/

import HookImage.Cil.Body
import Mathlib.Data.List.Forall2
import Mathlib.Data.List.InsertIdx
import Mathlib.Data.List.Nodup

namespace HookImage

/-! ### Positions in a list without one of its members -/

section Lists

variable {α : Type} [DecidableEq α] {before after : List α} {x : α}

/-- Where a position is once the one at `k` is gone.  The position `k` itself is then that of the
next member, or the end. -/
def shift (k p : Nat) : Nat := if p ≤ k then p else p - 1

/-- Places up to the removed one stay. -/
theorem shift_of_le {k p : Nat} (h : p ≤ k) : shift k p = p := if_pos h

/-- Places behind the removed one move up by one. -/
@[simp] theorem shift_behind (k n : Nat) : shift k (k + (n + 1)) = k + n := by
  rw [shift, if_neg (by omega)]
  omega

/-- What stands nowhere in front is found at its place. -/
theorem findIdx?_middle (absent : x ∉ before) :
    (before ++ x :: after).findIdx? (· == x) = some before.length := by
  have none : before.findIdx? (· == x) = none :=
    List.findIdx?_eq_none_iff.2 fun y hy => beq_eq_false_iff_ne.2 fun e => absent (e ▸ hy)
  simp [List.findIdx?_append, none, List.findIdx?_cons]

/-- Any other member is found where it was, moved up if it stood behind the one that is gone. -/
theorem findIdx?_cut {y : α} (other : x ≠ y) :
    (before ++ after).findIdx? (· == y) =
      ((before ++ x :: after).findIdx? (· == y)).map (shift before.length) := by
  rw [List.findIdx?_append, List.findIdx?_append, List.findIdx?_cons, beq_eq_false_iff_ne.2 other]
  rcases found : before.findIdx? (· == y) with _ | p
  · rcases after.findIdx? (· == y) with _ | q
    · rfl
    · have moved : q + 1 + before.length = before.length + (q + 1) := Nat.add_comm _ _
      simp [moved, Nat.add_comm]
  · have low : p < before.length := (List.findIdx?_eq_some_iff_getElem.1 found).1
    rw [Option.some_or, Option.some_or, Option.map_some, shift_of_le (Nat.le_of_lt low)]

/-- A range between two positions loses the removed member and nothing else. -/
theorem range_cut (front : x ∉ before) (back : x ∉ after) (i j : Nat) :
    (((before ++ x :: after).take j).drop i).filter (· ≠ x) =
      ((before ++ after).take (shift before.length j)).drop (shift before.length i) := by
  have keep {xs : List α} (h : x ∉ xs) : xs.filter (· ≠ x) = xs :=
    List.filter_eq_self.2 fun y hy => by simpa using fun e : y = x => h (e ▸ hy)
  by_cases hj : j ≤ before.length
  · -- The range stops at or before the removed member, so it never had it.
    rw [shift_of_le hj, List.take_append_of_le_length hj, List.take_append_of_le_length hj,
      keep fun h => front (List.mem_of_mem_take (List.mem_of_mem_drop h))]
    by_cases hi : i ≤ before.length
    · rw [shift_of_le hi]
    · -- The range stops before it starts, with and without the removed member.
      have past : before.length ≤ shift before.length i := by
        rw [shift, if_neg hi]
        omega
      rw [List.drop_eq_nil_of_le (by rw [List.length_take]; omega),
        List.drop_eq_nil_of_le (by rw [List.length_take]; omega)]
  · -- The range stops behind it, and has it exactly if it does not start behind it.
    obtain ⟨n, rfl⟩ : ∃ n, j = before.length + (n + 1) := ⟨j - before.length - 1, by omega⟩
    have rest : x ∉ after.take n := fun h => back (List.mem_of_mem_take h)
    rw [shift_behind, List.take_length_add_append, List.take_length_add_append,
      List.take_succ_cons]
    by_cases hi : i ≤ before.length
    · rw [shift_of_le hi, List.drop_append_of_le_length hi, List.drop_append_of_le_length hi,
        List.filter_append, List.filter_cons_of_neg (by simp), keep rest,
        keep fun h => front (List.mem_of_mem_drop h)]
    · obtain ⟨m, rfl⟩ : ∃ m, i = before.length + (m + 1) := ⟨i - before.length - 1, by omega⟩
      rw [shift_behind, List.drop_length_add_append, List.drop_length_add_append,
        List.drop_succ_cons, keep fun h => rest (List.mem_of_mem_drop h)]

end Lists

namespace MethodBody

/-- The numbers of the instructions, in order. -/
def ids (b : MethodBody) : List InstrId := b.instructions.map (·.id)

/-- Where a range stops: before an instruction of the body, or at its end. -/
def stop? (b : MethodBody) : Option InstrId → Option Nat
  | some id => b.position? id
  | none => some b.length

/-- The instructions from `start` up to `stop`, if both are in the body.  A range that stops
before it starts has none. -/
def range? (b : MethodBody) (start : InstrId) (stop : Option InstrId) : Option (List InstrId) :=
  (b.position? start).bind fun i => (b.stop? stop).map fun j => (b.ids.take j).drop i

/-- The instructions that a region protects. -/
def protected? (b : MethodBody) (r : Region) : Option (List InstrId) := b.range? r.tryStart r.tryEnd

/-- The instructions of the handler of a region. -/
def handled? (b : MethodBody) (r : Region) : Option (List InstrId) :=
  b.range? r.handlerStart r.handlerEnd

/-- The instructions of the filter of a region, up to the handler. -/
def filtered? (b : MethodBody) (r : Region) : Option (List InstrId) :=
  r.filterStart.bind fun start => b.range? start (some r.handlerStart)

/-- The body without the instruction of a number, with everything else as it is. -/
def without (b : MethodBody) (gone : InstrId) : MethodBody :=
  { b with instructions := b.instructions.filter (·.id ≠ gone) }

/-- The place of an instruction is that of its number. -/
theorem position?_eq (b : MethodBody) (id : InstrId) :
    b.position? id = b.ids.findIdx? (· == id) := by
  rw [ids, List.findIdx?_map]
  rfl

/-- There are as many numbers as instructions. -/
@[simp] theorem length_ids (b : MethodBody) : b.ids.length = b.length := List.length_map ..

/-! ### Ranges without one of their instructions -/

section Ranges

variable {b b' : MethodBody} {before after : List InstrId} {gone : InstrId}

/-- A removal moves up the places behind it and keeps those in front. -/
theorem position?_other (old : b.ids = before ++ gone :: after) (new : b'.ids = before ++ after)
    {id : InstrId} (other : gone ≠ id) :
    b'.position? id = (b.position? id).map (shift before.length) := by
  rw [position?_eq, position?_eq, old, new, findIdx?_cut other]

/-- The end of the code moves up with the instructions. -/
theorem stop?_none (old : b.ids = before ++ gone :: after) (new : b'.ids = before ++ after) :
    b'.stop? none = (b.stop? none).map (shift before.length) := by
  have few := congrArg List.length new
  have many := congrArg List.length old
  rw [length_ids, List.length_append] at few many
  rw [stop?, stop?, few, many, List.length_cons, Option.map_some, shift_behind]

/-- Where both boundaries are where the old ones were, a range loses the removed instruction
and nothing else. -/
theorem range?_remove (old : b.ids = before ++ gone :: after) (new : b'.ids = before ++ after)
    (distinct : b.ids.Nodup) {start start' : InstrId} {stop stop' : Option InstrId}
    (starts : b'.position? start' = (b.position? start).map (shift before.length))
    (stops : b'.stop? stop' = (b.stop? stop).map (shift before.length)) :
    b'.range? start' stop' = (b.range? start stop).map (·.filter (· ≠ gone)) := by
  rw [old, List.nodup_append, List.nodup_cons] at distinct
  obtain ⟨-, ⟨back, -⟩, apart⟩ := distinct
  have front : gone ∉ before := fun h => apart _ h _ (List.mem_cons_self ..) rfl
  rw [range?, range?, starts, stops, old, new]
  rcases b.position? start with _ | i
  · rfl
  · rcases b.stop? stop with _ | j
    · rfl
    · exact congrArg some (range_cut front back i j).symm

end Ranges

/-- What is removed is the instruction at the place. -/
theorem exists_remove_iff {b : MethodBody} {index : Nat} {gone : Instruction} :
    (∃ b', b.remove index = some (gone, b')) ↔ b.instructions[index]? = some gone := by
  constructor
  · rintro ⟨b', removed⟩
    unfold remove at removed
    split at removed
    · cases removed
    · rename_i found
      cases removed
      exact found
  · intro stood
    rw [remove, stood]
    exact ⟨_, rfl⟩

/-- What an instruction keeps when another one goes: its number and its operation. -/
def shape (i : Instruction) : InstrId × Opcode := (i.id, i.opcode)

/-- A removal takes out one instruction and hands out no number. -/
theorem shape_remove {b b' : MethodBody} {index : Nat} {gone : Instruction}
    (h : b.remove index = some (gone, b')) : b'.nextId = b.nextId ∧
      b'.instructions.map shape = (b.instructions.map shape).eraseIdx index := by
  unfold remove at h
  split at h
  · cases h
  · cases h
    refine ⟨rfl, ?_⟩
    dsimp only
    rw [List.eraseIdx_map]
    split
    · rw [redirectAll_eq_map, List.map_map]
      rfl
    · rfl

/-! ### An instruction with a successor -/

/-- Removing an instruction that has a successor redirects branches and regions to that. -/
theorem remove_middle {b b' : MethodBody} {before after : List Instruction}
    {gone next : Instruction} (h : b.instructions = before ++ gone :: next :: after)
    (removed : b.remove before.length = some (gone, b')) :
    b'.instructions = (before ++ next :: after).map (redirect gone.id next.id) ∧
      b'.regions = b.regions.map (·.retarget gone.id (some next.id)) := by
  have erased : b.instructions.eraseIdx before.length = before ++ next :: after := by
    rw [h, List.eraseIdx_append_of_length_le (Nat.le_refl _), Nat.sub_self]
    rfl
  have stood : b.instructions[before.length]? = some gone := by simp [h]
  have follows : (before ++ next :: after)[before.length]? = some next := by simp
  rw [remove, stood] at removed
  simp only [erased, follows, Option.map_some, redirectAll_eq_map] at removed
  cases removed
  exact ⟨rfl, rfl⟩

/-- What a body keeps when an instruction goes that has a successor.  Nothing names it any more,
what named an instruction of the body still does, and regions cover what they covered but for
the instruction itself. -/
structure Closes (b b' : MethodBody) (gone : InstrId) : Prop where
  ids : b'.ids = b.ids.filter (· ≠ gone)
  unnamed : gone ∉ b'.referencedIds
  resolved : List.Forall₂ (fun old new => old ∈ b.ids → new ∈ b'.ids)
    (b.without gone).referencedIds b'.referencedIds
  ranges : List.Forall₂ (fun r r' =>
    b'.protected? r' = (b.protected? r).map (·.filter (· ≠ gone)) ∧
    b'.handled? r' = (b.handled? r).map (·.filter (· ≠ gone)) ∧
    b'.filtered? r' = (b.filtered? r).map (·.filter (· ≠ gone))) b.regions b'.regions

/-- The number that stands for another once `gone` gives way to `next`. -/
def moved (gone next id : InstrId) : InstrId := if id = gone then next else id

/-- Redirecting an instruction moves the numbers that it names. -/
theorem instrIds_redirect (gone next : InstrId) (i : Instruction) :
    (redirect gone next i).operand.instrIds = i.operand.instrIds.map (moved gone next) := by
  obtain ⟨id, op, operand⟩ := i
  cases operand <;> rfl

/-- With a successor every boundary moves alike. -/
theorem retarget_some (gone next : InstrId) (r : Region) :
    r.retarget gone (some next) = { r with
      tryStart := moved gone next r.tryStart
      tryEnd := r.tryEnd.map (moved gone next)
      handlerStart := moved gone next r.handlerStart
      handlerEnd := r.handlerEnd.map (moved gone next)
      filterStart := r.filterStart.map (moved gone next) } := by
  have stop (id : Option InstrId) :
      (if id = some gone then some next else id) = id.map (moved gone next) := by
    cases id with
    | none => rfl
    | some id => by_cases h : id = gone <;> simp [moved, h]
  simp only [Region.retarget, stop]
  rfl

/-- Redirecting a region moves the numbers that it names. -/
theorem anchors_retarget (gone next : InstrId) (r : Region) :
    (r.retarget gone (some next)).anchors = r.anchors.map (moved gone next) := by
  rw [retarget_some]
  simp only [Region.anchors, List.map_cons, List.map_append, Option.toList_map]

/-- After a removal a body names what it named, with the successor in place of what is gone. -/
theorem referencedIds_redirect {b b' : MethodBody} {gone next : InstrId}
    (instructions : b'.instructions = b.instructions.map (redirect gone next))
    (regions : b'.regions = b.regions.map (·.retarget gone (some next))) :
    b'.referencedIds = b.referencedIds.map (moved gone next) := by
  simp only [referencedIds, instructions, regions, List.flatMap_map, List.map_append,
    List.map_flatMap, instrIds_redirect, anchors_retarget]

section Middle

variable {b b' : MethodBody} {before after : List InstrId} {gone next : InstrId}

/-- The successor stands where the removed instruction stood. -/
theorem position?_moved (old : b.ids = before ++ gone :: next :: after)
    (new : b'.ids = before ++ next :: after) (distinct : b.ids.Nodup) (id : InstrId) :
    b'.position? (moved gone next id) = (b.position? id).map (shift before.length) := by
  unfold moved
  split
  · rename_i same
    rw [old, List.nodup_append] at distinct
    obtain ⟨-, -, apart⟩ := distinct
    rw [same, position?_eq, position?_eq, old, new,
      findIdx?_middle fun h => apart _ h _ (List.mem_cons_self ..) rfl,
      findIdx?_middle fun h => apart _ h _ (by simp) rfl, Option.map_some,
      shift_of_le (Nat.le_refl _)]
  · rename_i other
    exact position?_other old new (Ne.symm other)

/-- The end of a region stays where it was, though it is another instruction now. -/
theorem stop?_moved (old : b.ids = before ++ gone :: next :: after)
    (new : b'.ids = before ++ next :: after) (distinct : b.ids.Nodup) (stop : Option InstrId) :
    b'.stop? (stop.map (moved gone next)) = (b.stop? stop).map (shift before.length) := by
  cases stop with
  | none => exact stop?_none old new
  | some id => exact position?_moved old new distinct id

end Middle

/-- Redirecting instructions keeps their numbers. -/
theorem ids_redirect {b : MethodBody} {gone next : InstrId} {is : List Instruction}
    (h : b.instructions = is.map (redirect gone next)) : b.ids = is.map (·.id) := by
  rw [ids, h, List.map_map]
  rfl

/-- The instructions around one whose number no other has. -/
theorem without_eq {b : MethodBody} {before after : List Instruction} {gone : Instruction}
    (distinct : b.ids.Nodup) (stood : b.instructions = before ++ gone :: after) :
    (b.without gone.id).instructions = before ++ after := by
  rw [ids, stood, List.map_append, List.map_cons, List.nodup_middle, List.nodup_cons,
    ← List.map_append] at distinct
  have kept : (before ++ after).filter (·.id ≠ gone.id) = before ++ after :=
    List.filter_eq_self.2 fun i hi => decide_eq_true fun same =>
      distinct.1 (same ▸ List.mem_map_of_mem hi)
  rw [List.filter_append] at kept
  rw [without, stood, List.filter_append, List.filter_cons_of_neg (by simp), kept]

/-- What is left of the numbers are those that are not removed. -/
theorem ids_without (b : MethodBody) (gone : InstrId) :
    (b.without gone).ids = b.ids.filter (· ≠ gone) := by
  rw [ids, without, ids, List.filter_map]
  rfl

/-- **A removed instruction gives way to its successor.** -/
theorem closes_remove {b b' : MethodBody} {before after : List Instruction}
    {gone next : Instruction} (distinct : b.ids.Nodup)
    (stood : b.instructions = before ++ gone :: next :: after)
    (removed : b.remove before.length = some (gone, b')) : Closes b b' gone.id := by
  obtain ⟨instructions, regions⟩ := remove_middle stood removed
  have rest := without_eq distinct stood
  rw [← rest] at instructions
  have kept : b'.ids = b.ids.filter (· ≠ gone.id) := by
    rw [ids_redirect instructions, ← ids_without, ids]
  have references := referencedIds_redirect instructions regions
  -- The successor is still there, so it is not the instruction that went.
  have differs : next.id ≠ gone.id := by
    have inside : next.id ∈ b.ids.filter (· ≠ gone.id) := by
      rw [← ids_without, ids, rest]
      simp
    simpa using (List.mem_filter.1 inside).2
  have old : b.ids = before.map (·.id) ++ gone.id :: next.id :: after.map (·.id) := by
    simp [ids, stood]
  have new : b'.ids = before.map (·.id) ++ next.id :: after.map (·.id) := by
    rw [kept, ← ids_without, ids, rest]
    simp
  have starts := position?_moved old new distinct
  have stops := stop?_moved old new distinct
  refine ⟨kept, ?_, ?_, ?_⟩
  · rw [references, List.mem_map]
    rintro ⟨id, -, h⟩
    unfold moved at h
    split at h
    · exact differs h
    · rename_i other
      exact other h
  · rw [references, List.forall₂_map_right_iff, List.forall₂_same]
    intro id _ inside
    rw [kept, List.mem_filter, decide_eq_true_eq]
    unfold moved
    split
    · refine ⟨?_, differs⟩
      rw [old]
      simp
    · rename_i other
      exact ⟨inside, other⟩
  · rw [regions, List.forall₂_map_right_iff, List.forall₂_same]
    intro r _
    rw [retarget_some]
    refine ⟨range?_remove old new distinct (starts _) (stops _),
      range?_remove old new distinct (starts _) (stops _), ?_⟩
    unfold filtered?
    rcases r.filterStart with _ | start
    · rfl
    · exact range?_remove old new distinct (starts start) (stops (some r.handlerStart))

/-! ### The last instruction -/

/-- Removing the last instruction redirects nothing, and regions lose an end that it was. -/
theorem remove_last {b b' : MethodBody} {before : List Instruction} {gone : Instruction}
    (h : b.instructions = before ++ [gone]) (removed : b.remove before.length = some (gone, b')) :
    b'.instructions = before ∧ b'.regions = b.regions.map (·.retarget gone.id none) := by
  have erased : b.instructions.eraseIdx before.length = before := by
    rw [h, List.eraseIdx_append_of_length_le (Nat.le_refl _), Nat.sub_self]
    simp
  have stood : b.instructions[before.length]? = some gone := by simp [h]
  rw [remove, stood] at removed
  simp only [erased, List.getElem?_length, Option.map_none] at removed
  cases removed
  exact ⟨rfl, rfl⟩

/-- What a body keeps when its last instruction goes.  Branches, starts and filters are left as
they are, so that those to the removed instruction dangle and no others, and an end there becomes
the end of the body.  Whatever starts at another instruction covers what it covered but for the
removed one. -/
structure Shortens (b b' : MethodBody) (gone : InstrId) : Prop where
  ids : b'.ids = b.ids.filter (· ≠ gone)
  dangling : ∀ id ∈ b'.referencedIds, id ∈ b.ids → id ∉ b'.ids → id = gone
  instructions : b'.instructions = (b.without gone).instructions
  starts : List.Forall₂ (fun r r' => r'.tryStart = r.tryStart ∧ r'.handlerStart = r.handlerStart ∧
    r'.filterStart = r.filterStart) b.regions b'.regions
  ends : List.Forall₂ (fun r r' =>
    r'.tryEnd = r.tryEnd.filter (· ≠ gone) ∧ r'.handlerEnd = r.handlerEnd.filter (· ≠ gone))
    b.regions b'.regions
  ranges : List.Forall₂ (fun r r' =>
    (r.tryStart ≠ gone → b'.protected? r' = (b.protected? r).map (·.filter (· ≠ gone))) ∧
    (r.handlerStart ≠ gone → b'.handled? r' = (b.handled? r).map (·.filter (· ≠ gone))) ∧
    (r.handlerStart ≠ gone → r.filterStart ≠ some gone →
      b'.filtered? r' = (b.filtered? r).map (·.filter (· ≠ gone)))) b.regions b'.regions

/-- Without a successor only ends move. -/
theorem retarget_none (gone : InstrId) (r : Region) :
    r.retarget gone none = { r with
      tryEnd := r.tryEnd.filter (· ≠ gone)
      handlerEnd := r.handlerEnd.filter (· ≠ gone) } := by
  have start (id : InstrId) : (if id = gone then (none : Option InstrId).getD id else id) = id :=
    ite_self id
  have stop (id : Option InstrId) :
      (if id = some gone then none else id) = id.filter (· ≠ gone) := by
    cases id with
    | none => rfl
    | some id => by_cases h : id = gone <;> simp [Option.filter, h]
  simp only [Region.retarget, stop, start]
  rcases r with ⟨_, _, _, _, _, _ | _, _⟩ <;> rfl

/-- An end at the removed instruction is where the body ends then. -/
theorem stop?_filter {b b' : MethodBody} {before : List InstrId} {gone : InstrId}
    (old : b.ids = before ++ [gone]) (new : b'.ids = before) (distinct : b.ids.Nodup)
    (stop : Option InstrId) :
    b'.stop? (stop.filter (· ≠ gone)) = (b.stop? stop).map (shift before.length) := by
  have new' : b'.ids = before ++ [] := by rw [new, List.append_nil]
  rcases stop with _ | id
  · exact stop?_none old new'
  · by_cases same : id = gone
    · have absent : gone ∉ before := by
        rw [old, List.nodup_middle, List.append_nil, List.nodup_cons] at distinct
        exact distinct.1
      have whole : b'.length = before.length := by rw [← length_ids, new]
      rw [same, Option.filter_some, if_neg (by simp), stop?, stop?, position?_eq, old,
        findIdx?_middle absent, whole, Option.map_some, shift_of_le (Nat.le_refl _)]
    · rw [Option.filter_some, if_pos (by simpa using same)]
      exact position?_other old new' (Ne.symm same)

/-- **The last instruction goes** without a successor. -/
theorem shortens_remove {b b' : MethodBody} {before : List Instruction} {gone : Instruction}
    (distinct : b.ids.Nodup) (stood : b.instructions = before ++ [gone])
    (removed : b.remove before.length = some (gone, b')) : Shortens b b' gone.id := by
  obtain ⟨instructions, regions⟩ := remove_last stood removed
  have rest := without_eq distinct stood
  rw [List.append_nil] at rest
  have old : b.ids = before.map (·.id) ++ [gone.id] := by simp [ids, stood]
  have new : b'.ids = before.map (·.id) := by rw [ids, instructions]
  have new' : b'.ids = before.map (·.id) ++ [] := by rw [new, List.append_nil]
  have stops := stop?_filter old new distinct
  have starts {id : InstrId} (other : id ≠ gone.id) := position?_other old new' (Ne.symm other)
  have same {p : Region → Region → Prop} (h : ∀ r, p r (r.retarget gone.id none)) :
      List.Forall₂ p b.regions b'.regions := by
    rw [regions, List.forall₂_map_right_iff, List.forall₂_same]
    exact fun r _ => h r
  have kept : b'.ids = b.ids.filter (· ≠ gone.id) := by
    rw [← ids_without, ids, ids, rest, instructions]
  refine ⟨kept, ?_, ?_, same fun r => ?_, same fun r => ?_, same fun r => ?_⟩
  · intro id _ inside outside
    rw [kept, List.mem_filter, decide_eq_true_eq] at outside
    by_contra other
    exact outside ⟨inside, other⟩
  · rw [rest, instructions]
  · rw [retarget_none]
    exact ⟨rfl, rfl, rfl⟩
  · rw [retarget_none]
    exact ⟨rfl, rfl⟩
  · rw [retarget_none]
    refine ⟨fun other => range?_remove old new' distinct (starts other) (stops _),
      fun other => range?_remove old new' distinct (starts other) (stops _), fun other apart => ?_⟩
    unfold filtered?
    rcases filter : r.filterStart with _ | start
    · rfl
    · refine range?_remove old new' distinct (starts ?_) (starts other)
      rintro rfl
      exact apart filter

end MethodBody
end HookImage
