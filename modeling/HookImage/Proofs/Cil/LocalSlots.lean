/-
# Slots of local variables

A slot has sixteen bits, and a variable is refused once there are as many slots as sixteen bits can
tell.  So slots are given out in order up to the last number of sixteen bits, which makes 65536 of
them, one more than a body may have (`MethodBody.addEach_eq`).  The limit of 65535 slots is kept by
runs of at most as many calls and by no others (`MethodBody.addEach_limit`).
-/

import Mathlib
import HookImage.Cil.Body

namespace HookImage

namespace MethodBody

variable {b : MethodBody} {v : LocalVar} {vs : List LocalVar}

/-- Adds local variables one after the other and gives the answers.  One that is refused leaves the
body as it is. -/
def addEach (b : MethodBody) : List LocalVar → List (Except Failure Nat) × MethodBody
  | [] => ([], b)
  | v :: vs =>
    match b.addLocal v with
    | .ok (slot, grown) =>
      let (answers, last) := grown.addEach vs
      (.ok slot :: answers, last)
    | .error e =>
      let (answers, last) := b.addEach vs
      (.error e :: answers, last)

/-- What the call is answered before which there were `taken` slots or calls. -/
def slotAnswer (taken : Nat) : Except Failure Nat :=
  if taken < 0x10000 then .ok taken else .error .tooManyLocals

/-- A call is refused only behind 65536 slots, and always for the same reason. -/
theorem slotAnswer_eq_error {taken : Nat} {e : Failure} (h : slotAnswer taken = .error e) :
    0x10000 ≤ taken ∧ e = .tooManyLocals := by
  unfold slotAnswer at h
  split at h
  · cases h
  · rename_i full
    cases h
    exact ⟨Nat.not_lt.1 full, rfl⟩

/-- While there is room, a new variable gets the next slot. -/
theorem addLocal_of_lt (room : b.locals.size < 0x10000) :
    b.addLocal v = .ok (b.locals.size, { b with locals := b.locals.push v }) := if_pos room

/-- A full body refuses another variable. -/
theorem addLocal_of_le (full : 0x10000 ≤ b.locals.size) : b.addLocal v = .error .tooManyLocals :=
  if_neg (Nat.not_lt.2 full)

/-- A full body refuses every call of a run and stays as it is. -/
theorem addEach_of_le (full : 0x10000 ≤ b.locals.size) (vs : List LocalVar) :
    b.addEach vs = (List.replicate vs.length (.error .tooManyLocals), b) := by
  induction vs with
  | nil => rfl
  | cons v vs ih => rw [addEach, addLocal_of_le full, ih]; rfl

/-- While there is room, the first call of a run gets the next slot. -/
theorem addEach_of_lt (room : b.locals.size < 0x10000) (v : LocalVar) (vs : List LocalVar) :
    b.addEach (v :: vs) =
      let rest := { b with locals := b.locals.push v }.addEach vs
      (.ok b.locals.size :: rest.1, rest.2) := by
  rw [addEach, addLocal_of_lt room]

/-- **A run of calls fills the slots in order**, and what is refused leaves the body as it is. -/
theorem addEach_eq (b : MethodBody) (vs : List LocalVar) :
    b.addEach vs = ((List.range' b.locals.size vs.length).map slotAnswer,
      { b with locals := b.locals ++ (vs.take (0x10000 - b.locals.size)).toArray }) := by
  induction vs generalizing b with
  | nil => simp [addEach]
  | cons v vs ih =>
    by_cases room : b.locals.size < 0x10000
    · have took : (v :: vs).take (0x10000 - b.locals.size) =
          v :: vs.take (0x10000 - (b.locals.push v).size) := by
        rw [Array.size_push, ← List.take_succ_cons]
        congr 1
        omega
      have behind : b.locals.push v ++ (vs.take (0x10000 - (b.locals.push v).size)).toArray =
          b.locals ++ (v :: vs.take (0x10000 - (b.locals.push v).size)).toArray := by
        rw [← Array.toList_inj]
        simp
      rw [addEach_of_lt room, ih, List.length_cons, List.range'_succ, List.map_cons, took, ← behind,
        slotAnswer, if_pos room, Array.size_push]
    · have full := Nat.not_lt.1 room
      have none : 0x10000 - b.locals.size = 0 := by omega
      have refused : (List.range' b.locals.size (v :: vs).length).map slotAnswer =
          List.replicate (v :: vs).length (.error .tooManyLocals) := by
        refine List.eq_replicate_iff.2 ⟨by simp, fun answer h => ?_⟩
        obtain ⟨n, place, rfl⟩ := List.mem_map.1 h
        have := (List.mem_range'_1.1 place).1
        exact if_neg (by omega)
      rw [addEach_of_le full, refused, none]
      simp

/-- Adding a variable several times is a run of calls. -/
theorem addLocals_eq (b : MethodBody) (v : LocalVar) (times : Nat) :
    b.addLocals v times = (b.addEach (List.replicate times v)).2 := by
  rw [addEach_eq, addLocals, List.take_replicate, List.toArray_replicate, Nat.min_comm]

/-- On a body without local variables the call is answered by how many calls there were. -/
theorem addEach_of_fresh (fresh : b.locals = #[]) (vs : List LocalVar) :
    b.addEach vs = ((List.range vs.length).map slotAnswer,
      { b with locals := (vs.take 0x10000).toArray }) := by
  rw [addEach_eq, fresh, List.range_eq_range', Array.empty_append]
  rfl

/-- The slots that are given out. -/
theorem filterMap_slotAnswer (n : Nat) :
    ((List.range n).map slotAnswer).filterMap Except.toOption = List.range (min n 0x10000) := by
  induction n with
  | zero => rfl
  | succ n ih =>
    rw [List.range_succ, List.map_append, List.filterMap_append, ih]
    by_cases room : n < 0x10000
    · rw [Nat.min_eq_left (Nat.le_of_lt room), Nat.min_eq_left room, List.range_succ,
        List.map_singleton, slotAnswer, if_pos room]
      rfl
    · have full := Nat.not_lt.1 room
      rw [Nat.min_eq_right full, Nat.min_eq_right (Nat.le_succ_of_le full), List.map_singleton,
        slotAnswer, if_neg room]
      exact List.append_nil _

/-- **A body gets 65536 slots, one more than it may have.**  In a run of calls on a body without
local variables the slots are given out in order and nothing else changes, and a refused call
changes nothing at all.  The limit of 65535 slots is kept by exactly the runs of at most as many
calls. -/
theorem addEach_limit (fresh : b.locals = #[]) (vs : List LocalVar) :
    ((∀ n, (b.addEach (vs.take n)).2.locals.size ≤ 0xFFFF) ↔ vs.length ≤ 0xFFFF) ∧
    (b.addEach vs).1.filterMap Except.toOption = List.range (min vs.length 0x10000) ∧
    (∀ n e, (b.addEach vs).1[n]? = some (.error e) → 0x10000 ≤ n ∧ e = .tooManyLocals ∧
      (b.addEach (vs.take (n + 1))).2 = (b.addEach (vs.take n)).2) ∧
    (b.addEach vs).2 = { b with locals := (vs.take 0x10000).toArray } := by
  simp only [addEach_of_fresh fresh, filterMap_slotAnswer, List.size_toArray, List.length_take,
    List.take_take, true_and, and_true]
  refine ⟨⟨fun kept => ?_, fun few n => by omega⟩, fun n e refused => ?_⟩
  · have := kept vs.length
    omega
  · rw [List.getElem?_map] at refused
    obtain ⟨k, place, answer⟩ := Option.map_eq_some_iff.1 refused
    obtain ⟨bound, same⟩ := List.getElem?_eq_some_iff.1 place
    rw [List.getElem_range] at same
    subst same
    obtain ⟨full, rfl⟩ := slotAnswer_eq_error answer
    exact ⟨full, rfl, by rw [Nat.min_eq_left (by omega), Nat.min_eq_left full]⟩

/-- The hypothesis is satisfiable: 65535 calls on a body that only returns keep the limit.  One more
does not: it is given the slot 65535, and the body then has 65536 slots. -/
theorem addEach_limit_idle :
    let idle := ofCode [(.ret, .none)]
    let number : LocalVar := ⟨.primitive .int32, false⟩
    (∀ n, (idle.addEach ((List.replicate 0xFFFF number).take n)).2.locals.size ≤ 0xFFFF) ∧
      (¬∀ n, (idle.addEach ((List.replicate 0x10000 number).take n)).2.locals.size ≤ 0xFFFF) ∧
      (idle.addEach (List.replicate 0x10000 number)).1.filterMap Except.toOption =
        List.range 0x10000 ∧
      (idle.addLocals number 0x10000).locals.size = 0x10000 := by
  intro idle number
  have fresh : idle.locals = #[] := rfl
  obtain ⟨kept, -⟩ := addEach_limit fresh (List.replicate 0xFFFF number)
  obtain ⟨broken, slots, -, last⟩ := addEach_limit fresh (List.replicate 0x10000 number)
  have full : (idle.addLocals number 0x10000).locals.size = 0x10000 := by
    rw [addLocals_eq, last]
    dsimp only
    rw [List.size_toArray, List.length_take, List.length_replicate, Nat.min_self]
  rw [List.length_replicate] at kept broken slots
  exact ⟨kept.2 (Nat.le_refl _), fun all => absurd (broken.1 all) (by decide), slots, full⟩

end MethodBody
end HookImage
