/-
# Edits of a body

Whatever a body is edited with, directly or through a cursor, its instructions keep distinct
numbers, and a number that was handed out is not handed out again and not placed twice, as long
as fewer than `2 ^ 32` numbers are used.  Removals are then as `Closes` and `Shortens` say
(`Reached.sound`).

A `Workbench` keeps beside the body which numbers were handed out and which were placed.  The
invariant (`Numbered`) does not say what regions or branches name, so it needs no assumption about
them: the numbers handed out are those from zero on, everything placed was handed out, and what
is in the body was placed.
-/

import HookImage.Cil.Cursor
import HookImage.Proofs.Cil.Removal
import HookImage.Proofs.Success
import Mathlib.Data.List.Perm.Basic

namespace HookImage

/-- A body under edit, with the numbers handed out and the numbers placed so far, in order. -/
structure Workbench where
  cursor : Cursor
  issued : List InstrId := []
  placed : List InstrId := []

/-- An edit of a body, or a step of a cursor in it. -/
inductive Edit where
  | push (op : Opcode) (operand : Operand)
  | insert (index : Nat) (op : Opcode) (operand : Operand)
  | replace (index : Nat) (op : Opcode) (operand : Operand)
  | remove (index : Nat)
  /-- Takes a number for an instruction that is pushed later. -/
  | reserve
  | pushReserved (id : InstrId) (op : Opcode) (operand : Operand)
  /-- Adds an exception region. -/
  | guard (r : Region)
  | goto (index : Nat)
  | gotoNext (p : Instruction → Bool)
  | gotoPrev (p : Instruction → Bool)
  | emit (op : Opcode) (operand : Operand)
  /-- Removes the instruction behind the cursor. -/
  | cut
  /-- Replaces the instruction behind the cursor. -/
  | overwrite (op : Opcode) (operand : Operand)

namespace Workbench

/-- A new body. -/
def empty : Workbench := { cursor := { body := {} } }

/-- The body under edit. -/
def body (w : Workbench) : MethodBody := w.cursor.body

/-- A workbench with another body and a new cursor. -/
def withBody (w : Workbench) (b : MethodBody) : Workbench := { w with cursor := { body := b } }

end Workbench

namespace Edit

/-- Carries out an edit.  One that is refused changes nothing. -/
def apply (w : Workbench) : Edit → Workbench
  | push op operand =>
    let (id, b) := w.body.push op operand
    { cursor := { body := b }, issued := w.issued ++ [id], placed := w.placed ++ [id] }
  | insert index op operand =>
    let (id, b) := w.body.insert index op operand
    { cursor := { body := b }, issued := w.issued ++ [id], placed := w.placed ++ [id] }
  | replace index op operand =>
    match w.body.replace index op operand with
    | .ok b => w.withBody b
    | .error _ => w
  | remove index =>
    match w.body.remove index with
    | some (_, b) => w.withBody b
    | none => w
  | reserve =>
    let (id, b) := w.body.fresh
    { cursor := { body := b }, issued := w.issued ++ [id], placed := w.placed }
  | pushReserved id op operand =>
    { cursor := { body := w.body.pushReserved id op operand }
      issued := w.issued
      placed := w.placed ++ [id] }
  | guard r => w.withBody { w.body with regions := w.body.regions ++ [r] }
  | goto index => { w with cursor := w.cursor.goto index }
  | gotoNext p => { w with cursor := (w.cursor.gotoNext? p).getD w.cursor }
  | gotoPrev p => { w with cursor := (w.cursor.gotoPrev? p).getD w.cursor }
  | emit op operand =>
    let (id, c) := w.cursor.emit op operand
    { cursor := c, issued := w.issued ++ [id], placed := w.placed ++ [id] }
  | cut => { w with cursor := w.cursor.remove.2 }
  | overwrite op operand =>
    match w.cursor.replace op operand with
    | .ok c => { w with cursor := c }
    | .error _ => w

/-- Whether an edit may be made: a number is pushed that was handed out and not placed. -/
def Allowed (w : Workbench) : Edit → Prop
  | pushReserved id _ _ => id ∈ w.issued ∧ id ∉ w.placed
  | _ => True

instance (w : Workbench) (e : Edit) : Decidable (e.Allowed w) :=
  match e with
  | pushReserved id _ _ => inferInstanceAs (Decidable (id ∈ w.issued ∧ id ∉ w.placed))
  | push .. | insert .. | replace .. | remove _ | reserve | guard _ | goto _ | gotoNext _
  | gotoPrev _ | emit .. | cut | overwrite .. => isTrue trivial

/-- Where an edit removes an instruction. -/
def removesAt? (w : Workbench) : Edit → Option Nat
  | remove index => some index
  | cut => some w.cursor.index
  | _ => none

end Edit

/-- The workbenches that edits of a new body lead to. -/
inductive Workbench.Reached : Workbench → Prop where
  | empty : Reached .empty
  | edit {w : Workbench} {e : Edit} (h : Reached w) (allowed : e.Allowed w) : Reached (e.apply w)

namespace Workbench

/-- The number that is handed out behind `n` others. -/
def nth (n : Nat) : InstrId := ⟨UInt32.ofNat n⟩

/-- What every edit preserves: numbers are handed out in order, only those are placed, once each,
and the instructions of the body carry placed numbers, each its own. -/
structure Numbered (w : Workbench) : Prop where
  next : w.body.nextId = UInt32.ofNat w.issued.length
  issued : w.issued = (List.range w.issued.length).map nth
  placed_subset : w.placed ⊆ w.issued
  placed : w.placed.Nodup
  ids_subset : w.body.ids ⊆ w.placed
  ids : w.body.ids.Nodup

/-- The first 2³² numbers that are given out are all different. -/
theorem nth_inj {m n : Nat} (hm : m < 0x100000000) (hn : n < 0x100000000) (h : nth m = nth n) :
    m = n := by
  have same := congrArg (fun id : InstrId => id.num.toNat) h
  simp only [nth, UInt32.toNat_ofNat'] at same
  omega

/-- Up to 2³² numbers are given out without a repetition. -/
theorem Numbered.nodup_issued {w : Workbench} (h : w.Numbered)
    (few : w.issued.length ≤ 0x100000000) : w.issued.Nodup := by
  rw [h.issued]
  refine List.Nodup.map_on (fun m hm n hn same => ?_) List.nodup_range
  rw [List.mem_range] at hm hn
  exact nth_inj (by omega) (by omega) same

/-- A new number was not handed out before. -/
theorem Numbered.fresh {w : Workbench} (h : w.Numbered) (few : w.issued.length < 0x100000000) :
    w.body.fresh.1 = nth w.issued.length ∧ nth w.issued.length ∉ w.issued := by
  refine ⟨by rw [MethodBody.fresh, h.next]; rfl, fun old => ?_⟩
  generalize length : w.issued.length = count at old few
  rw [h.issued, List.mem_map, length] at old
  obtain ⟨n, hn, same⟩ := old
  rw [List.mem_range] at hn
  exact absurd (nth_inj (by omega) few same) (by omega)

/-- On an empty body no number has been given out. -/
theorem numbered_empty : empty.Numbered where
  next := rfl
  issued := rfl
  placed_subset := List.nil_subset _
  placed := List.nodup_nil
  ids_subset := List.nil_subset _
  ids := List.nodup_nil

variable {w : Workbench}

/-- An edit that hands out no number and places none keeps its instructions or takes some out. -/
theorem Numbered.of_sublist (h : w.Numbered) {c : Cursor} (next : c.body.nextId = w.body.nextId)
    (sub : c.body.ids.Sublist w.body.ids) : Numbered { w with cursor := c } where
  next := next.trans h.next
  issued := h.issued
  placed_subset := h.placed_subset
  placed := h.placed
  ids_subset := List.Subset.trans sub.subset h.ids_subset
  ids := h.ids.sublist sub

/-- Moving the cursor gives out no number. -/
theorem Numbered.of_same_body (h : w.Numbered) {c : Cursor} (same : c.body = w.body) :
    Numbered { w with cursor := c } :=
  h.of_sublist (same ▸ rfl) (same ▸ List.Sublist.refl _)

/-- A number that was handed out and not placed is placed, wherever it is. -/
theorem Numbered.place (h : w.Numbered) {c : Cursor} {id : InstrId} (issued : id ∈ w.issued)
    (unplaced : id ∉ w.placed) (next : c.body.nextId = w.body.nextId)
    (ids : c.body.ids.Perm (id :: w.body.ids)) :
    Numbered { w with cursor := c, placed := w.placed ++ [id] } where
  next := next.trans h.next
  issued := h.issued
  placed_subset := by
    rw [List.append_subset, List.cons_subset]
    exact ⟨h.placed_subset, issued, List.nil_subset _⟩
  placed := by
    rw [List.nodup_append_comm, List.singleton_append, List.nodup_cons]
    exact ⟨unplaced, h.placed⟩
  ids_subset := by
    refine List.Subset.trans ids.subset ?_
    rw [List.cons_subset]
    exact ⟨by simp, List.Subset.trans h.ids_subset (List.subset_append_left ..)⟩
  ids := by
    refine ids.symm.nodup ?_
    rw [List.nodup_cons]
    exact ⟨fun inside => unplaced (h.ids_subset inside), h.ids⟩

/-- A new number is handed out. -/
theorem Numbered.issue (h : w.Numbered) :
    Numbered { cursor := { body := w.body.fresh.2 }, issued := w.issued ++ [w.body.fresh.1]
               placed := w.placed } where
  next := by
    show w.body.nextId + 1 = _
    rw [h.next, List.length_append, List.length_singleton, UInt32.ofNat_add]
    rfl
  issued := by
    have first : w.body.fresh.1 = nth w.issued.length := by
      rw [MethodBody.fresh, h.next]
      rfl
    rw [first, List.length_append, List.length_singleton, List.range_succ, List.map_append,
      ← h.issued]
    rfl
  placed_subset := List.Subset.trans h.placed_subset (List.subset_append_left ..)
  placed := h.placed
  ids_subset := h.ids_subset
  ids := h.ids

/-- A new number is handed out and placed, wherever it is. -/
theorem Numbered.add (h : w.Numbered) (few : w.issued.length < 0x100000000) {c : Cursor}
    (next : c.body.nextId = w.body.nextId + 1)
    (ids : c.body.ids.Perm (w.body.fresh.1 :: w.body.ids)) :
    Numbered { cursor := c, issued := w.issued ++ [w.body.fresh.1]
               placed := w.placed ++ [w.body.fresh.1] } := by
  obtain ⟨first, unused⟩ := h.fresh few
  rw [← first] at unused
  exact h.issue.place (by simp) (fun placed => unused (h.placed_subset placed)) next ids

/-- An insertion adds the fresh number and no other. -/
theorem ids_insert_perm (b : MethodBody) (index : Nat) (op : Opcode) (operand : Operand) :
    (b.insert index op operand).2.ids.Perm (b.fresh.1 :: b.ids) :=
  (List.perm_insertIdx _ _ (Nat.min_le_right ..)).map Instruction.id

/-- A reserved instruction adds the number that was reserved. -/
theorem ids_pushReserved_perm (b : MethodBody) (id : InstrId) (op : Opcode) (operand : Operand) :
    (b.pushReserved id op operand).ids.Perm (id :: b.ids) :=
  (List.perm_append_singleton ..).map Instruction.id

/-- Replacing an instruction keeps all numbers. -/
theorem nextId_replace {b b' : MethodBody} {index : Nat} {op : Opcode} {operand : Operand}
    (h : b.replace index op operand = .ok b') : b'.nextId = b.nextId ∧ b'.ids = b.ids := by
  unfold MethodBody.replace at h
  split at h
  · rename_i i found
    obtain ⟨inside, rfl⟩ := List.getElem?_eq_some_iff.1 found
    cases h
    refine ⟨rfl, ?_⟩
    rw [MethodBody.ids, List.map_set]
    show (b.instructions.map (·.id)).set index b.instructions[index].id = b.ids
    rw [← List.map_set, List.set_getElem_self, MethodBody.ids]
  · cases h

/-- A removal gives out no number and leaves the others in their order. -/
theorem nextId_remove {b b' : MethodBody} {index : Nat} {gone : Instruction}
    (h : b.remove index = some (gone, b')) :
    b'.nextId = b.nextId ∧ b'.ids.Sublist b.ids := by
  obtain ⟨next, shapes⟩ := MethodBody.shape_remove h
  refine ⟨next, ?_⟩
  have ids (b : MethodBody) : b.ids = (b.instructions.map MethodBody.shape).map Prod.fst := by
    rw [List.map_map]
    rfl
  rw [ids, ids, shapes]
  exact (List.eraseIdx_sublist ..).map Prod.fst

/-- A search leaves the body as it is. -/
theorem body_gotoNext? (c : Cursor) (p : Instruction → Bool) :
    ((c.gotoNext? p).getD c).body = c.body := by
  cases found : c.gotoNext? p with
  | none => rfl
  | some c' =>
    obtain ⟨_, -, rfl⟩ := Option.map_eq_some_iff.1 found
    rfl

/-- Searching backwards leaves the body as it is. -/
theorem body_gotoPrev? (c : Cursor) (p : Instruction → Bool) :
    ((c.gotoPrev? p).getD c).body = c.body := by
  cases found : c.gotoPrev? p with
  | none => rfl
  | some c' =>
    obtain ⟨_, -, rfl⟩ := Option.map_eq_some_iff.1 found
    rfl

/-- A cursor removes the instruction behind it, if there is one. -/
theorem body_remove {c : Cursor} :
    c.remove.2.body = ((c.body.remove c.index).map (·.2)).getD c.body := by
  unfold Cursor.remove
  cases c.body.remove c.index <;> rfl

/-- An edit only adds to the numbers that were given out. -/
theorem issued_prefix_apply (w : Workbench) (e : Edit) : w.issued <+: (e.apply w).issued := by
  cases e with
  | push _ _ | insert _ _ _ | reserve | emit _ _ => exact List.prefix_append ..
  | pushReserved _ _ _ | guard _ | goto _ | gotoNext _ | gotoPrev _ | cut =>
    exact List.prefix_refl _
  | replace _ _ _ | remove _ | overwrite _ _ =>
    unfold Edit.apply
    dsimp only
    split <;> exact List.prefix_refl _

/-- **An edit keeps numbers apart.** -/
theorem Numbered.apply (h : w.Numbered) {e : Edit} (allowed : e.Allowed w)
    (few : (e.apply w).issued.length < 0x100000000) : (e.apply w).Numbered := by
  have room : w.issued.length < 0x100000000 :=
    Nat.lt_of_le_of_lt (issued_prefix_apply w e).length_le few
  cases e with
  | push op operand => exact h.add room rfl (ids_pushReserved_perm ..)
  | insert index op operand => exact h.add room rfl (ids_insert_perm ..)
  | replace index op operand =>
    unfold Edit.apply
    dsimp only
    split
    · rename_i b done
      obtain ⟨next, ids⟩ := nextId_replace done
      exact h.of_sublist next (ids ▸ List.Sublist.refl _)
    · exact h
  | remove index =>
    unfold Edit.apply
    dsimp only
    split
    · rename_i gone b done
      obtain ⟨next, ids⟩ := nextId_remove done
      exact h.of_sublist next ids
    · exact h
  | reserve => exact h.issue
  | pushReserved id op operand =>
    exact h.place allowed.1 allowed.2 rfl (ids_pushReserved_perm ..)
  | guard r => exact h.of_sublist rfl (List.Sublist.refl _)
  | goto index => exact h.of_same_body rfl
  | gotoNext p => exact h.of_same_body (body_gotoNext? w.cursor p)
  | gotoPrev p => exact h.of_same_body (body_gotoPrev? w.cursor p)
  | emit op operand => exact h.add room rfl (ids_insert_perm ..)
  | cut =>
    have left := body_remove (c := w.cursor)
    cases done : w.cursor.body.remove w.cursor.index with
    | none =>
      rw [done] at left
      exact h.of_same_body left
    | some removed =>
      rw [done] at left
      obtain ⟨next, ids⟩ := nextId_remove done
      exact h.of_sublist (left ▸ next) (left ▸ ids)
  | overwrite op operand =>
    unfold Edit.apply
    dsimp only
    split
    · rename_i c done
      obtain ⟨b, replaced, rfl⟩ := map_eq_ok.1 done
      obtain ⟨next, ids⟩ := nextId_replace replaced
      exact h.of_sublist next (ids ▸ List.Sublist.refl _)
    · exact h

/-- **Edits keep numbers apart**, as long as they use fewer than `2 ^ 32`. -/
theorem Reached.numbered (h : w.Reached) (few : w.issued.length < 0x100000000) : w.Numbered := by
  induction h with
  | empty => exact numbered_empty
  | @edit w e _ allowed ih =>
    exact (ih (Nat.lt_of_le_of_lt (issued_prefix_apply w e).length_le few)).apply allowed few

/-- A removal leaves the body that `MethodBody.remove` gives. -/
theorem remove_of_removesAt? {e : Edit} {k : Nat} {gone : Instruction}
    (removes : e.removesAt? w = some k) (stood : w.body.instructions[k]? = some gone) :
    w.body.remove k = some (gone, (e.apply w).body) := by
  obtain ⟨b, removed⟩ := MethodBody.exists_remove_iff.2 stood
  cases e with
  | remove index =>
    cases removes
    have left : (Edit.apply w (.remove k)).body = b := by
      simp only [Edit.apply, removed]
      rfl
    rw [left, removed]
  | cut =>
    cases removes
    have left := body_remove (c := w.cursor)
    unfold body at removed
    rw [removed] at left
    show w.cursor.body.remove _ = some (gone, w.cursor.remove.2.body)
    rw [left, removed]
    rfl
  | _ => cases removes

/-- **Edits keep identities and regions sound.**  Instructions carry distinct numbers, and no
number is handed out or placed twice.  A removal of an instruction with a successor closes the
gap, and a removal of the last one leaves nothing dangling but what began or branched there. -/
theorem Reached.sound (h : w.Reached) (few : w.issued.length < 0x100000000) :
    w.body.ids.Nodup ∧ w.issued.Nodup ∧ w.placed.Nodup ∧
      w.body.ids ⊆ w.placed ∧ w.placed ⊆ w.issued ∧
      ∀ (e : Edit) (k : Nat) (gone : Instruction), e.removesAt? w = some k →
        w.body.instructions[k]? = some gone →
          (k + 1 < w.body.length → w.body.Closes (e.apply w).body gone.id) ∧
          (k + 1 = w.body.length → w.body.Shortens (e.apply w).body gone.id) := by
  have numbered := h.numbered few
  refine ⟨numbered.ids, numbered.nodup_issued (Nat.le_of_lt few), numbered.placed,
    numbered.ids_subset, numbered.placed_subset, fun e k gone removes stood => ?_⟩
  have removed := remove_of_removesAt? removes stood
  obtain ⟨inside, rfl⟩ := List.getElem?_eq_some_iff.1 stood
  -- The removed instruction stands between what comes before and behind it, and what is behind
  -- it tells whether it has a successor.
  have split := (List.take_append_drop k w.body.instructions).symm
  have first : (w.body.instructions.take k).length = k := List.length_take_of_le (by omega)
  rw [List.drop_eq_getElem_cons inside] at split
  constructor
  · intro behind
    rw [List.drop_eq_getElem_cons behind] at split
    exact MethodBody.closes_remove numbered.ids split (by rwa [first])
  · intro last
    rw [List.drop_eq_nil_of_le (Nat.le_of_eq last.symm)] at split
    exact MethodBody.shortens_remove numbered.ids split (by rwa [first])

/-! ### A region around a branch -/

/-- The edits of a body that branches over an instruction to one with a reserved number, with a
region that ends where its handler begins, and an instruction put in front by a cursor. -/
def guardedEdits : List Edit :=
  [.reserve, .push .ldarg0 .none, .push .brtrue (.target ⟨0⟩), .push .nop .none,
    .pushReserved ⟨0⟩ .ret .none, .guard (.finalizing ⟨1⟩ (some ⟨3⟩) ⟨3⟩ none),
    .emit .nop .none]

/-- The body after these edits. -/
def guarded : Workbench := guardedEdits.foldl Edit.apply .empty

/-- The guarded body is reached by edits. -/
theorem reached_guarded : guarded.Reached := by
  unfold guarded guardedEdits
  simp only [List.foldl_cons, List.foldl_nil]
  refine .edit (.edit (.edit (.edit (.edit (.edit (.edit .empty ?_) ?_) ?_) ?_) ?_) ?_) ?_
  · trivial
  · trivial
  · trivial
  · trivial
  · decide
  · trivial
  · trivial

/-- The hypotheses are satisfiable: the instruction between the branch and its target goes, and
the target itself, which is the last one. -/
theorem Reached.sound_guarded :
    guarded.body.ids = [⟨4⟩, ⟨1⟩, ⟨2⟩, ⟨3⟩, ⟨0⟩] ∧ guarded.body.ids.Nodup ∧
      guarded.body.Closes (Edit.apply guarded (.remove 3)).body ⟨3⟩ ∧
      guarded.body.Shortens (Edit.apply guarded (.remove 4)).body ⟨0⟩ := by
  obtain ⟨ids, -, -, -, -, removal⟩ := Reached.sound reached_guarded (by decide)
  exact ⟨by decide, ids, (removal (.remove 3) 3 _ rfl rfl).1 (by decide),
    (removal (.remove 4) 4 _ rfl rfl).2 (by decide)⟩

end Workbench
end HookImage
