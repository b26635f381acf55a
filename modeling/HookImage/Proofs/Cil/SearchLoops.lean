/-
# Loops of searching and editing

A loop that goes to the next instruction with some operation and edits there ends, whatever the
body is and whatever is emitted, and it meets every such instruction of the body once
(`Cursor.searches_complete`).  With `emit` each of them gets one new instruction directly before
it, and with `remove` the others are left.  Where a cursor stands is never behind the end of its
body (`Workbench.index_le_foldl`).

What a loop has to keep in mind is where the next search begins (`Cursor.Seeks`): everything
from there up to what was not looked at yet fails the predicate.  Emitting goes on behind the
instruction that was found, removing goes on where it stood, and in both cases the rest of the
body gets shorter by it.  So both loops are one recursion on the rest of the body
(`Cursor.Seeks.exists_loops`).
-/

import HookImage.Cil.Cursor
import HookImage.Proofs.Cil.Editing
import HookImage.Proofs.Success

namespace HookImage
namespace Cursor

open MethodBody (shape shape_remove)

/-! ### Loops -/

/-- **Searching and editing.**  `Loops p edit n c c'`: the loop that goes to the next
instruction that satisfies `p` and edits there comes from `c` to `c'` in `n` turns, and ends
because there is nothing to find.  No edit is refused. -/
inductive Loops (p : Instruction → Bool) (edit : Cursor → Except EditFault Cursor) :
    Nat → Cursor → Cursor → Prop where
  | done {c : Cursor} (missed : c.gotoNext? p = none) : Loops p edit 0 c c
  | turn {c found next last : Cursor} {n : Nat} (met : c.gotoNext? p = some found)
      (edited : edit found = .ok next) (rest : Loops p edit n next last) :
      Loops p edit (n + 1) c last

/-- Emits one instruction. -/
def emitting (op : Opcode) (operand : Operand) (c : Cursor) : Except EditFault Cursor :=
  .ok (c.emit op operand).2

/-- Removes one instruction. -/
def removing (c : Cursor) : Except EditFault Cursor := c.remove.1.map fun _ => c.remove.2

/-- A list with its members that satisfy `q` exchanged, the one with the number `k` for
`put k x`.  Numbers are counted from `k` on. -/
def exchanged {α : Type} (q : α → Bool) (put : Nat → α → List α) : Nat → List α → List α
  | _, [] => []
  | k, x :: rest =>
    if q x then put k x ++ exchanged q put (k + 1) rest else x :: exchanged q put k rest

/-- Exchanging the hits for nothing is dropping them. -/
theorem exchanged_nil_eq_filter {α : Type} (q : α → Bool) (k : Nat) (xs : List α) :
    exchanged q (fun _ _ => []) k xs = xs.filter (!q ·) := by
  induction xs generalizing k with
  | nil => rfl
  | cons x rest ih => cases hx : q x <;> simp [exchanged, hx, ih]

/-- A loop runs in one way. -/
theorem Loops.unique {p : Instruction → Bool} {edit : Cursor → Except EditFault Cursor} {n m : Nat}
    {c d e : Cursor} (h : Loops p edit n c d) (h' : Loops p edit m c e) : m = n ∧ e = d := by
  induction h generalizing m with
  | done missed =>
    cases h' with
    | done _ => exact ⟨rfl, rfl⟩
    | turn met _ _ => cases missed.symm.trans met
  | turn met edited _ ih =>
    cases h' with
    | done missed => cases missed.symm.trans met
    | turn met' edited' rest' =>
      cases met.symm.trans met'
      cases edited.symm.trans edited'
      obtain ⟨rfl, rfl⟩ := ih rest'
      exact ⟨rfl, rfl⟩

/-- A loop that ends has one number of turns and one end. -/
theorem Loops.iff {p : Instruction → Bool} {edit : Cursor → Except EditFault Cursor} {n : Nat}
    {c last : Cursor} (h : Loops p edit n c last) (m : Nat) (d : Cursor) :
    Loops p edit m c d ↔ m = n ∧ d = last :=
  ⟨h.unique, fun ⟨hm, hd⟩ => hm ▸ hd ▸ h⟩

/-! ### Where a search begins -/

variable {α : Type} {view : Instruction → α} {q : α → Bool} {c : Cursor} {seen rest : List α}
  {x : α}

/-- **What a search has ahead of it.**  The body, as `view` shows it, is `seen` and `rest`, and
the search meets nothing that satisfies `q` before it comes to `rest`. -/
structure Seeks (view : Instruction → α) (q : α → Bool) (c : Cursor) (seen rest : List α) :
    Prop where
  body : c.body.instructions.map view = seen ++ rest
  started : c.searchStart ≤ seen.length
  passed : ∀ x ∈ seen.drop c.searchStart, q x = false

/-- A search that begins directly behind `seen`. -/
theorem Seeks.of_start (body : c.body.instructions.map view = seen ++ rest)
    (start : c.searchStart = seen.length) : c.Seeks view q seen rest where
  body := body
  started := Nat.le_of_eq start
  passed := by
    rw [start, List.drop_length]
    exact fun _ h => by cases h

/-- A place without a hit is passed over. -/
theorem Seeks.skip (h : c.Seeks view q seen (x :: rest)) (hx : q x = false) :
    c.Seeks view q (seen ++ [x]) rest where
  body := by rw [h.body, List.append_assoc, List.singleton_append]
  started := by
    rw [List.length_append]
    exact Nat.le_add_right_of_le h.started
  passed := by
    rw [List.drop_append_of_le_length h.started]
    intro y hy
    rw [List.mem_append, List.mem_singleton] at hy
    obtain hy | rfl := hy
    · exact h.passed y hy
    · exact hx

/-- What the search finds is the first member of the rest that satisfies `q`. -/
theorem Seeks.findIdx? (h : c.Seeks view q seen rest) :
    (c.body.instructions.drop c.searchStart).findIdx? (fun i => q (view i)) =
      (rest.findIdx? q).map (· + (seen.length - c.searchStart)) := by
  have ahead : (c.body.instructions.drop c.searchStart).map view =
      seen.drop c.searchStart ++ rest := by
    rw [List.map_drop, h.body, List.drop_append_of_le_length h.started]
  have found := congrArg (List.findIdx? q) ahead
  rw [List.findIdx?_map, List.findIdx?_append, List.findIdx?_eq_none_iff.2 h.passed,
    List.length_drop] at found
  exact found

/-- With nothing left a search finds nothing. -/
theorem Seeks.gotoNext?_eq_none (h : c.Seeks view q seen []) :
    c.gotoNext? (fun i => q (view i)) = none := by
  rw [gotoNext?, h.findIdx?]
  rfl

/-- A search stops at a hit. -/
theorem Seeks.gotoNext?_eq_some (h : c.Seeks view q seen (x :: rest)) (hx : q x = true) :
    c.gotoNext? (fun i => q (view i)) =
      some { c with index := seen.length, matched := true } := by
  have start := h.started
  rw [gotoNext?, h.findIdx?, List.findIdx?_cons, if_pos hx]
  simp only [Option.map_some, Nat.zero_add, Nat.add_sub_cancel' start]

/-- **A loop meets every instruction once.**  Suppose that an edit at an instruction puts
`put k x` in its place, where `k` edits were made before, and that the search goes on behind that.
Then the loop ends, and it exchanges exactly the instructions that satisfy `q`. -/
theorem Seeks.exists_loops {edit : Cursor → Except EditFault Cursor} (put : Nat → α → List α)
    (Kept : Nat → Cursor → Prop)
    (step : ∀ {k : Nat} {c : Cursor} {seen rest : List α} {x : α}, Kept k c →
      c.Seeks view q seen (x :: rest) →
      ∃ next, edit { c with index := seen.length, matched := true } = .ok next ∧
        Kept (k + 1) next ∧ next.Seeks view q (seen ++ put k x) rest)
    {k : Nat} (kept : Kept k c) (h : c.Seeks view q seen rest) :
    ∃ last, Loops (fun i => q (view i)) edit (rest.countP q) c last ∧
      Kept (k + rest.countP q) last ∧
      last.body.instructions.map view = seen ++ exchanged q put k rest := by
  induction rest generalizing c seen k with
  | nil => exact ⟨c, .done h.gotoNext?_eq_none, kept, h.body⟩
  | cons x rest ih =>
    rw [List.countP_cons, exchanged]
    cases hx : q x with
    | false =>
      obtain ⟨last, loops, kept, body⟩ := ih kept (h.skip hx)
      rw [List.append_assoc] at body
      exact ⟨last, loops, kept, body⟩
    | true =>
      obtain ⟨next, edited, kept, seeks⟩ := step kept h
      obtain ⟨last, loops, kept, body⟩ := ih kept seeks
      rw [List.append_assoc] at body
      refine ⟨last, .turn (h.gotoNext?_eq_some hx) edited loops, ?_, body⟩
      rwa [Nat.add_right_comm] at kept

/-! ### Emitting -/

variable {b : MethodBody} {op : Opcode} {operand : Operand} {k : Nat}

/-- Whether a cursor is in `b` with other instructions and `k` more numbers given. -/
def Given (b : MethodBody) (k : Nat) (c : Cursor) : Prop :=
  ∃ is, c.body = { b with instructions := is, nextId := b.nextId + UInt32.ofNat k }

/-- The instruction that is emitted when `k` numbers were given. -/
def emitted (b : MethodBody) (op : Opcode) (operand : Operand) (k : Nat) : Instruction :=
  ⟨⟨b.nextId + UInt32.ofNat k⟩, op, operand⟩

/-- Emitting puts an instruction before the one that was found, and the search goes on behind
that one. -/
theorem Given.emit {q : Instruction → Bool} {seen rest : List Instruction} {i : Instruction}
    (given : Given b k c) (h : c.Seeks id q seen (i :: rest)) :
    ∃ next, emitting op operand { c with index := seen.length, matched := true } = .ok next ∧
      Given b (k + 1) next ∧
      next.Seeks id q (seen ++ [emitted b op operand k, i]) rest := by
  obtain ⟨body, index, matched⟩ := c
  obtain ⟨is, rfl⟩ := given
  obtain rfl : is = seen ++ i :: rest := by simpa using h.body
  have place : min seen.length (seen ++ i :: rest).length = seen.length := by simp
  refine ⟨_, rfl, ⟨(seen ++ i :: rest).insertIdx (min seen.length (seen ++ i :: rest).length)
      (emitted b op operand k), ?_⟩, .of_start ?_ ?_⟩
  · have counted : UInt32.ofNat (k + 1) = UInt32.ofNat k + 1 := UInt32.ofNat_add k 1
    rw [counted, ← UInt32.add_assoc]
    rfl
  · show List.map id ((seen ++ i :: rest).insertIdx (min seen.length (seen ++ i :: rest).length)
      (emitted b op operand k)) = _
    rw [place, List.map_id, List.append_assoc]
    exact List.modifyTailIdx_add (List.cons _) 0 seen (i :: rest)
  · simp [searchStart, Cursor.emit]

/-- **Emitting at every match.** -/
theorem exists_loops_emitting (b : MethodBody) (q : Instruction → Bool) (op : Opcode)
    (operand : Operand) :
    ∃ last, Loops q (emitting op operand) (b.instructions.countP q) { body := b } last ∧
      last.body = { b with
        instructions := exchanged q (fun k i => [emitted b op operand k, i]) 0 b.instructions
        nextId := b.nextId + UInt32.ofNat (b.instructions.countP q) } := by
  have seeks : Seeks id q { body := b } [] b.instructions := .of_start (List.map_id _) rfl
  have given : Given b 0 { body := b } :=
    ⟨b.instructions, by rw [show UInt32.ofNat 0 = 0 from rfl, UInt32.add_zero]⟩
  obtain ⟨last, loops, ⟨is, body⟩, left⟩ :=
    seeks.exists_loops (fun k i => [emitted b op operand k, i]) (Given b) (fun g h => g.emit h) given
  refine ⟨last, loops, ?_⟩
  rw [body, List.map_id, List.nil_append] at left
  rw [body, Nat.zero_add, ← left]

/-! ### Removing -/

/-- Removing takes out what was found, and the search goes on where it stood. -/
theorem Seeks.remove {q : InstrId × Opcode → Bool} {seen rest : List (InstrId × Opcode)}
    {x : InstrId × Opcode} (h : c.Seeks shape q seen (x :: rest)) :
    ∃ next, removing { c with index := seen.length, matched := true } = .ok next ∧
      next.Seeks shape q seen rest := by
  have inside : seen.length < c.body.instructions.length := by
    rw [← List.length_map shape, h.body]
    simp
  obtain ⟨b, removed⟩ := MethodBody.exists_remove_iff.2 (List.getElem?_eq_getElem inside)
  refine ⟨{ body := b, index := seen.length }, ?_, .of_start ?_ rfl⟩
  · rw [removing, Cursor.remove, removed]
    rfl
  · rw [(shape_remove removed).2, h.body, List.eraseIdx_append_of_length_le (Nat.le_refl _),
      Nat.sub_self, List.eraseIdx_cons_zero]

/-- **Removing every match.** -/
theorem exists_loops_removing (b : MethodBody) (p : Opcode → Bool) :
    ∃ last, Loops (p ·.opcode) removing (b.instructions.countP (p ·.opcode)) { body := b } last ∧
      last.body.instructions.map shape =
        (b.instructions.filter (!p ·.opcode)).map shape := by
  have seeks : Seeks shape (p ·.2) { body := b } [] (b.instructions.map shape) := .of_start rfl rfl
  obtain ⟨last, loops, -, left⟩ :=
    seeks.exists_loops (k := 0) (fun _ _ => []) (fun _ _ => True) (fun _ h => by
      obtain ⟨next, removed, seeks⟩ := h.remove
      rw [List.append_nil]
      exact ⟨next, removed, trivial, seeks⟩) trivial
  rw [List.countP_map] at loops
  rw [exchanged_nil_eq_filter, List.filter_map] at left
  exact ⟨last, loops, left⟩

/-! ### Where a cursor stands -/

/-- A search forward ends before an instruction. -/
theorem index_lt_gotoNext? {p : Instruction → Bool} {found : Cursor}
    (h : c.gotoNext? p = some found) : found.index < found.body.length := by
  obtain ⟨k, at_k, rfl⟩ := Option.map_eq_some_iff.1 h
  obtain ⟨inside, -⟩ := List.findIdx?_eq_some_iff_getElem.1 at_k
  rw [List.length_drop] at inside
  exact Nat.add_lt_of_lt_sub' inside

/-- A search back ends before where it began. -/
theorem index_lt_gotoPrev? {p : Instruction → Bool} {found : Cursor}
    (h : c.gotoPrev? p = some found) : found.index < c.index ∧ found.body = c.body := by
  obtain ⟨k, at_k, rfl⟩ := Option.map_eq_some_iff.1 h
  obtain ⟨inside, -⟩ := List.findIdx?_eq_some_iff_getElem.1 at_k
  rw [List.length_reverse, List.length_take] at inside
  refine ⟨?_, rfl⟩
  dsimp only
  rw [List.length_take]
  omega

/-- A removal takes out one instruction of the body. -/
theorem length_remove {index : Nat} {gone : Instruction} {b' : MethodBody}
    (h : b.remove index = some (gone, b')) : b'.length + 1 = b.length ∧ index < b.length := by
  obtain ⟨inside, -⟩ := List.getElem?_eq_some_iff.1 (MethodBody.exists_remove_iff.1 ⟨b', h⟩)
  have shapes := congrArg List.length (shape_remove h).2
  rw [List.length_map, List.length_eraseIdx_of_lt (by rwa [List.length_map]), List.length_map]
    at shapes
  unfold MethodBody.length
  omega

end Cursor

namespace Workbench

variable {w : Workbench}

/-- An edit leaves the cursor in its body. -/
theorem index_le_apply (h : w.cursor.index ≤ w.body.length) (e : Edit) :
    (e.apply w).cursor.index ≤ (e.apply w).body.length := by
  cases e with
  | push _ _ | insert _ _ _ | reserve | pushReserved _ _ _ | guard _ => exact Nat.zero_le _
  | replace _ _ _ | remove _ =>
    unfold Edit.apply
    dsimp only
    split
    · exact Nat.zero_le _
    · exact h
  | goto index => exact Nat.min_le_right ..
  | gotoNext p =>
    unfold Edit.apply body
    dsimp only
    cases found : w.cursor.gotoNext? p with
    | none => exact h
    | some c => exact Nat.le_of_lt (Cursor.index_lt_gotoNext? found)
  | gotoPrev p =>
    unfold Edit.apply body
    dsimp only
    cases found : w.cursor.gotoPrev? p with
    | none => exact h
    | some c =>
      obtain ⟨before, same⟩ := Cursor.index_lt_gotoPrev? found
      rw [Option.getD_some, same]
      exact Nat.le_trans (Nat.le_of_lt before) h
  | emit op operand =>
    have grown := List.length_insertIdx_of_le_length
      (Nat.min_le_right w.cursor.index w.body.instructions.length) ⟨⟨w.body.nextId⟩, op, operand⟩
    exact Nat.le_trans (Nat.succ_le_succ h) (Nat.le_of_eq grown.symm)
  | cut =>
    show w.cursor.remove.2.index ≤ w.cursor.remove.2.body.length
    unfold Cursor.remove
    split
    · rename_i gone b removed
      obtain ⟨shorter, inside⟩ := Cursor.length_remove removed
      show w.cursor.index ≤ b.length
      omega
    · exact h
  | overwrite op operand =>
    unfold Edit.apply
    dsimp only
    split
    · rename_i c done
      obtain ⟨b, replaced, rfl⟩ := map_eq_ok.1 done
      have same := congrArg List.length (nextId_replace replaced).2
      rw [MethodBody.ids, MethodBody.ids, List.length_map, List.length_map] at same
      exact Nat.le_trans h (Nat.le_of_eq same.symm)
    · exact h

/-- **A cursor stays in its body**, whatever is done with it. -/
theorem index_le_foldl (h : w.cursor.index ≤ w.body.length) (es : List Edit) :
    (es.foldl Edit.apply w).cursor.index ≤ (es.foldl Edit.apply w).body.length := by
  induction es generalizing w with
  | nil => exact h
  | cons e es ih => exact ih (index_le_apply h e)

end Workbench

namespace Cursor

/-- **Loops of searching and editing are complete.**  From a fresh cursor, the loop that emits
before each instruction whose operation satisfies `p` ends, with one turn for each of them.  The
body then has one new instruction directly before each of them, the new ones numbered in order,
and nothing else changes.  The loop that removes them ends too, and leaves the numbers and the
operations of the others in order.  Whatever is done with a cursor, it stays in its body. -/
theorem searches_complete (b : MethodBody) (p : Opcode → Bool) (op : Opcode)
    (operand : Operand) :
    (∃ last : Cursor,
      (∀ n c, Loops (p ·.opcode) (emitting op operand) n { body := b } c ↔
        n = b.instructions.countP (p ·.opcode) ∧ c = last) ∧
      last.body = { b with
        instructions :=
          exchanged (p ·.opcode) (fun k i => [emitted b op operand k, i]) 0 b.instructions
        nextId := b.nextId + UInt32.ofNat (b.instructions.countP (p ·.opcode)) }) ∧
    (∃ last : Cursor,
      (∀ n c, Loops (p ·.opcode) removing n { body := b } c ↔
        n = b.instructions.countP (p ·.opcode) ∧ c = last) ∧
      last.body.instructions.map (fun i => (i.id, i.opcode)) =
        (b.instructions.filter (!p ·.opcode)).map (fun i => (i.id, i.opcode))) ∧
    ∀ es : List Edit, (es.foldl Edit.apply { cursor := { body := b } }).cursor.index ≤
      (es.foldl Edit.apply { cursor := { body := b } }).body.length := by
  obtain ⟨emits, runs, body⟩ := exists_loops_emitting b (p ·.opcode) op operand
  obtain ⟨removes, runs', left⟩ := exists_loops_removing b p
  exact ⟨⟨emits, runs.iff, body⟩, ⟨removes, runs'.iff, left⟩,
    Workbench.index_le_foldl (Nat.zero_le _)⟩

end Cursor
end HookImage
