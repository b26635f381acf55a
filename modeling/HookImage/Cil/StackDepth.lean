/-
# Stack depth

An estimate of how deep the evaluation stack becomes.  It follows the flow of control
from the entry and from every handler and filter.  The first depth with which an
instruction is reached is the one that counts; a stack that would underflow is empty.
A typed catch and a filter begin with the exception on the stack, any other handler with
an empty one, and so does the target of a leave.
-/

import HookImage.Cil.Body
import Std.Data.HashMap

namespace HookImage
namespace StackDepth

/-- An instruction that is still to be looked at, by its position, and the depth with
which it is reached. -/
structure Arrival where
  position : Nat
  depth : Nat

/-- A body as the flow of control is followed in it: the instructions by their positions,
and the positions by the numbers of the instructions. -/
structure Code where
  instructions : Array Instruction
  index : Std.HashMap InstrId Nat

/-- The positions of instructions, the first of which stands at `start`.  Of several with
one number the first counts. -/
def indexFrom (start : Nat) : List Instruction → Std.HashMap InstrId Nat
  | [] => ∅
  | i :: is => (indexFrom (start + 1) is).insert i.id start

/-- The index of instructions leads to the first one with a number. -/
theorem getElem?_indexFrom (start : Nat) (is : List Instruction) (id : InstrId) :
    (indexFrom start is)[id]? = (is.findIdx? (·.id == id)).map (start + ·) := by
  induction is generalizing start with
  | nil => simp [indexFrom]
  | cons i is ih =>
    rw [indexFrom, Std.HashMap.getElem?_insert, List.findIdx?_cons, ih]
    by_cases h : i.id = id
    · simp [h]
    · simp [h, Function.comp_def, Nat.add_assoc, Nat.add_comm 1]

/-- A body prepared for following the flow of control. -/
def Code.ofBody (b : MethodBody) : Code := ⟨b.instructions.toArray, indexFrom 0 b.instructions⟩

/-- Where the first instruction with a number stands. -/
def Code.position? (c : Code) (id : InstrId) : Option Nat := c.index[id]?

/-- Looking a number up in the index gives the place that a search gives. -/
theorem Code.position?_ofBody (b : MethodBody) (id : InstrId) :
    (Code.ofBody b).position? id = b.position? id := by
  simp [Code.position?, Code.ofBody, getElem?_indexFrom, MethodBody.position?]

/-- The depth behind an instruction. -/
def after (i : Instruction) (depth : Nat) : Nat :=
  depth - i.stackEffect.1 + i.stackEffect.2

/-- Where control may go from the instruction at `position`, and with which depth. -/
def successors (c : Code) (position : Nat) (i : Instruction) (depth : Nat) : List Arrival :=
  let arrive (depth : Nat) (id : InstrId) : Option Arrival :=
    (c.position? id).map (⟨·, depth⟩)
  match i.opcode.flow with
  | .exit | .throw | .endHandler => []
  | .unconditional => i.operand.instrIds.filterMap (arrive (after i depth))
  | .leave => i.operand.instrIds.filterMap (arrive 0)
  | _ =>
    let next := c.instructions[position + 1]?.map (·.id)
    (i.operand.instrIds ++ next.toList).filterMap (arrive (after i depth))

/-- Where control begins: at the entry, and at the handler and the filter of each region
in turn. -/
def seeds (b : MethodBody) : List Arrival :=
  ⟨0, 0⟩ :: b.regions.flatMap fun r =>
    let handlerDepth := if r.isCatch || r.isFilter then 1 else 0
    ((b.position? r.handlerStart).map (⟨·, handlerDepth⟩)).toList ++
      ((r.filterStart.bind b.position?).map (⟨·, 1⟩)).toList

/-- Works off arrivals in the order in which they came: first those in `now`, then those in
`later`, where the last one stands first.  `unseen` marks the positions that were not
reached so far, and `deepest` is the greatest depth up to here. -/
def explore (c : Code) (unseen : Array Bool) (deepest : Nat) :
    List Arrival → List Arrival → Nat
  | [], [] => deepest
  | [], a :: later => explore c unseen deepest (a :: later).reverse []
  | a :: now, later =>
    if h : ∃ lt : a.position < unseen.size, unseen[a.position] = true then
      match c.instructions[a.position]? with
      | some i =>
        have := h.1
        explore c (unseen.set a.position false)
          (max deepest (max a.depth (after i a.depth)))
          now ((successors c a.position i a.depth).reverse ++ later)
      | none => explore c unseen deepest now later
    else explore c unseen deepest now later
termination_by now later => (unseen.countP (·), now.length + later.length, later.length)
decreasing_by
  · right
    simp only [List.length_reverse, List.length_cons, List.length_nil, Nat.add_zero,
      Nat.zero_add]
    right
    exact Nat.succ_pos _
  · obtain ⟨lt, seen⟩ := h
    left
    have : 0 < unseen.countP (·) :=
      Array.countP_pos_iff.mpr ⟨unseen[a.position], Array.getElem_mem lt, seen⟩
    rw [Array.countP_set, if_pos seen, if_neg Bool.false_ne_true]
    omega
  all_goals
    right
    left
    rw [List.length_cons]
    omega

end StackDepth

/-- The greatest depth that the flow of control leads to, as far as sixteen bits can
say. -/
def MethodBody.estimateMaxStack (b : MethodBody) : UInt16 :=
  if b.isEmpty then 0
  else
    let unseen := Array.replicate b.length true
    let deepest := StackDepth.explore (.ofBody b) unseen 0 (StackDepth.seeds b) []
    UInt16.ofNat (min deepest 65535)

end HookImage
