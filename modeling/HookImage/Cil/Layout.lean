/-
# The layout of code

Where each instruction lands when a body is written.  A short branch reaches 127 bytes
ahead and 128 back, counted from the instruction behind it.  Layout starts from the
operations as they are, and as long as some short branch does not reach its target, all
those that do not are widened at once and everything is placed anew.  Widening only
pushes instructions further apart, so each round widens what no shorter layout could
leave short.
-/

import HookImage.Cil.Body
import Std.Data.HashMap

namespace HookImage

/-- An instruction with the operation that is written for it. -/
structure Line where
  op : Opcode
  instr : Instruction

/-- An instruction with its operation and the offset of its first byte. -/
structure PlacedLine extends Line where
  offset : Nat

/-- Where each instruction of a body lands. -/
structure Layout where
  lines : List PlacedLine
  /-- The number of bytes of all instructions. -/
  size : Nat

/-- How many bytes an operand of a layout takes. -/
def OperandKind.size (kind : OperandKind) (operand : Operand) : Nat :=
  match kind with
  | .none => 0
  | .int8 | .shortArgument | .shortLocal | .shortBranch => 1
  | .argument | .localSlot => 2
  | .int64 | .float64 => 8
  | .switch =>
    match operand with
    | .targets ids => 4 + 4 * ids.length
    | _ => 4
  | _ => 4

namespace Line

/-- How many bytes a line takes. -/
def size (l : Line) : Nat := l.op.size + l.op.operandKind.size l.instr.operand

/-- Whether the line is a branch with a distance of one byte. -/
def isShort (l : Line) : Bool := l.op.operandKind == .shortBranch

/-- The target of a short branch. -/
def shortTarget? (l : Line) : Option InstrId :=
  match l.instr.operand with
  | .target id => if l.isShort then some id else none
  | _ => none

/-- The line with a distance of four bytes. -/
def widened (l : Line) : Line := { l with op := l.op.longForm }

end Line

/-- The offset behind the line, from which its branches count. -/
def PlacedLine.next (p : PlacedLine) : Nat := p.offset + p.size

/-- The offsets of instructions by their numbers.  Of several with one number the last
counts. -/
abbrev Labels := Std.HashMap InstrId Nat

namespace Layout

/-- Places lines one behind the other, the first at `offset`. -/
def placeFrom (offset : Nat) : List Line → List PlacedLine
  | [] => []
  | l :: ls => ⟨l, offset⟩ :: placeFrom (offset + l.size) ls

/-- Places lines one behind the other. -/
def place (lines : List Line) : List PlacedLine := placeFrom 0 lines

/-- The offsets of placed lines by the numbers of their instructions. -/
def labels (placed : List PlacedLine) : Labels :=
  placed.foldl (fun m p => m.insert p.instr.id p.offset) ∅

/-- Whether a distance has one byte. -/
def isNear (distance : Int) : Bool := -128 ≤ distance && distance ≤ 127

/-- Whether a short branch does not reach its target. -/
def isStretched (labels : Labels) (p : PlacedLine) : Bool :=
  match p.shortTarget? with
  | some id =>
    match labels[id]? with
    | some target => !isNear (target - p.next)
    | none => false
  | none => false

/-- One round: every short branch that does not reach its target gets the long form. -/
def round (lines : List Line) : List Line :=
  let offsets := labels (place lines)
  (place lines).map fun p => if isStretched offsets p then p.widened else p.toLine

/-- Whether every short branch reaches its target. -/
def isStable (lines : List Line) : Bool :=
  let offsets := labels (place lines)
  !(place lines).any (isStretched offsets)

/-- Only a short branch can be stretched. -/
theorem isShort_of_isStretched {labels : Labels} {p : PlacedLine}
    (h : isStretched labels p) : p.isShort := by
  unfold isStretched Line.shortTarget? at h
  split at h
  · rename_i id hid
    split at hid
    · by_cases hs : p.isShort
      · exact hs
      · simp [hs] at hid
    · simp at hid
  · simp at h

/-- A widened line is short no more. -/
@[simp] theorem isShort_widened (l : Line) : l.widened.isShort = false := by
  obtain ⟨op, instr⟩ := l
  cases op <;> rfl

/-- Placing lines keeps them and their order. -/
@[simp] theorem map_toLine_placeFrom (offset : Nat) (lines : List Line) :
    (placeFrom offset lines).map (·.toLine) = lines := by
  induction lines generalizing offset with
  | nil => rfl
  | cons l ls ih => simp [placeFrom, ih]

/-- Widening takes away at least as many short lines as there are stretched ones. -/
theorem countP_widen_le (stretched : PlacedLine → Bool) (placed : List PlacedLine)
    (h : ∀ p, stretched p → p.isShort) :
    (placed.map fun p => if stretched p then p.widened else p.toLine).countP (·.isShort) +
        placed.countP stretched =
      (placed.map (·.toLine)).countP (·.isShort) := by
  induction placed with
  | nil => rfl
  | cons p ps ih =>
    by_cases hp : stretched p
    · simp [hp, h p hp, ← ih]
      omega
    · simp only [List.map_cons, List.countP_cons, hp, Bool.false_eq_true, if_false, ← ih]
      omega

/-- A round that changes something leaves fewer short lines, so there are only so many rounds. -/
theorem countP_round_lt {lines : List Line} (h : isStable lines = false) :
    (round lines).countP (·.isShort) < lines.countP (·.isShort) := by
  have key := countP_widen_le (isStretched (labels (place lines))) (place lines)
    fun _ => isShort_of_isStretched
  have whole : (place lines).map (·.toLine) = lines := map_toLine_placeFrom 0 lines
  have some : 0 < (place lines).countP (isStretched (labels (place lines))) := by
    rw [List.countP_pos_iff]
    simpa [isStable] using h
  rw [whole] at key
  show (List.map _ _).countP _ < _
  omega

/-- Widens branches until every short one reaches its target. -/
def settle (lines : List Line) : List Line :=
  if isStable lines then lines else settle (round lines)
termination_by lines.countP (·.isShort)
decreasing_by exact countP_round_lt (by simpa using ‹¬isStable lines = true›)

/-- The first short branch to an instruction that the body does not have. -/
def missingTarget? (body : MethodBody) : Option Malformation :=
  let ids := body.instructions.foldl (fun m i => m.insert i.id ()) (∅ : Std.HashMap InstrId Unit)
  body.instructions.findSome? fun i =>
    match Line.shortTarget? ⟨i.opcode, i⟩ with
    | some target => if ids.contains target then none else some (.branchToMissing i.id target)
    | none => none

/-- The layout of a body. -/
def ofBody (body : MethodBody) : Except Malformation Layout :=
  match missingTarget? body with
  | some fault => .error fault
  | none =>
    let lines := settle (body.instructions.map fun i => ⟨i.opcode, i⟩)
    let size := lines.foldr (fun l n => l.size + n) 0
    if size < 0x100000000 then .ok ⟨place lines, size⟩ else .error .bodyTooLarge

end Layout
end HookImage
