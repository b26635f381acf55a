/-
# Cursors

A cursor stands between two instructions of a body and edits around itself.  A search
leaves it directly before the instruction it found; that instruction then counts as
*matched*, and the next search forward begins behind it.  Emitting puts an instruction
before the cursor and keeps the match, so that a loop of searching and emitting meets
each instruction once.
-/

import HookImage.Cil.Body

namespace HookImage

/-- A place in a body. -/
structure Cursor where
  body : MethodBody
  /-- How many instructions stand before the cursor. -/
  index : Nat := 0
  /-- Whether a search found the instruction behind the cursor. -/
  matched : Bool := false

namespace Cursor

/-- The instruction behind the cursor. -/
def next? (c : Cursor) : Option Instruction := c.body.instructions[c.index]?

/-- The instruction before the cursor. -/
def prev? (c : Cursor) : Option Instruction :=
  match c.index with
  | 0 => none
  | i + 1 => c.body.instructions[i]?

/-- Moves to a place, or to the end if the body is shorter. -/
def goto (c : Cursor) (index : Nat) : Cursor :=
  { c with index := min index c.body.length, matched := false }

/-- Where the next search forward begins. -/
def searchStart (c : Cursor) : Nat := if c.matched then c.index + 1 else c.index

/-- Moves forward to the next instruction that satisfies `p`. -/
def gotoNext? (c : Cursor) (p : Instruction → Bool) : Option Cursor :=
  ((c.body.instructions.drop c.searchStart).findIdx? p).map fun k =>
    { c with index := c.searchStart + k, matched := true }

/-- Moves back to the last instruction before the cursor that satisfies `p`. -/
def gotoPrev? (c : Cursor) (p : Instruction → Bool) : Option Cursor :=
  let before := c.body.instructions.take c.index
  (before.reverse.findIdx? p).map fun k =>
    { c with index := before.length - 1 - k, matched := true }

/-- Adds an instruction before the cursor. -/
def emit (c : Cursor) (op : Opcode) (operand : Operand) : InstrId × Cursor :=
  let (id, body) := c.body.insert c.index op operand
  (id, { c with body, index := c.index + 1 })

/-- Takes out the instruction behind the cursor.  There is no match afterwards, even if
there was nothing to take out. -/
def remove (c : Cursor) : Except EditFault Instruction × Cursor :=
  match c.body.remove c.index with
  | some (gone, body) => (.ok gone, { c with body, matched := false })
  | none => (.error (.nothingToRemove c.index), { c with matched := false })

/-- Gives the instruction behind the cursor another operation and operand. -/
def replace (c : Cursor) (op : Opcode) (operand : Operand) : Except EditFault Cursor :=
  (c.body.replace c.index op operand).map fun body => { c with body }

/-- The number of the instruction behind the cursor, for a branch to it. -/
def label (c : Cursor) : Except EditFault InstrId :=
  match c.next? with
  | some i => .ok i.id
  | none => .error .labelAtEnd

end Cursor
end HookImage
