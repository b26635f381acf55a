/-
# Method bodies

A body is a list of instructions with the local variables and exception regions that
belong to them.  Every instruction that is pushed or inserted gets a number that was
never given before, and keeps it.
-/

import HookImage.Cil.Region
import HookImage.Error

namespace HookImage

/-- An editable method body. -/
structure MethodBody where
  /-- How deep the stack is said to become. -/
  maxStack : UInt16 := 0
  /-- Whether local variables start out as zero. -/
  initLocals : Bool := true
  locals : Array LocalVar := #[]
  regions : List Region := []
  instructions : List Instruction := []
  /-- The number of the next instruction. -/
  nextId : UInt32 := 0

namespace MethodBody

/-- The number of instructions. -/
def length (b : MethodBody) : Nat := b.instructions.length

/-- Whether there is no instruction. -/
def isEmpty (b : MethodBody) : Bool := b.instructions.isEmpty

/-- Takes the next instruction number.  Numbers wrap around after 2³² instructions, as in a build
without overflow checks.  A build with them, which is the one meant for the sums of addresses and
offsets (`File.checkedAddress`, `Draft.addBytes`, `Reader.offsetOf`), stops there instead, and up
to there the two builds give the same numbers. -/
def fresh (b : MethodBody) : InstrId × MethodBody :=
  (⟨b.nextId⟩, { b with nextId := b.nextId + 1 })

/-- Adds an instruction with a number that was taken before. -/
def pushReserved (b : MethodBody) (id : InstrId) (op : Opcode) (operand : Operand) :
    MethodBody :=
  { b with instructions := b.instructions ++ [⟨id, op, operand⟩] }

/-- Adds an instruction at the end. -/
def push (b : MethodBody) (op : Opcode) (operand : Operand) : InstrId × MethodBody :=
  let (id, b) := b.fresh
  (id, b.pushReserved id op operand)

/-- Adds an instruction before the one at `index`, or at the end if there is none. -/
def insert (b : MethodBody) (index : Nat) (op : Opcode) (operand : Operand) :
    InstrId × MethodBody :=
  let (id, b) := b.fresh
  let index := min index b.length
  (id, { b with instructions := b.instructions.insertIdx index ⟨id, op, operand⟩ })

/-- Numbers operations and operands from `id` on. -/
def numbered (id : UInt32) : List (Opcode × Operand) → List Instruction
  | [] => []
  | (op, operand) :: rest => ⟨⟨id⟩, op, operand⟩ :: numbered (id + 1) rest

/-- A body of the given operations, numbered from zero. -/
def ofCode (code : List (Opcode × Operand)) : MethodBody :=
  { instructions := numbered 0 code, nextId := UInt32.ofNat code.length }

/-- Gives the instruction at `index` another operation and operand. -/
def replace (b : MethodBody) (index : Nat) (op : Opcode) (operand : Operand) :
    Except EditFault MethodBody :=
  match b.instructions[index]? with
  | some i => .ok { b with instructions := b.instructions.set index ⟨i.id, op, operand⟩ }
  | none => .error (.replaceOutside index b.length)

/-- Gives the instruction at `index` another operand, if there is one. -/
def setOperand (b : MethodBody) (index : Nat) (operand : Operand) : MethodBody :=
  { b with instructions := b.instructions.modify index fun i => { i with operand } }

/-- An instruction with its branches to `gone` redirected. -/
def redirect (gone successor : InstrId) (i : Instruction) : Instruction :=
  { i with operand := i.operand.mapInstrIds fun id => if id = gone then successor else id }

/-- Instructions with their branches to `gone` redirected.  Where there are none, nothing is
rebuilt. -/
def redirectAll (gone successor : InstrId) (is : List Instruction) : List Instruction :=
  if is.any (·.operand.instrIds.contains gone) then is.map (redirect gone successor) else is

/-- An instruction that does not name the one that is gone stays as it is. -/
theorem redirect_of_not_mem {gone successor : InstrId} {i : Instruction}
    (h : gone ∉ i.operand.instrIds) : redirect gone successor i = i := by
  obtain ⟨id, op, operand⟩ := i
  cases operand with
  | target t =>
    have : t ≠ gone := fun e => h (by simp [Operand.instrIds, e])
    simp [redirect, Operand.mapInstrIds, this]
  | targets ts =>
    have : ts.map (fun t => if t = gone then successor else t) = ts := by
      refine (List.map_congr_left fun t ht => ?_).trans (List.map_id' ts)
      exact if_neg fun e : t = gone => h (show gone ∈ ts from e ▸ ht)
    simp [redirect, Operand.mapInstrIds, this]
  | _ => rfl

/-- Where nothing names the instruction that is gone, leaving the list as it is and redirecting each
instruction are the same. -/
theorem redirectAll_eq_map (gone successor : InstrId) (is : List Instruction) :
    redirectAll gone successor is = is.map (redirect gone successor) := by
  unfold redirectAll
  split
  · rfl
  · rename_i h
    refine ((List.map_congr_left fun i hi => redirect_of_not_mem fun hm => h ?_).trans
      (List.map_id' is)).symm
    exact List.any_eq_true.2 ⟨i, hi, List.contains_iff_mem.2 hm⟩

/-- Takes out the instruction at `index`.  Whatever named it names its successor from
then on, if it has one. -/
def remove (b : MethodBody) (index : Nat) : Option (Instruction × MethodBody) :=
  match b.instructions[index]? with
  | none => none
  | some gone =>
    let rest := b.instructions.eraseIdx index
    let successor := rest[index]?.map (·.id)
    let instructions := match successor with
      | some next => redirectAll gone.id next rest
      | none => rest
    some (gone, { b with
      instructions
      regions := b.regions.map (·.retarget gone.id successor) })

/-- Where the first instruction with a number stands. -/
def position? (b : MethodBody) (id : InstrId) : Option Nat :=
  b.instructions.findIdx? (·.id == id)

/-- The first instruction with a number. -/
def find? (b : MethodBody) (id : InstrId) : Option Instruction :=
  b.instructions.find? (·.id == id)

/-- Adds a local variable and gives its slot.  Slots have sixteen bits. -/
def addLocal (b : MethodBody) (v : LocalVar) : Except Failure (Nat × MethodBody) :=
  if b.locals.size < 0x10000 then
    .ok (b.locals.size, { b with locals := b.locals.push v })
  else .error .tooManyLocals

/-- Adds a local variable several times, as far as there are slots. -/
def addLocals (b : MethodBody) (v : LocalVar) (times : Nat) : MethodBody :=
  { b with locals := b.locals ++ Array.replicate (min times (0x10000 - b.locals.size)) v }

/-- The numbers that branches name, followed by those that regions name. -/
def referencedIds (b : MethodBody) : List InstrId :=
  b.instructions.flatMap (·.operand.instrIds) ++ b.regions.flatMap (·.anchors)

end MethodBody
end HookImage
