/-
# Instructions

An instruction of an editable body is symbolic: a branch names the instruction it
goes to and not a distance, and an operand that stands for metadata names it either
symbolically or, once imported, by a token.  Distances exist only in written code.
-/

import HookImage.Cil.Opcode
import HookImage.Signature.Inspect
import HookImage.Text.Shortest

namespace HookImage

/-- The identity of an instruction within its body. -/
structure InstrId where
  num : UInt32
deriving DecidableEq, Hashable, Inhabited

/-- An instruction is shown as `IL_` and its number, filled up to four digits. -/
def InstrId.text (id : InstrId) : String := "IL_" ++ Text.decimalPadded 4 id.num.toNat

/-- A number inside an instruction.  Fractions are kept as their bit patterns. -/
inductive Immediate where
  | int8 (v : Int8)
  | int32 (v : Int32)
  | int64 (v : Int64)
  | float32 (bits : UInt32)
  | float64 (bits : UInt64)
deriving DecidableEq

/-- A number is shown in decimal, a fraction with as few digits as its width allows. -/
def Immediate.text : Immediate → String
  | int8 v => toString v.toInt
  | int32 v => toString v.toInt
  | int64 v => toString v.toInt
  | float32 bits => Text.binary32.text bits.toNat
  | float64 bits => Text.binary64.text bits.toNat

/-- What an instruction works on besides the stack. -/
inductive Operand where
  | none
  | immediate (v : Immediate)
  /-- An argument slot. -/
  | argument (index : UInt16)
  /-- A local variable slot. -/
  | slot (index : UInt16)
  /-- The instruction a branch goes to. -/
  | target (id : InstrId)
  /-- The instructions a switch goes to, by the value it takes. -/
  | targets (ids : List InstrId)
  | string (s : String)
  | type (t : TypeSig)
  | method (m : MethodRef)
  | field (f : FieldRef)
  /-- The signature of an indirect call. -/
  | callSite (s : MethodSig)
  /-- A row of the output image. -/
  | token (t : Token)

namespace Operand

/-- Whether an operand has a given layout.  A short slot number has one byte, and a
token stands for any kind of metadata. -/
def fits (kind : OperandKind) (operand : Operand) : Bool :=
  match kind, operand with
  | .none, .none => true
  | .int8, .immediate (.int8 _) => true
  | .int32, .immediate (.int32 _) => true
  | .int64, .immediate (.int64 _) => true
  | .float32, .immediate (.float32 _) => true
  | .float64, .immediate (.float64 _) => true
  | .shortArgument, .argument i => i.toNat < 256
  | .argument, .argument _ => true
  | .shortLocal, .slot i => i.toNat < 256
  | .localSlot, .slot _ => true
  | .shortBranch, .target _ => true
  | .branch, .target _ => true
  | .switch, .targets _ => true
  | .string, .string _ => true
  | .type, .type _ => true
  | .type, .token _ => true
  | .method, .method _ => true
  | .method, .token _ => true
  | .field, .field _ => true
  | .field, .token _ => true
  | .token, .type _ => true
  | .token, .method _ => true
  | .token, .field _ => true
  | .token, .token _ => true
  | .signature, .callSite _ => true
  | .signature, .token _ => true
  | _, _ => false

/-- Whether the operand names metadata symbolically. -/
def isSymbolic : Operand → Bool
  | type _ | method _ | field _ | callSite _ => true
  | _ => false

/-- The instructions that the operand names, in order. -/
def instrIds : Operand → List InstrId
  | target id => [id]
  | targets ids => ids
  | _ => []

/-- An operand with the instructions it names replaced. -/
def mapInstrIds (f : InstrId → InstrId) : Operand → Operand
  | target id => target (f id)
  | targets ids => targets (ids.map f)
  | other => other

/-- An operand as it is shown behind its mnemonic. -/
def text : Operand → String
  | none => ""
  | immediate v => v.text
  | argument i => s!"arg{i.toNat}"
  | slot i => s!"loc{i.toNat}"
  | target id => id.text
  | targets ids => Inspect.wrapped "" (", ".intercalate (ids.map (·.text)))
  | string s => Text.quote s
  | type t => t.inspect
  | method m => m.name
  | field f => f.name
  | callSite _ => "<callsite>"
  | token t => t.text

end Operand

/-- An instruction of an editable body. -/
structure Instruction where
  id : InstrId
  opcode : Opcode
  operand : Operand

namespace Instruction

/-- How many values the instruction takes from the stack and leaves on it.  Where the
signature of the callee is at hand, it decides. -/
def stackEffect (i : Instruction) : Nat × Nat :=
  match i.opcode, i.operand with
  | .call, .method m => (m.signature.stackPops, m.signature.stackPushes)
  | .callvirt, .method m => (m.signature.stackPops, m.signature.stackPushes)
  | .newobj, .method m => (m.signature.params.length, 1)
  | .calli, .callSite s => (s.stackPops + 1, s.stackPushes)
  | op, _ => (op.info.pops, op.info.pushes)

/-- An instruction as it is listed. -/
def text (i : Instruction) : String :=
  match i.operand with
  | .none => s!"{i.id.text}: {i.opcode.mnemonic}"
  | operand => s!"{i.id.text}: {i.opcode.mnemonic} {operand.text}"

end Instruction

/-- What a token denotes, as far as instructions tell apart. -/
inductive Denotation where
  | type | method | field
  /-- The signature of an indirect call. -/
  | callSite
  /-- The signature of local variables. -/
  | locals
  /-- A signature of another kind. -/
  | signature
deriving DecidableEq

/-- The name of what a token denotes. -/
def Denotation.name : Denotation → String
  | type => "Type"
  | method => "Method"
  | field => "Field"
  | callSite => "CallSite"
  | locals => "Locals"
  | signature => "Signature"

/-- Which tokens an operand of a given layout can be. -/
def OperandKind.accepts (kind : OperandKind) (d : Denotation) : Bool :=
  match kind, d with
  | .type, .type | .method, .method | .field, .field | .signature, .callSite => true
  | .token, .type | .token, .method | .token, .field => true
  | _, _ => false

end HookImage
