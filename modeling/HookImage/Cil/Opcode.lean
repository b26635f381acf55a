/-
# The instruction set

The operations of the common intermediate language, with the few properties that
everything else is computed from: the two bytes that encode an operation, its
mnemonic, the layout of its operand, where control goes after it, and how many
values it takes from and leaves on the stack.  One table holds them all.
-/

import HookImage.Text.AsciiCase

namespace HookImage

/-- The layout of an operand behind its operation. -/
inductive OperandKind where
  | none
  | int8 | int32 | int64
  | float32 | float64
  | shortArgument | argument
  | shortLocal | localSlot
  | shortBranch | branch
  | switch
  | string
  | type | method | field | token
  | signature
deriving DecidableEq

namespace OperandKind

/-- The name of a layout. -/
def name : OperandKind → String
  | none => "None"
  | int8 => "Int8"
  | int32 => "Int32"
  | int64 => "Int64"
  | float32 => "Float32"
  | float64 => "Float64"
  | shortArgument => "ShortArgument"
  | argument => "Argument"
  | shortLocal => "ShortLocal"
  | localSlot => "Local"
  | shortBranch => "ShortBranch"
  | branch => "Branch"
  | switch => "Switch"
  | string => "String"
  | type => "Type"
  | method => "Method"
  | field => "Field"
  | token => "Token"
  | signature => "Signature"

/-- Every layout. -/
def all : List OperandKind :=
  [none, int8, int32, int64, float32, float64, shortArgument, argument, shortLocal, localSlot,
    shortBranch, branch, switch, string, type, method, field, token, signature]

end OperandKind

/-- Where control goes after an operation. -/
inductive Flow where
  /-- To the next instruction. -/
  | sequential
  /-- To the target or the next instruction. -/
  | conditional
  /-- To the target. -/
  | unconditional
  /-- Through another method to the next instruction. -/
  | call
  /-- Out of the method. -/
  | exit
  /-- To one of the targets or the next instruction. -/
  | switch
  /-- To a handler. -/
  | throw
  /-- Out of a handler, to where the runtime decides. -/
  | endHandler
  /-- Out of a protected region to the target, with an empty stack. -/
  | leave
deriving DecidableEq

namespace Flow

/-- The name of a way on. -/
def name : Flow → String
  | sequential => "Sequential"
  | conditional => "ConditionalBranch"
  | unconditional => "UnconditionalBranch"
  | call => "Call"
  | exit => "Return"
  | switch => "Switch"
  | throw => "Throw"
  | endHandler => "EndFinally"
  | leave => "Leave"

/-- Every way on. -/
def all : List Flow :=
  [sequential, conditional, unconditional, call, exit, switch, throw, endHandler, leave]

end Flow

/-- The properties of an operation. -/
structure OpcodeInfo where
  mnemonic : String
  /-- The byte before the code: `0xFE` for an operation of two bytes; `0x00`, which
  is not written, for one of a single byte. -/
  page : UInt8
  code : UInt8
  operand : OperandKind
  flow : Flow
  /-- How many values are taken from the stack.  For a call the signature decides. -/
  pops : Nat
  /-- How many values are left on the stack. -/
  pushes : Nat

/-- An operation. -/
inductive Opcode where
  | nop | breakpoint | ldarg0 | ldarg1 | ldarg2 | ldarg3 | ldloc0 | ldloc1 | ldloc2 | ldloc3
  | stloc0 | stloc1 | stloc2 | stloc3 | ldargS | ldargaS | stargS | ldlocS | ldlocaS |
  stlocS | ldnull | ldcI4M1 | ldcI40 | ldcI41 | ldcI42 | ldcI43 | ldcI44 | ldcI45 | ldcI46 |
  ldcI47 | ldcI48 | ldcI4S | ldcI4 | ldcI8 | ldcR4 | ldcR8 | dup | pop | jmp | call | calli
  | ret | brS | brfalseS | brtrueS | beqS | bgeS | bgtS | bleS | bltS | bneUnS | bgeUnS |
  bgtUnS | bleUnS | bltUnS | br | brfalse | brtrue | beq | bge | bgt | ble | blt | bneUn |
  bgeUn | bgtUn | bleUn | bltUn | switch | ldindI1 | ldindU1 | ldindI2 | ldindU2 | ldindI4 |
  ldindU4 | ldindI8 | ldindI | ldindR4 | ldindR8 | ldindRef | stindRef | stindI1 | stindI2 |
  stindI4 | stindI8 | stindR4 | stindR8 | add | sub | mul | div | divUn | rem | remUn | and
  | or | xor | shl | shr | shrUn | neg | not | convI1 | convI2 | convI4 | convI8 | convR4 |
  convR8 | convU4 | convU8 | callvirt | cpobj | ldobj | ldstr | newobj | castclass | isinst
  | convRUn | unbox | throw | ldfld | ldflda | stfld | ldsfld | ldsflda | stsfld | stobj |
  box | newarr | ldlen | ldelema | ldelemI1 | ldelemU1 | ldelemI2 | ldelemU2 | ldelemI4 |
  ldelemU4 | ldelemI8 | ldelemI | ldelemR4 | ldelemR8 | ldelemRef | stelemI | stelemI1 |
  stelemI2 | stelemI4 | stelemI8 | stelemR4 | stelemR8 | stelemRef | ldelem | stelem |
  unboxAny | ldtoken | convU2 | convU1 | convI | endfinally | leave | leaveS | stindI |
  convU | arglist | ceq | cgt | cgtUn | clt | cltUn | ldftn | ldvirtftn | ldarg | ldarga |
  starg | ldloc | ldloca | stloc | localloc | endfilter | initobj | constrained | cpblk |
  initblk | rethrow | sizeof
deriving DecidableEq

namespace Opcode

/-- The table of the instruction set. -/
def info : Opcode → OpcodeInfo
  | nop => ⟨"nop", 0x00, 0x00, .none, .sequential, 0, 0⟩
  | breakpoint => ⟨"break", 0x00, 0x01, .none, .sequential, 0, 0⟩
  | ldarg0 => ⟨"ldarg.0", 0x00, 0x02, .none, .sequential, 0, 1⟩
  | ldarg1 => ⟨"ldarg.1", 0x00, 0x03, .none, .sequential, 0, 1⟩
  | ldarg2 => ⟨"ldarg.2", 0x00, 0x04, .none, .sequential, 0, 1⟩
  | ldarg3 => ⟨"ldarg.3", 0x00, 0x05, .none, .sequential, 0, 1⟩
  | ldloc0 => ⟨"ldloc.0", 0x00, 0x06, .none, .sequential, 0, 1⟩
  | ldloc1 => ⟨"ldloc.1", 0x00, 0x07, .none, .sequential, 0, 1⟩
  | ldloc2 => ⟨"ldloc.2", 0x00, 0x08, .none, .sequential, 0, 1⟩
  | ldloc3 => ⟨"ldloc.3", 0x00, 0x09, .none, .sequential, 0, 1⟩
  | stloc0 => ⟨"stloc.0", 0x00, 0x0A, .none, .sequential, 1, 0⟩
  | stloc1 => ⟨"stloc.1", 0x00, 0x0B, .none, .sequential, 1, 0⟩
  | stloc2 => ⟨"stloc.2", 0x00, 0x0C, .none, .sequential, 1, 0⟩
  | stloc3 => ⟨"stloc.3", 0x00, 0x0D, .none, .sequential, 1, 0⟩
  | ldargS => ⟨"ldarg.s", 0x00, 0x0E, .shortArgument, .sequential, 0, 1⟩
  | ldargaS => ⟨"ldarga.s", 0x00, 0x0F, .shortArgument, .sequential, 0, 1⟩
  | stargS => ⟨"starg.s", 0x00, 0x10, .shortArgument, .sequential, 1, 0⟩
  | ldlocS => ⟨"ldloc.s", 0x00, 0x11, .shortLocal, .sequential, 0, 1⟩
  | ldlocaS => ⟨"ldloca.s", 0x00, 0x12, .shortLocal, .sequential, 0, 1⟩
  | stlocS => ⟨"stloc.s", 0x00, 0x13, .shortLocal, .sequential, 1, 0⟩
  | ldnull => ⟨"ldnull", 0x00, 0x14, .none, .sequential, 0, 1⟩
  | ldcI4M1 => ⟨"ldc.i4.m1", 0x00, 0x15, .none, .sequential, 0, 1⟩
  | ldcI40 => ⟨"ldc.i4.0", 0x00, 0x16, .none, .sequential, 0, 1⟩
  | ldcI41 => ⟨"ldc.i4.1", 0x00, 0x17, .none, .sequential, 0, 1⟩
  | ldcI42 => ⟨"ldc.i4.2", 0x00, 0x18, .none, .sequential, 0, 1⟩
  | ldcI43 => ⟨"ldc.i4.3", 0x00, 0x19, .none, .sequential, 0, 1⟩
  | ldcI44 => ⟨"ldc.i4.4", 0x00, 0x1A, .none, .sequential, 0, 1⟩
  | ldcI45 => ⟨"ldc.i4.5", 0x00, 0x1B, .none, .sequential, 0, 1⟩
  | ldcI46 => ⟨"ldc.i4.6", 0x00, 0x1C, .none, .sequential, 0, 1⟩
  | ldcI47 => ⟨"ldc.i4.7", 0x00, 0x1D, .none, .sequential, 0, 1⟩
  | ldcI48 => ⟨"ldc.i4.8", 0x00, 0x1E, .none, .sequential, 0, 1⟩
  | ldcI4S => ⟨"ldc.i4.s", 0x00, 0x1F, .int8, .sequential, 0, 1⟩
  | ldcI4 => ⟨"ldc.i4", 0x00, 0x20, .int32, .sequential, 0, 1⟩
  | ldcI8 => ⟨"ldc.i8", 0x00, 0x21, .int64, .sequential, 0, 1⟩
  | ldcR4 => ⟨"ldc.r4", 0x00, 0x22, .float32, .sequential, 0, 1⟩
  | ldcR8 => ⟨"ldc.r8", 0x00, 0x23, .float64, .sequential, 0, 1⟩
  | dup => ⟨"dup", 0x00, 0x25, .none, .sequential, 1, 2⟩
  | pop => ⟨"pop", 0x00, 0x26, .none, .sequential, 1, 0⟩
  | jmp => ⟨"jmp", 0x00, 0x27, .method, .exit, 0, 0⟩
  | call => ⟨"call", 0x00, 0x28, .method, .call, 0, 0⟩
  | calli => ⟨"calli", 0x00, 0x29, .signature, .call, 1, 0⟩
  | ret => ⟨"ret", 0x00, 0x2A, .none, .exit, 0, 0⟩
  | brS => ⟨"br.s", 0x00, 0x2B, .shortBranch, .unconditional, 0, 0⟩
  | brfalseS => ⟨"brfalse.s", 0x00, 0x2C, .shortBranch, .conditional, 1, 0⟩
  | brtrueS => ⟨"brtrue.s", 0x00, 0x2D, .shortBranch, .conditional, 1, 0⟩
  | beqS => ⟨"beq.s", 0x00, 0x2E, .shortBranch, .conditional, 2, 0⟩
  | bgeS => ⟨"bge.s", 0x00, 0x2F, .shortBranch, .conditional, 2, 0⟩
  | bgtS => ⟨"bgt.s", 0x00, 0x30, .shortBranch, .conditional, 2, 0⟩
  | bleS => ⟨"ble.s", 0x00, 0x31, .shortBranch, .conditional, 2, 0⟩
  | bltS => ⟨"blt.s", 0x00, 0x32, .shortBranch, .conditional, 2, 0⟩
  | bneUnS => ⟨"bne.un.s", 0x00, 0x33, .shortBranch, .conditional, 2, 0⟩
  | bgeUnS => ⟨"bge.un.s", 0x00, 0x34, .shortBranch, .conditional, 2, 0⟩
  | bgtUnS => ⟨"bgt.un.s", 0x00, 0x35, .shortBranch, .conditional, 2, 0⟩
  | bleUnS => ⟨"ble.un.s", 0x00, 0x36, .shortBranch, .conditional, 2, 0⟩
  | bltUnS => ⟨"blt.un.s", 0x00, 0x37, .shortBranch, .conditional, 2, 0⟩
  | br => ⟨"br", 0x00, 0x38, .branch, .unconditional, 0, 0⟩
  | brfalse => ⟨"brfalse", 0x00, 0x39, .branch, .conditional, 1, 0⟩
  | brtrue => ⟨"brtrue", 0x00, 0x3A, .branch, .conditional, 1, 0⟩
  | beq => ⟨"beq", 0x00, 0x3B, .branch, .conditional, 2, 0⟩
  | bge => ⟨"bge", 0x00, 0x3C, .branch, .conditional, 2, 0⟩
  | bgt => ⟨"bgt", 0x00, 0x3D, .branch, .conditional, 2, 0⟩
  | ble => ⟨"ble", 0x00, 0x3E, .branch, .conditional, 2, 0⟩
  | blt => ⟨"blt", 0x00, 0x3F, .branch, .conditional, 2, 0⟩
  | bneUn => ⟨"bne.un", 0x00, 0x40, .branch, .conditional, 2, 0⟩
  | bgeUn => ⟨"bge.un", 0x00, 0x41, .branch, .conditional, 2, 0⟩
  | bgtUn => ⟨"bgt.un", 0x00, 0x42, .branch, .conditional, 2, 0⟩
  | bleUn => ⟨"ble.un", 0x00, 0x43, .branch, .conditional, 2, 0⟩
  | bltUn => ⟨"blt.un", 0x00, 0x44, .branch, .conditional, 2, 0⟩
  | switch => ⟨"switch", 0x00, 0x45, .switch, .switch, 1, 0⟩
  | ldindI1 => ⟨"ldind.i1", 0x00, 0x46, .none, .sequential, 1, 1⟩
  | ldindU1 => ⟨"ldind.u1", 0x00, 0x47, .none, .sequential, 1, 1⟩
  | ldindI2 => ⟨"ldind.i2", 0x00, 0x48, .none, .sequential, 1, 1⟩
  | ldindU2 => ⟨"ldind.u2", 0x00, 0x49, .none, .sequential, 1, 1⟩
  | ldindI4 => ⟨"ldind.i4", 0x00, 0x4A, .none, .sequential, 1, 1⟩
  | ldindU4 => ⟨"ldind.u4", 0x00, 0x4B, .none, .sequential, 1, 1⟩
  | ldindI8 => ⟨"ldind.i8", 0x00, 0x4C, .none, .sequential, 1, 1⟩
  | ldindI => ⟨"ldind.i", 0x00, 0x4D, .none, .sequential, 1, 1⟩
  | ldindR4 => ⟨"ldind.r4", 0x00, 0x4E, .none, .sequential, 1, 1⟩
  | ldindR8 => ⟨"ldind.r8", 0x00, 0x4F, .none, .sequential, 1, 1⟩
  | ldindRef => ⟨"ldind.ref", 0x00, 0x50, .none, .sequential, 1, 1⟩
  | stindRef => ⟨"stind.ref", 0x00, 0x51, .none, .sequential, 2, 0⟩
  | stindI1 => ⟨"stind.i1", 0x00, 0x52, .none, .sequential, 2, 0⟩
  | stindI2 => ⟨"stind.i2", 0x00, 0x53, .none, .sequential, 2, 0⟩
  | stindI4 => ⟨"stind.i4", 0x00, 0x54, .none, .sequential, 2, 0⟩
  | stindI8 => ⟨"stind.i8", 0x00, 0x55, .none, .sequential, 2, 0⟩
  | stindR4 => ⟨"stind.r4", 0x00, 0x56, .none, .sequential, 2, 0⟩
  | stindR8 => ⟨"stind.r8", 0x00, 0x57, .none, .sequential, 2, 0⟩
  | add => ⟨"add", 0x00, 0x58, .none, .sequential, 2, 1⟩
  | sub => ⟨"sub", 0x00, 0x59, .none, .sequential, 2, 1⟩
  | mul => ⟨"mul", 0x00, 0x5A, .none, .sequential, 2, 1⟩
  | div => ⟨"div", 0x00, 0x5B, .none, .sequential, 2, 1⟩
  | divUn => ⟨"div.un", 0x00, 0x5C, .none, .sequential, 2, 1⟩
  | rem => ⟨"rem", 0x00, 0x5D, .none, .sequential, 2, 1⟩
  | remUn => ⟨"rem.un", 0x00, 0x5E, .none, .sequential, 2, 1⟩
  | and => ⟨"and", 0x00, 0x5F, .none, .sequential, 2, 1⟩
  | or => ⟨"or", 0x00, 0x60, .none, .sequential, 2, 1⟩
  | xor => ⟨"xor", 0x00, 0x61, .none, .sequential, 2, 1⟩
  | shl => ⟨"shl", 0x00, 0x62, .none, .sequential, 2, 1⟩
  | shr => ⟨"shr", 0x00, 0x63, .none, .sequential, 2, 1⟩
  | shrUn => ⟨"shr.un", 0x00, 0x64, .none, .sequential, 2, 1⟩
  | neg => ⟨"neg", 0x00, 0x65, .none, .sequential, 1, 1⟩
  | not => ⟨"not", 0x00, 0x66, .none, .sequential, 1, 1⟩
  | convI1 => ⟨"conv.i1", 0x00, 0x67, .none, .sequential, 1, 1⟩
  | convI2 => ⟨"conv.i2", 0x00, 0x68, .none, .sequential, 1, 1⟩
  | convI4 => ⟨"conv.i4", 0x00, 0x69, .none, .sequential, 1, 1⟩
  | convI8 => ⟨"conv.i8", 0x00, 0x6A, .none, .sequential, 1, 1⟩
  | convR4 => ⟨"conv.r4", 0x00, 0x6B, .none, .sequential, 1, 1⟩
  | convR8 => ⟨"conv.r8", 0x00, 0x6C, .none, .sequential, 1, 1⟩
  | convU4 => ⟨"conv.u4", 0x00, 0x6D, .none, .sequential, 1, 1⟩
  | convU8 => ⟨"conv.u8", 0x00, 0x6E, .none, .sequential, 1, 1⟩
  | callvirt => ⟨"callvirt", 0x00, 0x6F, .method, .call, 0, 0⟩
  | cpobj => ⟨"cpobj", 0x00, 0x70, .type, .sequential, 2, 0⟩
  | ldobj => ⟨"ldobj", 0x00, 0x71, .type, .sequential, 1, 1⟩
  | ldstr => ⟨"ldstr", 0x00, 0x72, .string, .sequential, 0, 1⟩
  | newobj => ⟨"newobj", 0x00, 0x73, .method, .call, 0, 1⟩
  | castclass => ⟨"castclass", 0x00, 0x74, .type, .sequential, 1, 1⟩
  | isinst => ⟨"isinst", 0x00, 0x75, .type, .sequential, 1, 1⟩
  | convRUn => ⟨"conv.r.un", 0x00, 0x76, .none, .sequential, 1, 1⟩
  | unbox => ⟨"unbox", 0x00, 0x79, .type, .sequential, 1, 1⟩
  | throw => ⟨"throw", 0x00, 0x7A, .none, .throw, 1, 0⟩
  | ldfld => ⟨"ldfld", 0x00, 0x7B, .field, .sequential, 1, 1⟩
  | ldflda => ⟨"ldflda", 0x00, 0x7C, .field, .sequential, 1, 1⟩
  | stfld => ⟨"stfld", 0x00, 0x7D, .field, .sequential, 2, 0⟩
  | ldsfld => ⟨"ldsfld", 0x00, 0x7E, .field, .sequential, 0, 1⟩
  | ldsflda => ⟨"ldsflda", 0x00, 0x7F, .field, .sequential, 0, 1⟩
  | stsfld => ⟨"stsfld", 0x00, 0x80, .field, .sequential, 1, 0⟩
  | stobj => ⟨"stobj", 0x00, 0x81, .type, .sequential, 2, 0⟩
  | box => ⟨"box", 0x00, 0x8C, .type, .sequential, 1, 1⟩
  | newarr => ⟨"newarr", 0x00, 0x8D, .type, .sequential, 1, 1⟩
  | ldlen => ⟨"ldlen", 0x00, 0x8E, .none, .sequential, 1, 1⟩
  | ldelema => ⟨"ldelema", 0x00, 0x8F, .type, .sequential, 2, 1⟩
  | ldelemI1 => ⟨"ldelem.i1", 0x00, 0x90, .none, .sequential, 2, 1⟩
  | ldelemU1 => ⟨"ldelem.u1", 0x00, 0x91, .none, .sequential, 2, 1⟩
  | ldelemI2 => ⟨"ldelem.i2", 0x00, 0x92, .none, .sequential, 2, 1⟩
  | ldelemU2 => ⟨"ldelem.u2", 0x00, 0x93, .none, .sequential, 2, 1⟩
  | ldelemI4 => ⟨"ldelem.i4", 0x00, 0x94, .none, .sequential, 2, 1⟩
  | ldelemU4 => ⟨"ldelem.u4", 0x00, 0x95, .none, .sequential, 2, 1⟩
  | ldelemI8 => ⟨"ldelem.i8", 0x00, 0x96, .none, .sequential, 2, 1⟩
  | ldelemI => ⟨"ldelem.i", 0x00, 0x97, .none, .sequential, 2, 1⟩
  | ldelemR4 => ⟨"ldelem.r4", 0x00, 0x98, .none, .sequential, 2, 1⟩
  | ldelemR8 => ⟨"ldelem.r8", 0x00, 0x99, .none, .sequential, 2, 1⟩
  | ldelemRef => ⟨"ldelem.ref", 0x00, 0x9A, .none, .sequential, 2, 1⟩
  | stelemI => ⟨"stelem.i", 0x00, 0x9B, .none, .sequential, 3, 0⟩
  | stelemI1 => ⟨"stelem.i1", 0x00, 0x9C, .none, .sequential, 3, 0⟩
  | stelemI2 => ⟨"stelem.i2", 0x00, 0x9D, .none, .sequential, 3, 0⟩
  | stelemI4 => ⟨"stelem.i4", 0x00, 0x9E, .none, .sequential, 3, 0⟩
  | stelemI8 => ⟨"stelem.i8", 0x00, 0x9F, .none, .sequential, 3, 0⟩
  | stelemR4 => ⟨"stelem.r4", 0x00, 0xA0, .none, .sequential, 3, 0⟩
  | stelemR8 => ⟨"stelem.r8", 0x00, 0xA1, .none, .sequential, 3, 0⟩
  | stelemRef => ⟨"stelem.ref", 0x00, 0xA2, .none, .sequential, 3, 0⟩
  | ldelem => ⟨"ldelem", 0x00, 0xA3, .type, .sequential, 2, 1⟩
  | stelem => ⟨"stelem", 0x00, 0xA4, .type, .sequential, 3, 0⟩
  | unboxAny => ⟨"unbox.any", 0x00, 0xA5, .type, .sequential, 1, 1⟩
  | ldtoken => ⟨"ldtoken", 0x00, 0xD0, .token, .sequential, 0, 1⟩
  | convU2 => ⟨"conv.u2", 0x00, 0xD1, .none, .sequential, 1, 1⟩
  | convU1 => ⟨"conv.u1", 0x00, 0xD2, .none, .sequential, 1, 1⟩
  | convI => ⟨"conv.i", 0x00, 0xD3, .none, .sequential, 1, 1⟩
  | endfinally => ⟨"endfinally", 0x00, 0xDC, .none, .endHandler, 0, 0⟩
  | leave => ⟨"leave", 0x00, 0xDD, .branch, .leave, 0, 0⟩
  | leaveS => ⟨"leave.s", 0x00, 0xDE, .shortBranch, .leave, 0, 0⟩
  | stindI => ⟨"stind.i", 0x00, 0xDF, .none, .sequential, 2, 0⟩
  | convU => ⟨"conv.u", 0x00, 0xE0, .none, .sequential, 1, 1⟩
  | arglist => ⟨"arglist", 0xFE, 0x00, .none, .sequential, 0, 1⟩
  | ceq => ⟨"ceq", 0xFE, 0x01, .none, .sequential, 2, 1⟩
  | cgt => ⟨"cgt", 0xFE, 0x02, .none, .sequential, 2, 1⟩
  | cgtUn => ⟨"cgt.un", 0xFE, 0x03, .none, .sequential, 2, 1⟩
  | clt => ⟨"clt", 0xFE, 0x04, .none, .sequential, 2, 1⟩
  | cltUn => ⟨"clt.un", 0xFE, 0x05, .none, .sequential, 2, 1⟩
  | ldftn => ⟨"ldftn", 0xFE, 0x06, .method, .sequential, 0, 1⟩
  | ldvirtftn => ⟨"ldvirtftn", 0xFE, 0x07, .method, .sequential, 1, 1⟩
  | ldarg => ⟨"ldarg", 0xFE, 0x09, .argument, .sequential, 0, 1⟩
  | ldarga => ⟨"ldarga", 0xFE, 0x0A, .argument, .sequential, 0, 1⟩
  | starg => ⟨"starg", 0xFE, 0x0B, .argument, .sequential, 1, 0⟩
  | ldloc => ⟨"ldloc", 0xFE, 0x0C, .localSlot, .sequential, 0, 1⟩
  | ldloca => ⟨"ldloca", 0xFE, 0x0D, .localSlot, .sequential, 0, 1⟩
  | stloc => ⟨"stloc", 0xFE, 0x0E, .localSlot, .sequential, 1, 0⟩
  | localloc => ⟨"localloc", 0xFE, 0x0F, .none, .sequential, 1, 1⟩
  | endfilter => ⟨"endfilter", 0xFE, 0x11, .none, .endHandler, 1, 0⟩
  | initobj => ⟨"initobj", 0xFE, 0x15, .type, .sequential, 1, 0⟩
  | constrained => ⟨"constrained.", 0xFE, 0x16, .type, .sequential, 0, 0⟩
  | cpblk => ⟨"cpblk", 0xFE, 0x17, .none, .sequential, 3, 0⟩
  | initblk => ⟨"initblk", 0xFE, 0x18, .none, .sequential, 3, 0⟩
  | rethrow => ⟨"rethrow", 0xFE, 0x1A, .none, .throw, 0, 0⟩
  | sizeof => ⟨"sizeof", 0xFE, 0x1C, .type, .sequential, 0, 1⟩

/-- Every operation, in the order of the table. -/
def all : List Opcode := [
  nop, breakpoint, ldarg0, ldarg1, ldarg2, ldarg3, ldloc0, ldloc1, ldloc2, ldloc3, stloc0,
  stloc1, stloc2, stloc3, ldargS, ldargaS, stargS, ldlocS, ldlocaS, stlocS, ldnull, ldcI4M1,
  ldcI40, ldcI41, ldcI42, ldcI43, ldcI44, ldcI45, ldcI46, ldcI47, ldcI48, ldcI4S, ldcI4,
  ldcI8, ldcR4, ldcR8, dup, pop, jmp, call, calli, ret, brS, brfalseS, brtrueS, beqS, bgeS,
  bgtS, bleS, bltS, bneUnS, bgeUnS, bgtUnS, bleUnS, bltUnS, br, brfalse, brtrue, beq, bge,
  bgt, ble, blt, bneUn, bgeUn, bgtUn, bleUn, bltUn, switch, ldindI1, ldindU1, ldindI2,
  ldindU2, ldindI4, ldindU4, ldindI8, ldindI, ldindR4, ldindR8, ldindRef, stindRef, stindI1,
  stindI2, stindI4, stindI8, stindR4, stindR8, add, sub, mul, div, divUn, rem, remUn, and,
  or, xor, shl, shr, shrUn, neg, not, convI1, convI2, convI4, convI8, convR4, convR8,
  convU4, convU8, callvirt, cpobj, ldobj, ldstr, newobj, castclass, isinst, convRUn, unbox,
  throw, ldfld, ldflda, stfld, ldsfld, ldsflda, stsfld, stobj, box, newarr, ldlen, ldelema,
  ldelemI1, ldelemU1, ldelemI2, ldelemU2, ldelemI4, ldelemU4, ldelemI8, ldelemI, ldelemR4,
  ldelemR8, ldelemRef, stelemI, stelemI1, stelemI2, stelemI4, stelemI8, stelemR4, stelemR8,
  stelemRef, ldelem, stelem, unboxAny, ldtoken, convU2, convU1, convI, endfinally, leave,
  leaveS, stindI, convU, arglist, ceq, cgt, cgtUn, clt, cltUn, ldftn, ldvirtftn, ldarg,
  ldarga, starg, ldloc, ldloca, stloc, localloc, endfilter, initobj, constrained, cpblk,
  initblk, rethrow, sizeof]

/-- The text of an operation. -/
def mnemonic (op : Opcode) : String := op.info.mnemonic

/-- The byte before the code. -/
def page (op : Opcode) : UInt8 := op.info.page

/-- The byte that tells the operation apart from the others of its page. -/
def code (op : Opcode) : UInt8 := op.info.code

/-- The layout of the operand. -/
def operandKind (op : Opcode) : OperandKind := op.info.operand

/-- Where control goes afterwards. -/
def flow (op : Opcode) : Flow := op.info.flow

/-- The number of bytes of the operation without its operand. -/
def size (op : Opcode) : Nat := if op.page == 0xFE then 2 else 1

/-- The same branch with a target of four bytes in place of one; any other operation
stays as it is. -/
def longForm : Opcode → Opcode
  | brS => br
  | brfalseS => brfalse
  | brtrueS => brtrue
  | beqS => beq
  | bgeS => bge
  | bgtS => bgt
  | bleS => ble
  | bltS => blt
  | bneUnS => bneUn
  | bgeUnS => bgeUn
  | bgtUnS => bgtUn
  | bleUnS => bleUn
  | bltUnS => bltUn
  | leaveS => leave
  | other => other

/-- The operation with a given page and code. -/
def ofEncoding? (page code : UInt8) : Option Opcode :=
  all.find? fun op => op.page == page && op.code == code

/-- The operation with a given mnemonic.  The case of ASCII letters does not matter. -/
def ofMnemonic? (text : String) : Option Opcode :=
  all.find? fun op => Text.sameName op.mnemonic text

/-- The list of operations is complete. -/
theorem mem_all (op : Opcode) : op ∈ all := by
  cases op <;> decide +kernel

end Opcode
end HookImage
