/-
# Signature blobs

The byte form of types and signatures.  Only an imported signature has one: every named
type must be a token of a table that signatures can refer to.  A symbolic type is
reported and never written.
-/

import HookImage.Bytes
import HookImage.Error

namespace HookImage
namespace Blob

/-- The byte that stands for a primitive type. -/
def elementCode : PrimitiveType → UInt8
  | .void => 0x01
  | .boolean => 0x02
  | .char => 0x03
  | .int8 => 0x04
  | .uint8 => 0x05
  | .int16 => 0x06
  | .uint16 => 0x07
  | .int32 => 0x08
  | .uint32 => 0x09
  | .int64 => 0x0A
  | .uint64 => 0x0B
  | .float32 => 0x0C
  | .float64 => 0x0D
  | .string => 0x0E
  | .typedByRef => 0x16
  | .nativeInt => 0x18
  | .nativeUInt => 0x19
  | .object => 0x1C

/-- The byte before a pointed-to type. -/
def pointerCode : UInt8 := 0x0F

/-- The byte before the target of a managed pointer. -/
def byRefCode : UInt8 := 0x10

/-- The byte before a named value type. -/
def valueCode : UInt8 := 0x11

/-- The byte before a named reference type. -/
def referenceCode : UInt8 := 0x12

/-- The byte before the number of a type parameter. -/
def typeParamCode : UInt8 := 0x13

/-- The byte before an applied generic type. -/
def genericCode : UInt8 := 0x15

/-- The byte before the element type of an array. -/
def arrayCode : UInt8 := 0x1D

/-- The byte before the number of a method parameter. -/
def methodParamCode : UInt8 := 0x1E

/-- The byte before the type of a pinned local variable. -/
def pinnedCode : UInt8 := 0x45

/-- The first byte of a field signature. -/
def fieldHeader : UInt8 := 0x06

/-- The first byte of a signature of local variables. -/
def localsHeader : UInt8 := 0x07

/-- The first byte of an instantiation. -/
def instantiationHeader : UInt8 := 0x0A

/-- The mark of a generic method in the first byte of its signature. -/
def genericMark : UInt8 := 0x10

/-- The mark of a receiver. -/
def thisMark : UInt8 := 0x20

/-- The mark of a receiver among the declared parameters. -/
def explicitThisMark : UInt8 := 0x40

/-- The number of a calling convention. -/
def conventionCode : CallConvention → UInt8
  | .default => 0
  | .c => 1
  | .stdCall => 2
  | .thisCall => 3
  | .fastCall => 4
  | .varArg => 5

/-- The tag of a table that a signature can refer to. -/
def typeTag? : TableId → Option UInt32
  | .typeDef => some 0
  | .typeRef => some 1
  | .typeSpec => some 2
  | _ => none

/-- A named type: its row and the tag of its table in one compressed number. -/
def typeToken (t : Token) : Except Malformation Bytes :=
  match t.table?.bind typeTag? with
  | some tag => .ok (Bytes.compressed (UInt32.ofNat (t.row * 4) ||| tag))
  | none => .error (.notTypeDefOrRef t)

/-- A named type, which must have been imported. -/
def handle : TypeHandle → Except Malformation Bytes
  | .token t => typeToken t
  | .reference r => .error (.notImported r)

/-- The number of members of a list. -/
def count (length : Nat) : Except Malformation Bytes :=
  if length < 0x100000000 then .ok (Bytes.compressedLength length) else .error (.listTooLong length)

mutual

/-- A type: its code, and behind it what the code calls for. -/
def type : TypeSig → Except Malformation Bytes
  | .primitive p => .ok [elementCode p]
  | .reference h => do return referenceCode :: (← handle h)
  | .value h => do return valueCode :: (← handle h)
  | .generic isValue definition arguments => do
    let name ← handle definition
    let length ← count arguments.length
    let members ← types arguments
    return genericCode :: (if isValue then valueCode else referenceCode) :: name ++ length ++ members
  | .array e => do return arrayCode :: (← type e)
  | .byRef e => do return byRefCode :: (← type e)
  | .pointer e => do return pointerCode :: (← type e)
  | .typeParam n => .ok (typeParamCode :: Bytes.compressed n)
  | .methodParam n => .ok (methodParamCode :: Bytes.compressed n)

/-- Types one after the other. -/
def types : List TypeSig → Except Malformation Bytes
  | [] => .ok []
  | t :: ts => do
    let first ← type t
    let rest ← types ts
    return first ++ rest

end

/-- The first byte of a method signature. -/
def methodHeader (s : MethodSig) : UInt8 :=
  conventionCode s.convention ||| (if s.hasThis then thisMark else 0) |||
    (if s.explicitThis then explicitThisMark else 0) |||
    (if s.genericCount > 0 then genericMark else 0)

/-- The signature of a method: header, number of generic parameters if there are any,
number of parameters, result and parameters. -/
def method (s : MethodSig) : Except Malformation Bytes := do
  let generics := if s.genericCount > 0 then Bytes.compressed s.genericCount else []
  let length ← count s.params.length
  let result ← type s.result
  let params ← types s.params
  return methodHeader s :: generics ++ length ++ result ++ params

/-- The signature of a field. -/
def field (t : TypeSig) : Except Malformation Bytes := do
  return fieldHeader :: (← type t)

/-- The type of a local variable, marked if it is pinned. -/
def localVar (v : LocalVar) : Except Malformation Bytes := do
  let t ← type v.type
  return if v.pinned then pinnedCode :: t else t

/-- The signature of a list of local variables. -/
def locals (vs : List LocalVar) : Except Malformation Bytes := do
  let length ← count vs.length
  let members ← vs.mapM localVar
  return localsHeader :: length ++ members.flatten

/-- The instantiation of a generic method. -/
def instantiation (arguments : List TypeSig) : Except Malformation Bytes := do
  let length ← count arguments.length
  let members ← types arguments
  return instantiationHeader :: length ++ members

end Blob
end HookImage
