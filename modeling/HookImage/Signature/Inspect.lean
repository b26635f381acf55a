/-
# Types spelled out

The full text of a type or a method signature, for messages about one that could not
be used.  A value is written with the name of its form and its parts in order: parts
that go by position in parentheses, parts that go by name in braces, lists in brackets.
-/

import HookImage.Signature.Basic
import HookImage.Text.Quoted

namespace HookImage
namespace Inspect

/-- A form whose parts go by name. -/
def record (name : String) (fields : List (String × String)) : String :=
  let parts := fields.map fun field => field.1 ++ ": " ++ field.2
  name ++ " \x7b " ++ ", ".intercalate parts ++ " \x7d"

/-- A form with one part that goes by position. -/
def wrapped (name content : String) : String := name ++ "(" ++ content ++ ")"

/-- A list in brackets. -/
def list (items : List String) : String := "[" ++ ", ".intercalate items ++ "]"

/-- A part that may be absent. -/
def option : Option String → String
  | none => "None"
  | some content => wrapped "Some" content

/-- A truth value. -/
def bool (b : Bool) : String := if b then "true" else "false"

end Inspect

open Inspect

/-- A module number with the name of its kind. -/
def ModuleId.inspect (a : ModuleId) : String := wrapped "ModuleId" (toString a.val.toNat)

/-- A method number with the name of its kind. -/
def MethodId.inspect (m : MethodId) : String := wrapped "MethodId" (toString m.val.toNat)

/-- A handle number with the name of its kind. -/
def HandleId.inspect (h : HandleId) : String := wrapped "HandleId" (toString h.val.toNat)

/-- A link of a type reference within the links around it. -/
def TypeRef.inspectChain (t : TypeName) (around : List TypeName) : String :=
  let enclosing := match around with
    | [] => none
    | o :: os => some (inspectChain o os)
  record "TypeReference" [
    ("module", option (t.module.map (·.inspect))),
    ("namespace", Text.quote t.nspace),
    ("name", Text.quote t.name),
    ("enclosing", option enclosing)]

/-- A type reference with every link spelled out. -/
def TypeRef.inspect (r : TypeRef) : String := inspectChain r.leaf r.enclosing

/-- A named type and the form of its name. -/
def TypeHandle.inspect : TypeHandle → String
  | reference r => wrapped "Reference" r.inspect
  | token t => wrapped "Token" t.inspect

/-- The name of a primitive type. -/
def PrimitiveType.inspect : PrimitiveType → String
  | void => "Void"
  | boolean => "Boolean"
  | char => "Char"
  | int8 => "I1"
  | uint8 => "U1"
  | int16 => "I2"
  | uint16 => "U2"
  | int32 => "I4"
  | uint32 => "U4"
  | int64 => "I8"
  | uint64 => "U8"
  | float32 => "R4"
  | float64 => "R8"
  | nativeInt => "I"
  | nativeUInt => "U"
  | string => "String"
  | object => "Object"
  | typedByRef => "TypedByRef"

/-- A type with all its parts. -/
def TypeSig.inspect : TypeSig → String
  | primitive p => p.inspect
  | reference h => wrapped "Class" h.inspect
  | value h => wrapped "ValueType" h.inspect
  | generic isValue definition arguments =>
    record "GenericInst" [
      ("value_type", bool isValue),
      ("definition", definition.inspect),
      ("arguments", list (arguments.map inspect))]
  | array e => wrapped "SzArray" e.inspect
  | byRef e => wrapped "ByRef" e.inspect
  | pointer e => wrapped "Ptr" e.inspect
  | typeParam n => wrapped "GenericParamType" (toString n.toNat)
  | methodParam n => wrapped "GenericParamMethod" (toString n.toNat)

/-- The name of a calling convention. -/
def CallConvention.inspect : CallConvention → String
  | default => "Default"
  | c => "C"
  | stdCall => "StdCall"
  | thisCall => "ThisCall"
  | fastCall => "FastCall"
  | varArg => "VarArg"

/-- A method signature with all its parts. -/
def MethodSig.inspect (s : MethodSig) : String :=
  record "MethodSignature" [
    ("has_this", bool s.hasThis),
    ("explicit_this", bool s.explicitThis),
    ("calling_convention", s.convention.inspect),
    ("generic_param_count", toString s.genericCount.toNat),
    ("return_type", s.result.inspect),
    ("params", list (s.params.map (·.inspect)))]

end HookImage
