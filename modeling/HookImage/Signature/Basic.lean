/-
# Types and signatures

A signature names its types either symbolically, by the chain of names that leads to
a type of the audited process, or by a token of the output image.  Importing replaces
the first form by the second; only the second can be written.
-/

import HookImage.Identity
import HookImage.Token

namespace HookImage

/-- One link of a type reference: the simple name of a type, its namespace, and the
module that is said to define it. -/
structure TypeName where
  module : Option ModuleId
  nspace : String
  name : String
deriving DecidableEq

/-- A type of the audited process by name: its own link, followed by the links of the
types that enclose it, innermost first. -/
structure TypeRef where
  leaf : TypeName
  enclosing : List TypeName := []
deriving DecidableEq

namespace TypeRef

/-- A type that no other type encloses. -/
def topLevel (module : Option ModuleId) (nspace name : String) : TypeRef :=
  ⟨⟨module, nspace, name⟩, []⟩

/-- A type within another: it has the module of the outer type and no namespace. -/
def nested (outer : TypeRef) (name : String) : TypeRef :=
  ⟨⟨outer.leaf.module, "", name⟩, outer.leaf :: outer.enclosing⟩

/-- The type that directly encloses this one. -/
def outer? (r : TypeRef) : Option TypeRef :=
  match r.enclosing with
  | [] => none
  | t :: ts => some ⟨t, ts⟩

/-- The link of the outermost type, which lies in a module and in no type. -/
def outermost (r : TypeRef) : TypeName := r.enclosing.getLast?.getD r.leaf

/-- The full name of a link within the links around it. -/
def chainName (t : TypeName) : List TypeName → String
  | [] => if t.nspace.isEmpty then t.name else s!"{t.nspace}.{t.name}"
  | o :: os => s!"{chainName o os}+{t.name}"

/-- The full name: the namespace and the names from the outside in, with a plus sign
between an enclosing type and its member. -/
def fullName (r : TypeRef) : String := chainName r.leaf r.enclosing

end TypeRef

/-- A named type inside a signature. -/
inductive TypeHandle where
  /-- A type of the audited process. -/
  | reference (r : TypeRef)
  /-- A row of the output image. -/
  | token (t : Token)
deriving DecidableEq

/-- Whether the handle can be written as it is. -/
def TypeHandle.isResolved : TypeHandle → Bool
  | reference _ => false
  | token _ => true

/-- The types that have no name of their own in metadata. -/
inductive PrimitiveType where
  | void | boolean | char
  | int8 | uint8 | int16 | uint16 | int32 | uint32 | int64 | uint64
  | float32 | float64
  | nativeInt | nativeUInt
  | string | object | typedByRef
deriving DecidableEq

namespace PrimitiveType

/-- The short name of a type. -/
def shortName : PrimitiveType → String
  | void => "void"
  | boolean => "bool"
  | char => "char"
  | int8 => "i1"
  | uint8 => "u1"
  | int16 => "i2"
  | uint16 => "u2"
  | int32 => "i4"
  | uint32 => "u4"
  | int64 => "i8"
  | uint64 => "u8"
  | float32 => "r4"
  | float64 => "r8"
  | nativeInt => "i"
  | nativeUInt => "u"
  | string => "string"
  | object => "object"
  | typedByRef => "typedbyref"

/-- Every type without a name in metadata. -/
def all : List PrimitiveType :=
  [void, boolean, char, int8, uint8, int16, uint16, int32, uint32, int64, uint64, float32,
    float64, nativeInt, nativeUInt, string, object, typedByRef]

end PrimitiveType

/-- A type as it stands in a signature. -/
inductive TypeSig where
  /-- A type without a name in metadata. -/
  | primitive (p : PrimitiveType)
  /-- A named reference type. -/
  | reference (h : TypeHandle)
  /-- A named value type. -/
  | value (h : TypeHandle)
  /-- A generic type applied to arguments. -/
  | generic (isValue : Bool) (definition : TypeHandle) (arguments : List TypeSig)
  /-- A one-dimensional array that starts at zero. -/
  | array (element : TypeSig)
  /-- A managed pointer. -/
  | byRef (element : TypeSig)
  /-- An unmanaged pointer. -/
  | pointer (element : TypeSig)
  /-- A parameter of the generic type around. -/
  | typeParam (index : UInt32)
  /-- A parameter of the generic method around. -/
  | methodParam (index : UInt32)

namespace TypeSig

instance : Inhabited TypeSig := ⟨.primitive .void⟩

/-- The named types in a signature, from left to right. -/
def handles : TypeSig → List TypeHandle
  | reference h | value h => [h]
  | generic _ definition arguments => definition :: arguments.flatMap handles
  | array e | byRef e | pointer e => e.handles
  | primitive _ | typeParam _ | methodParam _ => []

/-- Whether every named type is a token. -/
def isResolved (t : TypeSig) : Bool := t.handles.all (·.isResolved)

/-- Whether the type has no row of its own and needs a constructed one to be named
by a token. -/
def needsSpec : TypeSig → Bool
  | reference _ | value _ => false
  | _ => true

/-- Whether the type is the absence of a value. -/
def isVoid : TypeSig → Bool
  | primitive .void => true
  | _ => false

end TypeSig

/-- How the arguments of a method are passed. -/
inductive CallConvention where
  | default | c | stdCall | thisCall | fastCall | varArg
deriving DecidableEq

namespace CallConvention

/-- The short name of a convention. -/
def shortName : CallConvention → String
  | default => "default"
  | c => "c"
  | stdCall => "stdcall"
  | thisCall => "thiscall"
  | fastCall => "fastcall"
  | varArg => "vararg"

/-- Every convention. -/
def all : List CallConvention := [default, c, stdCall, thisCall, fastCall, varArg]

end CallConvention

/-- The signature of a method. -/
structure MethodSig where
  /-- Whether there is a receiver. -/
  hasThis : Bool := false
  /-- Whether the receiver is the first declared parameter. -/
  explicitThis : Bool := false
  convention : CallConvention := .default
  /-- How many parameters the generic method has. -/
  genericCount : UInt32 := 0
  result : TypeSig := .primitive .void
  params : List TypeSig := []

namespace MethodSig

/-- The named types of the result and the parameters, in this order. -/
def handles (s : MethodSig) : List TypeHandle :=
  s.result.handles ++ s.params.flatMap (·.handles)

/-- Whether every named type is a token. -/
def isResolved (s : MethodSig) : Bool := s.result.isResolved && s.params.all (·.isResolved)

/-- How many values a call takes from the stack: the parameters, and the receiver
unless it is one of them. -/
def stackPops (s : MethodSig) : Nat :=
  s.params.length + if s.hasThis && !s.explicitThis then 1 else 0

/-- How many values a call leaves on the stack. -/
def stackPushes (s : MethodSig) : Nat := if s.result.isVoid then 0 else 1

end MethodSig

/-- A method named by an instruction. -/
structure MethodRef where
  declaringType : Option TypeSig
  name : String
  signature : MethodSig
  /-- The arguments of an instantiation of a generic method. -/
  genericArguments : List TypeSig := []

/-- Whether every named type, the declaring one included, is a token. -/
def MethodRef.isResolved (m : MethodRef) : Bool :=
  m.declaringType.any (·.isResolved) && m.signature.isResolved &&
    m.genericArguments.all (·.isResolved)

/-- A field named by an instruction. -/
structure FieldRef where
  declaringType : Option TypeSig
  name : String
  fieldType : TypeSig

/-- A local variable slot. -/
structure LocalVar where
  type : TypeSig
  /-- Whether the collector must not move what the slot refers to. -/
  pinned : Bool := false

end HookImage
