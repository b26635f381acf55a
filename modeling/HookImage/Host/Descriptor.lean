/-
# Descriptors of methods and types

What the audited process tells about a method or a type when it is asked for one by
number.
-/

import HookImage.Signature.Basic

namespace HookImage

/-- A method of the audited process. -/
structure MethodInfo where
  id : MethodId
  name : String
  /-- The type that declares the method; absent for a method of no type. -/
  declaringType : Option TypeId := none
  signature : MethodSig
  /-- The names of the declared parameters, as far as they are known. -/
  paramNames : List String := []

namespace MethodInfo

/-- The name of a declared parameter; one that is not known goes by its position. -/
def paramName (m : MethodInfo) (index : Nat) : String :=
  m.paramNames[index]?.getD s!"arg{index}"

/-- Whether the method has no receiver. -/
def isStatic (m : MethodInfo) : Bool := !m.signature.hasThis

end MethodInfo

/-- A type of the audited process. -/
structure TypeInfo where
  id : TypeId
  module : Option ModuleId
  nspace : String
  name : String
  /-- The type around it. -/
  enclosing : Option TypeId := none
  /-- The generic type that this one is an instantiation of. -/
  genericDefinition : Option TypeId := none
  genericArguments : List TypeSig := []
  isValueType : Bool := false

namespace TypeInfo

/-- The type within another one.  A nested type has no namespace. -/
def nestedIn (t : TypeInfo) (outer : TypeId) : TypeInfo :=
  { t with enclosing := some outer, nspace := "" }

/-- The type as an instantiation of a generic one. -/
def instanceOf (t : TypeInfo) (definition : TypeId) (arguments : List TypeSig) : TypeInfo :=
  { t with genericDefinition := some definition, genericArguments := arguments }

end TypeInfo
end HookImage
