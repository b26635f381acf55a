/-
# The view of the audited process

A reconstruction asks the process for methods, bodies, types and modules by number, and
for types by name.  From these answers the symbolic references are built.
-/

import HookImage.Cil.Body
import HookImage.Host.Descriptor
import HookImage.Host.Patch

namespace HookImage

/-- How deep types may be nested. -/
def nestingLimit : Nat := 64

/-- What the audited process answers. -/
structure HostView where
  method : MethodId → Option MethodInfo
  body : MethodId → Option MethodBody
  type : TypeId → Option TypeInfo
  module : ModuleId → Option ModuleInfo
  /-- The loaded modules. -/
  modules : List ModuleInfo
  /-- A type by its full name. -/
  findType : String → Option TypeInfo
  /-- Breakdowns of patched methods, if a patch engine is there to tell. -/
  patches : Option (MethodId → Option PatchInfo)

namespace HostView

/-- The chain of names of a type, whose nesting may use up `depth` more levels. -/
def referenceWithin (view : HostView) (id : TypeId) : Nat → Except Error TypeRef
  | 0 => .error (.recursionLimit nestingLimit)
  | depth + 1 =>
    match view.type id with
    | none => .error (.typeNotFound id)
    | some t =>
      match t.enclosing with
      | none => .ok (.topLevel t.module t.nspace t.name)
      | some outer => do
        let around ← view.referenceWithin outer depth
        return { (TypeRef.nested around t.name) with leaf := ⟨t.module, "", t.name⟩ }

/-- The symbolic reference to a type. -/
def typeReference (view : HostView) (id : TypeId) : Except Error TypeRef :=
  view.referenceWithin id nestingLimit

/-- The type as it stands in a signature.  An instantiation names its definition. -/
def typeSignature (view : HostView) (id : TypeId) : Except Error TypeSig :=
  match view.type id with
  | none => .error (.typeNotFound id)
  | some t =>
    match t.genericDefinition with
    | some definition => do
      return .generic t.isValueType (.reference (← view.typeReference definition))
        t.genericArguments
    | none => do
      let handle := TypeHandle.reference (← view.typeReference id)
      return if t.isValueType then .value handle else .reference handle

/-- The symbolic reference to a method. -/
def methodReference (view : HostView) (id : MethodId) : Except Error MethodRef :=
  match view.method id with
  | none => .error (.methodNotFound id)
  | some m => do
    let declaringType ← m.declaringType.mapM view.typeSignature
    return { declaringType, name := m.name, signature := m.signature }

end HostView
end HookImage
