/-
# Captured processes

A view that answers from descriptors which were collected beforehand.  A descriptor that
is added again replaces the earlier one.
-/

import HookImage.Host.View
import Std.Data.HashMap

namespace HookImage

/-- The collected descriptors. -/
structure Capture where
  methods : Std.HashMap MethodId MethodInfo := ∅
  bodies : Std.HashMap MethodId MethodBody := ∅
  types : Std.HashMap TypeId TypeInfo := ∅
  modules : Std.HashMap ModuleId ModuleInfo := ∅
  patches : Std.HashMap MethodId PatchInfo := ∅

namespace Capture

/-- Adds a module. -/
def addModule (c : Capture) (a : ModuleInfo) : Capture :=
  { c with modules := c.modules.insert a.id a }

/-- Adds a type. -/
def addType (c : Capture) (t : TypeInfo) : Capture :=
  { c with types := c.types.insert t.id t }

/-- Adds a method with its body.  A method that is added without one has none, even if
it had one before. -/
def addMethod (c : Capture) (m : MethodInfo) (body : Option MethodBody) : Capture :=
  { c with
    methods := c.methods.insert m.id m
    bodies := match body with
      | some b => c.bodies.insert m.id b
      | none => c.bodies.erase m.id }

/-- Adds the breakdown of a patched method. -/
def addPatches (c : Capture) (target : MethodId) (info : PatchInfo) : Capture :=
  { c with patches := c.patches.insert target info }

/-- The modules in the order of their numbers. -/
def modulesInOrder (c : Capture) : List ModuleInfo :=
  c.modules.values.mergeSort fun a b => a.id.val ≤ b.id.val

/-- The types that a name can find, in the order of their numbers: those that are no
instantiation and lie in a collected module. -/
def namedTypes (c : Capture) : List TypeInfo :=
  let isNamed (t : TypeInfo) : Bool :=
    t.genericDefinition.isNone && t.module.any c.modules.contains
  (c.types.values.filter isNamed).mergeSort fun a b => a.id.val ≤ b.id.val

/-- The answers to questions that need no search by name. -/
def lookups (c : Capture) : HostView where
  method id := c.methods[id]?
  body id := c.bodies[id]?
  type id := c.types[id]?
  module id := c.modules[id]?
  modules := c.modulesInOrder
  findType _ := none
  patches := some fun target => c.patches[target]?

/-- The view that answers from the collected descriptors.  Of several types with one
name the one with the smallest number is found. -/
def view (c : Capture) : HostView :=
  { c.lookups with
    findType := fun name => c.namedTypes.find? fun t =>
      match c.lookups.typeReference t.id with
      | .ok r => r.fullName == name
      | .error _ => false }

end Capture
end HookImage
