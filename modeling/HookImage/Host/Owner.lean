/-
# Owners

Whoever installs an interception is found from the call stack of the installing thread.
The frames run from the innermost outwards.  The outermost frame of the interception
framework is where it was entered, and the first module behind it that is neither a
helper of the framework nor a generated proxy is the owner.
-/

import HookImage.Identity
import HookImage.Text.AsciiCase

namespace HookImage

/-- A frame of a call stack. -/
structure CallFrame where
  /-- The full name of the type that declares the running method. -/
  declaringType : Option String := none
  module : Option ModuleInfo := none

/-- What counts as part of the interception framework. -/
structure OwnerPolicy where
  /-- The types through which the framework is entered. -/
  entryTypes : List String :=
    ["MonoMod.RuntimeDetour.Hook", "MonoMod.RuntimeDetour.ILHook",
      "MonoMod.RuntimeDetour.Detour", "MonoMod.RuntimeDetour.NativeDetour"]
  /-- The helper modules of the framework. -/
  reservedModules : List String := ["MonoMod.RuntimeDetour.HookGen"]
  /-- How the names of generated proxies begin; empty if there are none. -/
  proxyHead : String := "MMHOOK_"

namespace OwnerPolicy

/-- Whether a type is one through which the framework is entered. -/
def isEntryType (policy : OwnerPolicy) (fullName : String) : Bool :=
  policy.entryTypes.any (Text.sameName · fullName)

/-- Whether a module is a helper or a generated proxy. -/
def isReservedModule (policy : OwnerPolicy) (name : String) : Bool :=
  policy.reservedModules.any (Text.sameName · name) ||
    (!policy.proxyHead.isEmpty && Text.beginsWith name policy.proxyHead)

/-- Whether a frame belongs to a type through which the framework is entered. -/
def isEntryFrame (policy : OwnerPolicy) (frame : CallFrame) : Bool :=
  frame.declaringType.any policy.isEntryType

/-- The frames outside the outermost entry frame, if there is an entry frame. -/
def outside? (policy : OwnerPolicy) : List CallFrame → Option (List CallFrame)
  | [] => none
  | f :: fs => (policy.outside? fs).or (if policy.isEntryFrame f then some fs else none)

/-- The module that a call stack makes the owner. -/
def owner? (policy : OwnerPolicy) (frames : List CallFrame) : Option ModuleInfo := do
  let outer ← policy.outside? frames
  (outer.filterMap (·.module)).find? fun a => !policy.isReservedModule a.name

end OwnerPolicy
end HookImage
