/-
# Interceptions

An interception replaces a method, transforms its body, or patches native code.  Native
code is known by its address, and the methods that were pinned at the time tell which
method starts there.
-/

import HookImage.Cil.Manipulator
import HookImage.Signature.Inspect

namespace HookImage

/-- A method whose native code does not move, and where that code starts. -/
structure PinnedMethod where
  method : MethodId
  nativeStart : UInt64
deriving DecidableEq

/-- A jump written over native code. -/
structure NativeJump where
  source : UInt64
  destination : UInt64
  pinned : List PinnedMethod
deriving DecidableEq

namespace NativeJump

/-- The first pinned method whose code starts at an address. -/
def methodAt (j : NativeJump) (address : UInt64) : Option MethodId :=
  (j.pinned.find? (·.nativeStart == address)).map (·.method)

/-- The method that is jumped away from. -/
def target? (j : NativeJump) : Option MethodId := j.methodAt j.source

/-- The method that is jumped to. -/
def replacement? (j : NativeJump) : Option MethodId := j.methodAt j.destination

end NativeJump

/-- The mechanisms of interception. -/
inductive KindTag where
  | redirect | transform | native | raw
deriving DecidableEq

/-- The label of a mechanism. -/
def KindTag.label : KindTag → String
  | redirect => "Hook"
  | transform => "ILHook"
  | native => "NativeDetour"
  | raw => "Detour"

/-- A mechanism with what it needs. -/
inductive InterceptionKind where
  /-- Calls go to another method, by way of a raw redirect underneath. -/
  | redirect (underlying : Option HandleId) (priority : Option Int32)
  /-- The body is transformed, by way of a raw redirect underneath. -/
  | transform (manipulator : Manipulator) (underlying : Option HandleId)
      (priority : Option Int32)
  /-- Native code jumps to other native code. -/
  | native (jump : NativeJump)
  /-- Calls go to another method. -/
  | raw (priority : Option Int32)

namespace InterceptionKind

/-- The mechanism. -/
def tag : InterceptionKind → KindTag
  | redirect .. => .redirect
  | transform .. => .transform
  | native _ => .native
  | raw _ => .raw

/-- The priority that was asked for. -/
def priority : InterceptionKind → Option Int32
  | redirect _ p | transform _ _ p | raw p => p
  | native _ => none

/-- The raw redirect underneath. -/
def underlying : InterceptionKind → Option HandleId
  | redirect u _ | transform _ u _ => u
  | native _ | raw _ => none

/-- Whether two mechanisms are the same.  Manipulators are the same if they are one
object. -/
def same : InterceptionKind → InterceptionKind → Bool
  | redirect u p, redirect v q => u == v && p == q
  | transform m u p, transform n v q => m.identity == n.identity && u == v && p == q
  | native j, native k => j == k
  | raw p, raw q => p == q
  | _, _ => false

open Inspect in
/-- A mechanism with all its parts. -/
def inspect (k : InterceptionKind) : String :=
  let underlyingField (u : Option HandleId) := ("underlying", option (u.map (·.inspect)))
  let priorityField (p : Option Int32) :=
    ("priority", option (p.map fun n => toString n.toInt))
  let pinnedMethod (m : PinnedMethod) := record "PinnedMethod" [
    ("method", m.method.inspect),
    ("native_start", toString m.nativeStart.toNat)]
  match k with
  | redirect u p => record "Redirect" [underlyingField u, priorityField p]
  | transform m u p => record "BytecodeTransform" [
      ("manipulator", Text.quote m.describe), underlyingField u, priorityField p]
  | native j => wrapped "LowLevelRedirect" (record "LowLevelRedirect" [
      ("from", toString j.source.toNat),
      ("to", toString j.destination.toNat),
      ("pinned", list (j.pinned.map pinnedMethod))])
  | raw p => record "RawRedirect" [priorityField p]

end InterceptionKind

/-- The installation of an interception, as it is reported. -/
structure InstallEvent where
  handle : HandleId
  /-- The intercepted method. -/
  target : Option MethodId
  /-- The method that is called instead. -/
  replacement : Option MethodId
  kind : InterceptionKind

/-- An interception with its owner. -/
structure Interception extends InstallEvent where
  owner : Option ModuleId

namespace Interception

/-- The intercepted method, which for native code may follow from the address. -/
def resolvedTarget (r : Interception) : Option MethodId :=
  match r.target, r.kind with
  | some m, _ => some m
  | none, .native j => j.target?
  | none, _ => none

/-- The method that is called instead, which for native code may follow from the
address. -/
def resolvedReplacement (r : Interception) : Option MethodId :=
  match r.replacement, r.kind with
  | some m, _ => some m
  | none, .native j => j.replacement?
  | none, _ => none

/-- Whether two interceptions are the same. -/
def same (r s : Interception) : Bool :=
  r.handle == s.handle && r.target == s.target && r.replacement == s.replacement &&
    r.owner == s.owner && r.kind.same s.kind

end Interception
end HookImage
