/-
# Reconstructed methods

A target whose body is transformed is *cloned*: its body is taken and every
recorded transformation is run on it in order.  A run that fails is noted and leaves the
body as it was.  A method that is called in place of a target is *copied*, the last
one to be installed first, and a stub stands in where there is nothing to copy.

Reconstructed methods are static; a receiver becomes the first parameter.
-/

import HookImage.Cil.StackDepth
import HookImage.Diagnostics
import HookImage.Rebuild.Bucket
import HookImage.Rebuild.Provenance

namespace HookImage
namespace Synthesis

/-- What reconstruction works with. -/
structure Context where
  view : HostView
  /-- The simple name of the patch engine, if there is one. -/
  engine : Option String

/-- The signature of a method as a static one, and the names of its parameters.  The
receiver of a value type is passed by reference. -/
def staticSignature (view : HostView) (m : MethodInfo) :
    Except Error (MethodSig × List String) := do
  let names := (List.range m.signature.params.length).map m.paramName
  if m.signature.hasThis then
    match m.declaringType with
    | none => throw (.malformed (.receiverWithoutType m.id))
    | some id =>
      match view.type id with
      | none => throw (.typeNotFound id)
      | some declaring =>
        let type ← view.typeSignature id
        let receiver := if declaring.isValueType then .byRef type else type
        let signature := { m.signature with
          hasThis := false
          explicitThis := false
          params := receiver :: m.signature.params }
        return (signature, "this" :: names)
  else return (m.signature, names)

/-- A method that only returns, in place of one that cannot be copied. -/
def stub (name : String) : SyntheticMethod :=
  { SyntheticMethod.ofBody name {} (MethodBody.ofCode [(.ret, .none)]) with
    attributes := stubAttributes }

/-- A note about a transformation of a target. -/
def note (severity : Severity) (target : MethodId) (r : Interception) (message : String) :
    Diagnostic :=
  { severity, topic := .transform, message, method := some target, handle := some r.handle }

/-- Runs the transformation of an interception on a copy of a body.  The copy takes the place
of the body if the run succeeds; a run that does not gives a note. -/
def apply (m : MethodInfo) (b : MethodBody) (r : Interception) : MethodBody × List Diagnostic :=
  match r.kind with
  | .transform manipulator _ _ =>
    let describe := manipulator.describe
    let outcome := manipulator.run m b
    match outcome.ending with
    | .succeeded => (outcome.body, [])
    | .failed e => (b, [note .error m.id r s!"manipulator {describe} failed: {e.message}"])
    | .panicked words =>
      let words := words.getD "unknown panic"
      (b, [note .error m.id r s!"manipulator {describe} panicked: {words}"])
  | _ => (b, [])

/-- Runs transformations one after the other. -/
def applyAll (m : MethodInfo) : MethodBody → List Interception → MethodBody × List Diagnostic
  | b, [] => (b, [])
  | b, r :: rs =>
    let (b, notes) := apply m b r
    let (b, more) := applyAll m b rs
    (b, notes ++ more)

/-- The clone of a target with its transformations, if it has any. -/
def clone (ctx : Context) (bucket : Bucket) :
    Except Error (Option SyntheticMethod × List Diagnostic) := do
  if bucket.transforms.isEmpty then return (none, [])
  let target := bucket.target
  match ctx.view.method target with
  | none => throw (.methodNotFound target)
  | some m =>
    match ctx.view.body target with
    | none => throw (.noMethodBody target)
    | some body =>
      let (signature, paramNames) ← staticSignature ctx.view m
      let (edited, notes) := applyAll m body bucket.transforms
      let method : SyntheticMethod := {
        name := m.name
        signature
        paramNames
        body := { edited with maxStack := edited.estimateMaxStack }
        tags := bucket.transforms.flatMap fun r => Provenance.tags ctx.view r target ctx.engine
        origin := some target }
      return (some method, notes)

/-- The method that replaces a target, and its body. -/
def replacement? (view : HostView) (r : Interception) : Option (MethodInfo × MethodBody) := do
  let id ← r.resolvedReplacement
  let m ← view.method id
  let body ← view.body id
  return (m, body)

/-- A copy of the method that replaces a target, or a stub. -/
def copy (ctx : Context) (target : MethodInfo) (index : Nat) (r : Interception) :
    SyntheticMethod × List Diagnostic :=
  let name := s!"{target.name}_{index}"
  let tags := Provenance.tags ctx.view r target.id ctx.engine
  let missing := { stub (name ++ "_STUB_NULLTARGET") with tags }
  match replacement? ctx.view r with
  | none => (missing, [])
  | some (m, body) =>
    match staticSignature ctx.view m with
    | .ok (signature, paramNames) =>
      ({ name, signature, paramNames, body, tags, origin := some m.id }, [])
    | .error e =>
      (missing, [note .warning target.id r s!"cannot mirror {m.name}: {e.message}"])

/-- The copies for interceptions, the last one first, numbered from zero. -/
def copyAll (ctx : Context) (target : MethodInfo) (records : List Interception) :
    List (SyntheticMethod × List Diagnostic) :=
  records.reverse.zipIdx.map fun (r, index) => copy ctx target index r

/-- The copies for the redirects of a target, followed by those for its native jumps. -/
def copies (ctx : Context) (bucket : Bucket) :
    Except Error (List SyntheticMethod × List Diagnostic) :=
  if bucket.redirects.isEmpty && bucket.native.isEmpty then .ok ([], [])
  else
    match ctx.view.method bucket.target with
    | none => .error (.methodNotFound bucket.target)
    | some target =>
      let all := copyAll ctx target bucket.redirects ++ copyAll ctx target bucket.native
      .ok (all.map (·.1), all.flatMap (·.2))

end Synthesis
end HookImage
