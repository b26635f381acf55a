/-
# Provenance

The tags of a reconstructed method say which mechanism put it there and who asked for it.
An interception of the patch engine is broken down into its sub-patches, if the engine
knows any for the target.
-/

import HookImage.Host.View
import HookImage.Image.Basic
import HookImage.Registry.Record

namespace HookImage
namespace Provenance

/-- The display name of a loaded module; a module that is not known has no name. -/
def ownerLabel (view : HostView) (owner : Option ModuleId) : String :=
  ((owner.bind view.module).map (·.fullName)).getD ""

/-- Whether an owner is the patch engine. -/
def isEngine (view : HostView) (owner : Option ModuleId) (engine : Option String) : Bool :=
  match owner.bind view.module, engine with
  | some a, some name => Text.sameName a.name name
  | _, _ => false

/-- The sub-patches of a target that an interception stands for. -/
def breakdown (view : HostView) (r : Interception) (target : MethodId)
    (engine : Option String) : List Patch :=
  if isEngine view r.owner engine then
    match view.patches.bind (· target) with
    | some info => info.patches
    | none => []
  else []

/-- The tag of a sub-patch. -/
def patchTag (view : HostView) (p : Patch) : ProvenanceTag :=
  ⟨p.category.label, ownerLabel view p.owner⟩

/-- The tag of an interception as a whole. -/
def recordTag (view : HostView) (r : Interception) : ProvenanceTag :=
  ⟨r.kind.tag.label, ownerLabel view r.owner⟩

/-- The tags of an interception: one for each sub-patch, or one for the whole. -/
def tags (view : HostView) (r : Interception) (target : MethodId) (engine : Option String) :
    List ProvenanceTag :=
  match breakdown view r target engine with
  | [] => [recordTag view r]
  | patches => patches.map (patchTag view)

end Provenance
end HookImage
