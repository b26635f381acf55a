/-
# Reconstruction

The targets of a snapshot are taken one after the other.  Each one is classified, its
replacements are copied and its transformations replayed, and the resulting methods are
put into the container of the target and imported.  At the end the invalid methods are
taken out.  A problem with one target is noted and costs what depends on it, never
another target.
-/

import HookImage.Rebuild.Import
import HookImage.Rebuild.Placement
import HookImage.Rebuild.Synthesis
import HookImage.Rebuild.Validity

namespace HookImage

/-- The core library of a process that does not tell its own. -/
def defaultCoreLibrary : ModuleInfo where
  id := ⟨0xFFFFFFFFFFFFFFFF⟩
  name := "mscorlib"
  version := { major := 4 }
  publicKeyToken := some #v[0xB7, 0x7A, 0x5C, 0x56, 0x19, 0x34, 0xE0, 0x89]

/-- The names and choices of a reconstruction. -/
structure Options where
  rootNamespace : String := "Hook"
  attributeName : String := "PatchInfoAttribute"
  moduleName : String := "Hooks"
  fileName : String := "Hooks.dll"
  /-- The assembly of the base of the attribute type. -/
  coreLibrary : ModuleInfo := defaultCoreLibrary
  /-- The simple name of the patch engine, if there is one. -/
  patchEngine : Option String := some "0Harmony"
  /-- Whether the methods that replace a target are copied. -/
  copyReplacements : Bool := true

/-- A finished reconstruction. -/
structure Report where
  image : Image
  diagnostics : Diagnostics
  /-- How many targets there were. -/
  targets : Nat
  /-- How many methods were taken out as invalid. -/
  pruned : Nat

/-- A reconstruction under way. -/
structure Reconstruction where
  image : Image
  placement : Placement
  diagnostics : Diagnostics := #[]
  targets : Nat := 0

namespace Reconstruction

/-- A reconstruction of which nothing is done. -/
def start (view : HostView) (options : Options) : Except Error Reconstruction := do
  let image ← Image.create options.moduleName options.coreLibrary options.attributeName
    view.modules
  return { image, placement := { rootNamespace := options.rootNamespace } }

/-- A note about a target. -/
def note (severity : Severity) (topic : Topic) (target : MethodId) (message : String) :
    Diagnostic :=
  { severity, topic, message, method := some target }

/-- The copies for a target, as far as they are wanted, with what is noted. -/
def copies (view : HostView) (options : Options) (target : MethodInfo) (bucket : Bucket) :
    List SyntheticMethod × List Diagnostic :=
  if options.copyReplacements then
    match Synthesis.copies ⟨view, options.patchEngine⟩ bucket with
    | .ok result => result
    | .error e =>
      ([], [note .error .body bucket.target
        s!"cannot mirror replacements of {target.name}: {e.message}"])
  else ([], [])

/-- The clone of a target, if it is transformed, with what is noted. -/
def clones (view : HostView) (options : Options) (target : MethodInfo) (bucket : Bucket) :
    List SyntheticMethod × List Diagnostic :=
  match Synthesis.clone ⟨view, options.patchEngine⟩ bucket with
  | .ok (method, notes) => (method.toList, notes)
  | .error (.noMethodBody _) =>
    ([], [note .error .body bucket.target
      s!"{target.name} has no body, cannot dump its transforms"])
  | .error e =>
    ([], [note .error .body bucket.target s!"cannot clone {target.name}: {e.message}"])

/-- Imports a method and adds it to a container. -/
def addMethod (view : HostView) (id : ContainerId) (r : Reconstruction) (m : SyntheticMethod) :
    Reconstruction :=
  match r with
  | ⟨image, placement, notes, targets⟩ =>
    let ((m, _), st) := (Importer.synthetic view m).run ⟨image.symbols, notes⟩
    let image := { image with symbols := st.symbols }
    let image := match image.addMethod id m with
      | some (_, image) => image
      | none => image
    ⟨image, placement, st.notes, targets⟩

/-- Adds notes. -/
def noteAll (r : Reconstruction) (notes : List Diagnostic) : Reconstruction :=
  { r with diagnostics := r.diagnostics ++ notes }

/-- Puts the methods of a target into its container. -/
def place (view : HostView) (r : Reconstruction) (target : MethodInfo) (id : MethodId)
    (methods : List SyntheticMethod) : Reconstruction :=
  match target.declaringType with
  | none => r.noteAll [note .error .container id s!"{target.name} has no declaring type"]
  | some type =>
    match r.placement.container view r.image type with
    | (.error e, placement, image) =>
      { r with placement, image }.noteAll [note .error .container id
        s!"cannot create container for {target.name}: {e.message}"]
    | (.ok container, placement, image) =>
      methods.foldl (addMethod view container) { r with placement, image }

/-- Works on a target that is not counted yet. -/
def processBucket (view : HostView) (options : Options) (r : Reconstruction) (bucket : Bucket) :
    Reconstruction :=
  let id := bucket.target
  let r := if bucket.raw.isEmpty then r else
    r.noteAll [note .info .classify id s!"{bucket.raw.length} raw detours are not reconstructed"]
  match view.method id with
  | none =>
    r.noteAll [note .error .body id "intercepted method is unknown to the runtime view"]
  | some target =>
    let (copies, copyNotes) := copies view options target bucket
    let (clones, cloneNotes) := clones view options target bucket
    let r := r.noteAll (copyNotes ++ cloneNotes)
    let methods := copies ++ clones
    if methods.isEmpty then r else r.place view target id methods

/-- Works on a target and its interceptions. -/
def processTarget (view : HostView) (options : Options) (r : Reconstruction)
    (group : MethodId × List Interception) : Reconstruction :=
  processBucket view options { r with targets := r.targets + 1 }
    (Bucket.classify group.1 group.2)

/-- Works on the targets of a snapshot. -/
def process (view : HostView) (options : Options) (r : Reconstruction) (s : Snapshot) :
    Reconstruction :=
  s.groups.foldl (processTarget view options) r

/-- Takes out the invalid methods. -/
def finish (r : Reconstruction) : Report :=
  let (image, notes) := Validity.sweep r.image
  { image
    diagnostics := r.diagnostics ++ notes
    targets := r.targets
    pruned := notes.length }

end Reconstruction

/-- The reconstruction of a snapshot. -/
def Snapshot.reconstruct (s : Snapshot) (view : HostView) (options : Options) :
    Except Error Report := do
  return ((← Reconstruction.start view options).process view options s).finish

end HookImage
