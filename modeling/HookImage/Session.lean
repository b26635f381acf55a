/-
# Sessions

A session works on one captured process.  It keeps the registry with everything that was
noted on the way, the snapshots that were taken, and an image under construction with the
containers that were placed in it.  An operation of a session may fail; what it noted and
changed before that stays.
-/

import HookImage.Host.Capture
import HookImage.Rebuild.Folder

namespace HookImage

/-- What a session keeps from one operation to the next. -/
structure Session where
  capture : Capture
  /-- Whether no patch engine is there to tell about sub-patches. -/
  hidesPatches : Bool
  registry : Registry
  /-- What the registry and the operations noted. -/
  notes : Diagnostics := #[]
  /-- The snapshots in the order in which they were taken. -/
  snapshots : Array StampedSnapshot := #[]
  image : Image
  placement : Placement
  /-- The manipulators that have a name. -/
  manipulators : List (String × Manipulator)
  /-- How many manipulators were recorded so far. -/
  recorded : Nat

namespace Session

/-- An operation that may fail, and keeps its changes in any case. -/
abbrev Run := ExceptT Error (StateM Session)

/-- A session at its beginning, with an image that refers to the loaded modules. -/
def start (capture : Capture) (hidesPatches : Bool) (policy : OwnerPolicy)
    (manipulators : List (String × Manipulator)) : Except Error Session := do
  let options : Options := {}
  return {
    capture, hidesPatches, manipulators
    registry := { policy }
    image := ← Image.create options.moduleName options.coreLibrary options.attributeName
      capture.modulesInOrder
    placement := { rootNamespace := options.rootNamespace }
    recorded := manipulators.length }

/-- The view of the captured process. -/
def view (s : Session) : HostView :=
  if s.hidesPatches then { s.capture.view with patches := none } else s.capture.view

/-- Adds to the captured process. -/
def extend (add : Capture → Capture) : Run Unit :=
  modify fun s => { s with capture := add s.capture }

/-- Adds notes. -/
def note (notes : List Diagnostic) : Run Unit :=
  modify fun s => { s with notes := s.notes ++ notes }

/-- Gives a number to a manipulator that is recorded anew. -/
def record : Run Nat :=
  modifyGet fun s => (s.recorded, { s with recorded := s.recorded + 1 })

/-- Keeps the registry that a request leaves behind. -/
def keep {α : Type} (x : Except Error (α × Registry)) : Run α := do
  let (a, registry) ← x
  modify fun s => { s with registry }
  return a

/-- Keeps an image. -/
def setImage (image : Image) : Run Unit := modify fun s => { s with image }

/-- Records an installation. -/
def install (event : InstallEvent) (frames : List CallFrame) : Run Unit := do
  let (result, notes) := (← get).registry.install event frames
  note notes
  keep (result.map (((), ·)))

/-- Records a removal. -/
def uninstall (handle : HandleId) : Run Unit := do
  keep (((← get).registry.uninstall handle).map (((), ·)))

/-- Adds an interception to the registry. -/
def register (r : Interception) : Run Unit := do
  let (registry, notes) ← (← get).registry.register r
  note notes
  keep (.ok ((), registry))

/-- Removes every interception with a handle. -/
def unregister (handle : HandleId) : Run Nat := do keep ((← get).registry.unregister handle)

/-- Loses the lock of the registry. -/
def poison : Run Unit :=
  modify fun s => { s with registry := { s.registry with poisoned := true } }

/-- The present interceptions. -/
def records : Run (List Interception) := do (← get).registry.list

/-- Takes a snapshot. -/
def takeSnapshot : Run Snapshot := do
  let taken ← keep (← get).registry.snapshot
  modify fun s => { s with snapshots := s.snapshots.push taken }
  return taken.snapshot

/-- The clone and the copies for the target of a bucket.  Either may fail on its own. -/
def synthesize (bucket : Bucket) (engine : Option String) :
    Run (Except Error (Option SyntheticMethod) × Except Error (List SyntheticMethod)) := do
  let ctx : Synthesis.Context := ⟨(← get).view, engine⟩
  let clone := Synthesis.clone ctx bucket
  let copies := Synthesis.copies ctx bucket
  note ((clone.toOption.map (·.2)).getD [] ++ (copies.toOption.map (·.2)).getD [])
  return (clone.map (·.1), copies.map (·.1))

/-- The reconstruction of the present interceptions. -/
def reconstruct (options : Options) : Run Report := do
  let view := (← get).view
  let taken ← keep (← get).registry.snapshot
  taken.snapshot.reconstruct view options

/-- One reconstruction of several snapshots, with the numbers of notes after each. -/
def reconstructAll (options : Options) (places : List Nat) : Run (List Nat × Report) := do
  let s ← get
  let step (acc : Array Nat × Reconstruction) (taken : StampedSnapshot) :=
    let r := acc.2.process s.view options taken.snapshot
    (acc.1.push r.diagnostics.size, r)
  let start ← Reconstruction.start s.view options
  let (counts, r) := (places.filterMap (s.snapshots[·]?)).foldl step (#[], start)
  return (counts.toList, r.finish)

/-- Writes the reconstruction of the present interceptions to a folder. -/
def dump (options : Options) (folder : Folder) : Run (Except Error WrittenReport × Folder) := do
  let s ← get
  let (result, registry, folder) := s.registry.dump s.view options folder
  set { s with registry }
  return (result, folder)

/-- Writes the reconstruction of the given installations to a folder, as if they were all
that happened in the process. -/
def dumpAlone (events : List (InstallEvent × List CallFrame)) (folder : Folder) :
    Run (Except Error WrittenReport × Folder) := do
  let add (reg : Registry) (e : InstallEvent × List CallFrame) : Registry :=
    (reg.install e.1 e.2).1.toOption.getD reg
  let (result, _, folder) := dumpProcess (some (events.foldl add {})) (← get).view folder
  return (result, folder)

/-- Begins another image, without containers. -/
def renew (options : Options) (loaded : Option (List ModuleInfo)) : Run Unit := do
  let s ← get
  let image ← Image.create options.moduleName options.coreLibrary options.attributeName
    (loaded.getD s.view.modules)
  set { s with image, placement := { rootNamespace := options.rootNamespace } }

/-- Adds a container to the image. -/
def addContainer (c : Container) : Run ContainerId := do
  let (id, image) := (← get).image.addContainer c
  setImage image
  return id

/-- Finds or adds the container of a type, and tells how many types have one. -/
def placeType (type : TypeId) : Run (ContainerId × Nat) := do
  let s ← get
  let (result, placement, image) := s.placement.container s.view s.image type
  set { s with placement, image }
  return (← result, placement.cache.size)

/-- Gives a container another name. -/
def rename (id : ContainerId) (name : String) : Run (Option String) := do
  let image := (← get).image.rename id name
  setImage image
  return image.containers[id]?.map (·.name)

/-- Adds a method to a container and gives its place. -/
def addMethod (id : ContainerId) (m : SyntheticMethod) : Run (Option Nat) := do
  match (← get).image.addMethod id m with
  | some (place, image) =>
    setImage image
    return some place
  | none => return none

/-- Takes a method out of a container. -/
def removeMethod (id : ContainerId) (place : Nat) : Run (Option SyntheticMethod) := do
  match (← get).image.removeMethod id place with
  | some (m, image) =>
    setImage image
    return some m
  | none => return none

/-- Takes the invalid methods out of the image and tells how many there were. -/
def sweep : Run Nat := do
  let (image, notes) := Validity.sweep (← get).image
  setImage image
  note notes
  return notes.length

/-- Works on the symbol table of the image, which stays as it is where that fails. -/
def onSymbols {α : Type} (f : SymbolTable → Except Error (α × SymbolTable)) : Run α := do
  let image := (← get).image
  let (a, symbols) ← f image.symbols
  setImage { image with symbols }
  return a

/-- Imports into the image. -/
def importing {α : Type} (f : StateM ImportState α) : Run α := do
  let s ← get
  let (a, st) := f.run ⟨s.image.symbols, s.notes⟩
  set { s with image := { s.image with symbols := st.symbols }, notes := st.notes }
  return a

end Session
end HookImage
