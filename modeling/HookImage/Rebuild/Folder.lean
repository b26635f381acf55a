/-
# Written reconstructions

A reconstruction is written to a folder in two steps: the file is first written under a
temporary name beside its final one, and then takes the final name.  If it cannot take
it, the temporary file is removed again, so that a folder never holds half a file.
-/

import HookImage.Image.File
import HookImage.Rebuild.FilePath
import HookImage.Rebuild.Report
import HookImage.Registry.Basic

namespace HookImage

/-- What lies at a place. -/
inductive Entry where
  | folder
  | file (bytes : Bytes)

/-- A place as a folder sees it: the steps up, then the names on the way down. -/
abbrev Place := List String

/-- A folder with everything around it that is known, by place. -/
structure Folder where
  /-- Whether the folder itself is there. -/
  present : Bool := true
  entries : List (Place × Entry) := []

namespace Folder

/-- The place that a step leads to. -/
def move (place : Place) (step : String) : Place :=
  if step == FilePath.up && place.getLast?.any (· != FilePath.up) then place.dropLast
  else place ++ [step]

/-- What lies at a place.  Above a folder there are always folders. -/
def find? (f : Folder) (place : Place) : Option Entry :=
  if place.isEmpty && !f.present then none
  else if place.all (· == FilePath.up) then some .folder
  else f.entries.lookup place

/-- Whether a folder lies at a place. -/
def isFolder (f : Folder) (place : Place) : Bool :=
  match f.find? place with
  | some .folder => true
  | _ => false

/-- The place that steps lead to, if there are folders all the way. -/
def walk? (f : Folder) (place : Place) : List String → Option Place
  | [] => if f.isFolder place then some place else none
  | step :: steps => if f.isFolder place then f.walk? (move place step) steps else none

/-- The folder with a folder at a place, if nothing is there. -/
def addFolder (f : Folder) (place : Place) : Folder :=
  if (f.find? place).isSome then f else { f with entries := f.entries ++ [(place, .folder)] }

/-- The folder with folders at every place that steps lead to. -/
def addFolders (f : Folder) (place : Place) : List String → Folder
  | [] => f
  | step :: steps => (f.addFolder (move place step)).addFolders (move place step) steps

/-- The folder without what lies at a place. -/
def erase (f : Folder) (place : Place) : Folder :=
  { f with entries := f.entries.filter (·.1 != place) }

/-- Writes a file to the folder at a place.  A file that is there is replaced, a folder is
not. -/
def write (f : Folder) (place : Place) (name : String) (bytes : Bytes) : Except Error Folder :=
  let target := place ++ [name]
  if FilePath.isName name && !f.isFolder target then
    let rest := f.erase target
    .ok { rest with entries := rest.entries ++ [(target, .file bytes)] }
  else .error .file

/-- Gives a file of the folder at a place another name.  A file that has the name is
replaced, a folder is not. -/
def rename (f : Folder) (place : Place) (old new : String) : Except Error Folder :=
  match f.find? (place ++ [old]) with
  | some (.file bytes) =>
    (f.write place new bytes).map fun g => if old = new then g else g.erase (place ++ [old])
  | _ => .error .file

/-- The names of what lies directly in the folder, in order. -/
def names (f : Folder) : List String :=
  let top := f.entries.filterMap fun (place, _) =>
    match place with
    | [name] => some name
    | _ => none
  top.mergeSort fun a b => a ≤ b

/-- Writes a file by way of a temporary one. -/
def replace (f : Folder) (path : FilePath) (bytes : Bytes) : Except Error Unit × Folder :=
  match f.walk? [] path.steps, FilePath.temporaryName? path.name with
  | some place, some temporary =>
    match f.write place temporary bytes with
    | .error e => (.error e, f)
    | .ok g =>
      match g.rename place temporary path.name with
      | .ok h => (.ok (), h)
      | .error e => (.error e, g.erase (place ++ [temporary]))
  | _, _ => (.error .file, f)

end Folder

/-- A reconstruction and the file that it was written to. -/
structure WrittenReport where
  report : Report
  /-- The path to the file, as it is shown. -/
  path : String
  bytes : Bytes

/-- The reconstruction of the interceptions of a moment, written to a folder.  The folder
changes only if the reconstruction succeeds. -/
def Registry.dump (reg : Registry) (view : HostView) (options : Options) (folder : Folder) :
    Except Error WrittenReport × Registry × Folder :=
  match reg.snapshot with
  | .error e => (.error e, reg, folder)
  | .ok (s, reg) =>
    let written : Except Error (WrittenReport × FilePath) := do
      let report ← s.snapshot.reconstruct view options
      let bytes ← report.image.write
      match FilePath.ofText? options.fileName with
      | some path => return (⟨report, FilePath.shown options.fileName, bytes⟩, path)
      | none => throw .file
    match written with
    | .error e => (.error e, reg, folder)
    | .ok (w, path) =>
      let (result, folder) := folder.replace path w.bytes
      (result.map fun _ => w, reg, folder)

/-- The reconstruction of the interceptions of the whole process, if they are kept at
all. -/
def dumpProcess (reg : Option Registry) (view : HostView) (folder : Folder) :
    Except Error WrittenReport × Option Registry × Folder :=
  match reg with
  | none => (.error (.failure .noRegistry), none, folder)
  | some reg =>
    let (result, reg, folder) := reg.dump view {} folder
    (result, some reg, folder)

end HookImage
