/-
# Paths of files

A path leads from a folder to a file.  Between its slashes stand names that lead down
and pairs of points that lead up; an empty name and a single point lead nowhere and
count for nothing.  What stands behind the last slash is the name of the file.
-/

namespace HookImage

/-- The way from a folder to a file. -/
structure FilePath where
  /-- The steps to the folder of the file. -/
  steps : List String
  name : String
deriving DecidableEq

namespace FilePath

/-- Whether a part of a path leads anywhere. -/
def isStep (part : String) : Bool := !part.isEmpty && part != "."

/-- The step that leads up. -/
def up : String := ".."

/-- The steps of a path to a folder. -/
def stepsOf (text : String) : List String := (text.splitOn "/").filter isStep

/-- How many bytes a path can have. -/
def limit : Nat := 4095

/-- The path that a text writes.  A text whose last part leads up or nowhere names no file,
and one that begins with a slash does not begin at a folder. -/
def ofText? (text : String) : Option FilePath :=
  let parts := text.splitOn "/"
  match parts.getLast? with
  | some name =>
    if isStep name && name != up && parts.head? != some "" && text.utf8ByteSize ≤ limit then
      some ⟨parts.dropLast.filter isStep, name⟩
    else none
  | none => none

/-- A path as it is shown: as it was written, without the parts at its beginning that
lead nowhere. -/
def shown (text : String) : String :=
  "/".intercalate ((text.splitOn "/").dropWhile fun part => !isStep part)

/-- Whether a file can have a name: it has at most 255 bytes and no NUL. -/
def isName (name : String) : Bool :=
  !name.isEmpty && name.utf8ByteSize ≤ 255 && !name.toList.contains '\x00'

/-- The name of the temporary file beside a file: the extension is cut off behind its
point and replaced.  A name without a point, or with one at its beginning only, gets an
extension.  Where the cut leaves two points, they lead up and no file has that name. -/
def temporaryName? (name : String) : Option String :=
  match (name.toList.reverse.dropWhile (· != '.')).drop 1 with
  | [] => some (name ++ ".tmp")
  | ['.'] => none
  | stem => some (String.ofList stem.reverse ++ ".tmp")

end FilePath
end HookImage
