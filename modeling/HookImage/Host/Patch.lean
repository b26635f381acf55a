/-
# Sub-patches

A patch engine hides several patches of a method behind one interception.  A breakdown
lists them by category, and within a category in the order in which they were added.
-/

import HookImage.Identity

namespace HookImage

/-- What a sub-patch does to its target, in the order in which they are listed. -/
inductive PatchCategory where
  | before | after | transpiler | finalizer | manipulator
deriving DecidableEq

namespace PatchCategory

/-- The place of a category in a breakdown. -/
def rank : PatchCategory → Nat
  | before => 0
  | after => 1
  | transpiler => 2
  | finalizer => 3
  | manipulator => 4

/-- The label of a category. -/
def label : PatchCategory → String
  | before => "HarmonyPrefix"
  | after => "HarmonyPostfix"
  | transpiler => "HarmonyTranspiler"
  | finalizer => "HarmonyFinalizer"
  | manipulator => "HarmonyManipulator"

end PatchCategory

/-- A sub-patch. -/
structure Patch where
  category : PatchCategory
  /-- The method that carries it out. -/
  method : Option MethodId
  /-- The module that asked for it. -/
  owner : Option ModuleId
deriving DecidableEq

/-- The breakdown of a patched method. -/
structure PatchInfo where
  patches : List Patch := []

namespace PatchInfo

/-- Adds a patch behind those of its category and of the categories before it. -/
def add (info : PatchInfo) (p : Patch) : PatchInfo :=
  let isEarlier (q : Patch) : Bool := q.category.rank ≤ p.category.rank
  ⟨info.patches.takeWhile isEarlier ++ p :: info.patches.dropWhile isEarlier⟩

/-- The breakdown of the given patches. -/
def ofList (patches : List Patch) : PatchInfo := patches.foldl add {}

/-- Whether there is no patch. -/
def isEmpty (info : PatchInfo) : Bool := info.patches.isEmpty

end PatchInfo
end HookImage
