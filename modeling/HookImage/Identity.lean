/-
# Identities of the audited process

Nothing of the running process is held by reference.  Methods, types, modules and
interception mechanisms are named by numbers which the process assigns and keeps
for its lifetime; what is known about them is asked for by number.  A module is
also known by what an assembly reference records about it.
-/

import HookImage.Text.Hex

namespace HookImage

/-- An installed interception mechanism.  Its removal is reported under the same
number. -/
structure HandleId where
  val : UInt64
deriving DecidableEq, Hashable, Inhabited

/-- A method of the audited process. -/
structure MethodId where
  val : UInt64
deriving DecidableEq, Hashable, Inhabited

/-- A type of the audited process.  A generic instantiation and its definition are
two types. -/
structure TypeId where
  val : UInt64
deriving DecidableEq, Hashable, Inhabited

/-- A loaded module of the audited process. -/
structure ModuleId where
  val : UInt64
deriving DecidableEq, Hashable, Inhabited

/-- A handle is shown as `H#` and its number. -/
def HandleId.text (h : HandleId) : String := s!"H#{h.val.toNat}"

/-- A method is shown as `M#` and its number. -/
def MethodId.text (m : MethodId) : String := s!"M#{m.val.toNat}"

/-- A type is shown as `T#` and its number. -/
def TypeId.text (t : TypeId) : String := s!"T#{t.val.toNat}"

/-- A module is shown as `A#` and its number. -/
def ModuleId.text (a : ModuleId) : String := s!"A#{a.val.toNat}"

/-- A four-part assembly version. -/
structure Version where
  major : UInt16 := 0
  minor : UInt16 := 0
  build : UInt16 := 0
  revision : UInt16 := 0
deriving DecidableEq, Inhabited

/-- The four parts with points between them. -/
def Version.text (v : Version) : String :=
  s!"{v.major.toNat}.{v.minor.toNat}.{v.build.toNat}.{v.revision.toNat}"

/-- What an assembly reference records about a loaded module. -/
structure ModuleInfo where
  /-- The number under which the process knows it. -/
  id : ModuleId
  /-- The simple name of the assembly. -/
  name : String
  version : Version := {}
  /-- The culture; absent for the neutral one. -/
  culture : Option String := none
  /-- The public key token; absent for an unsigned assembly. -/
  publicKeyToken : Option (Vector UInt8 8) := none
deriving DecidableEq

/-- The display name of an assembly, as owners are labelled. -/
def ModuleInfo.fullName (a : ModuleInfo) : String :=
  let culture := a.culture.getD "neutral"
  let token := match a.publicKeyToken with
    | some bytes => Text.hexBytes bytes.toList
    | none => "null"
  s!"{a.name}, Version={a.version.text}, Culture={culture}, PublicKeyToken={token}"

end HookImage
