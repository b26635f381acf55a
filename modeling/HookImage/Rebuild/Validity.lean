/-
# Validity

A method is valid in an image if the image can be written with it: nothing in it is
symbolic any more, every token names a row of a kind that its instruction accepts, every
member has a type as its parent, and branches and exception regions stay within the body.
Validation takes the invalid methods out and leaves everything else as it is.
-/

import HookImage.Diagnostics
import HookImage.Image.Basic

namespace HookImage
namespace Validity

/-- What a signature is, by its first byte: local variables, or an indirect call of a
method that is not generic. -/
def denoteSignature (blob : Bytes) : Denotation :=
  match blob.head? with
  | none => .signature
  | some header =>
    if header == Blob.localsHeader then .locals
    else if header &&& Blob.genericMark == 0 &&
        header &&& 0x0F ≤ Blob.conventionCode .varArg then .callSite
    else .signature

/-- What the row of a token denotes.  Of the methods of the image only the constructor of
the attribute can be named, because the rows of the others shift when methods are taken
out. -/
def denote (image : Image) (t : Token) : Option Denotation :=
  match t.table? with
  | none => none
  | some .typeDef => if image.definesType t then some .type else none
  | some .methodDef => if t == image.provenance.constructor then some .method else none
  | some _ =>
    match image.symbols.resolve t with
    | some .typeRef | some .typeSpec => some .type
    | some .methodRef | some .methodSpec => some .method
    | some .fieldRef => some .field
    | some .standAloneSig => (image.symbols.signature? t).map denoteSignature
    | some .assemblyRef | none => none

/-- Checks that the parent of a method or field token is a type. -/
def checkParent (image : Image) (t : Token) : Except Malformation Unit :=
  match image.symbols.member? t with
  | some row =>
    if denote image row.parent == some .type then .ok ()
    else .error (.orphanMember row.name row.parent)
  | none => .ok ()

/-- Checks what stands behind a member token: its parent, and for an instantiation the
method and its parent. -/
def checkMember (image : Image) (t : Token) : Except Malformation Unit := do
  checkParent image t
  match image.symbols.instantiation? t with
  | some row =>
    if image.symbols.resolve row.method == some .methodRef then checkParent image row.method
    else throw (.orphanInstantiation t)
  | none => return ()

/-- Checks a token of an instruction. -/
def checkToken (image : Image) (i : Instruction) (t : Token) : Except Malformation Unit :=
  match denote image t with
  | none => .error (.danglingTokenAt i t)
  | some d =>
    if i.opcode.operandKind.accepts d then checkMember image t
    else .error (.wrongTokenAt i d t)

/-- Checks that the targets of a branch are in the body. -/
def checkTargets (b : MethodBody) (i : Instruction) : Except Malformation Unit :=
  match i.operand.instrIds.find? fun id => (b.position? id).isNone with
  | some id => .error (.branchToMissingAt i id)
  | none => .ok ()

/-- Checks an instruction. -/
def checkInstruction (image : Image) (b : MethodBody) (i : Instruction) :
    Except Malformation Unit :=
  if !i.operand.fits i.opcode.operandKind then .error (.misfitAt i)
  else if i.operand.isSymbolic then .error (.symbolicOperandAt i)
  else
    match i.operand with
    | .token t => checkToken image i t
    | _ => checkTargets b i

/-- Checks what an exception region catches. -/
def checkCatch (image : Image) (r : Region) : Except Malformation Unit :=
  match r.catchType with
  | none => .error .catchWithoutType
  | some type =>
    match Region.catchToken? type with
    | none => .error (.catchTypeSymbolic type)
    | some t => if denote image t == some .type then .ok () else .error (.catchTypeDangling t)

/-- Checks an exception region. -/
def checkRegion (image : Image) (b : MethodBody) (r : Region) : Except Malformation Unit :=
  match r.anchors.find? fun id => (b.position? id).isNone with
  | some id => .error (.regionAtMissing id)
  | none =>
    if r.isFilter && r.filterStart.isNone then .error .filterMissing
    else if r.isCatch then checkCatch image r
    else .ok ()

/-- Checks the signature of the local variables. -/
def checkLocals (image : Image) (m : SyntheticMethod) : Except Malformation Unit :=
  if m.body.locals.any fun v => !v.type.isResolved then .error .localTypeUnresolved
  else if m.body.locals.isEmpty then .ok ()
  else
    match m.localSignature with
    | none => .error .localsWithoutSignature
    | some t =>
      if denote image t == some .locals then .ok () else .error (.localSignatureDangling t)

/-- Checks a method against an image. -/
def check (image : Image) (m : SyntheticMethod) : Except Malformation Unit := do
  if !m.signature.isResolved then throw .signatureUnresolved
  if m.paramNames.length != m.signature.params.length then
    throw (.paramNameCount m.paramNames.length m.signature.params.length)
  if m.body.isEmpty then throw .emptyBody
  checkLocals image m
  m.body.instructions.forM (checkInstruction image m.body)
  m.body.regions.forM (checkRegion image m.body)

/-- What is noted about a method that is taken out. -/
def removal (container : String) (m : SyntheticMethod) (fault : Malformation) : Diagnostic :=
  { severity := .error
    topic := .validation
    message := s!"removed invalid method {container}::{m.name}: {(Error.malformed fault).message}"
    method := m.origin }

/-- A method that was found invalid: where it stands, and what is noted about it. -/
structure Finding where
  container : ContainerId
  index : Nat
  note : Diagnostic

/-- The invalid methods of a container, in order. -/
def findingsIn (image : Image) (entry : Container × ContainerId) : List Finding :=
  entry.1.methods.zipIdx.filterMap fun (m, index) =>
    match check image m with
    | .error fault => some ⟨entry.2, index, removal entry.1.name m fault⟩
    | .ok () => none

/-- The invalid methods of an image, in order. -/
def findings (image : Image) : List Finding := image.containers.zipIdx.flatMap (findingsIn image)

/-- Takes the method of a finding out of its container. -/
def takeOut (containers : List Container) (f : Finding) : List Container :=
  containers.modify f.container (·.withoutMethod f.index)

/-- The image without its invalid methods, and a note about each of them.  All are found
before any is taken out, and the last one is taken out first, so that those before it keep
their places. -/
def sweep (image : Image) : Image × List Diagnostic :=
  let found := (findings image).reverse
  ({ image with containers := found.foldl takeOut image.containers }, found.map (·.note))

end Validity
end HookImage
