/-
# Output images

An image under construction: the symbol table, the attribute that tells where a method
comes from, and a forest of containers with the reconstructed methods.  Containers are
numbered in the order in which they were added, and an enclosing container comes before
those within it.  Two rows of the table of types are reserved, for the module itself and
for the attribute; containers follow in their order.
-/

import HookImage.Cil.Body
import HookImage.Image.SymbolTable

namespace HookImage

/-- Where a method comes from: the mechanism and who installed it. -/
structure ProvenanceTag where
  kind : String
  owner : String
deriving DecidableEq

/-- The arguments of the attribute: a prolog, both texts with their lengths, and no
named arguments. -/
def ProvenanceTag.value (tag : ProvenanceTag) : Bytes :=
  let text (s : String) : Bytes :=
    let bytes := Bytes.utf8 s
    Bytes.compressedLength bytes.length ++ bytes
  [0x01, 0x00] ++ text tag.kind ++ text tag.owner ++ [0x00, 0x00]

/-- Attributes of a public static method without overloads by name. -/
def syntheticAttributes : UInt16 := 0x0096

/-- Attributes of a public static method. -/
def stubAttributes : UInt16 := 0x0016

/-- Attributes of a constructor. -/
def constructorAttributes : UInt16 := 0x1886

/-- A reconstructed method. -/
structure SyntheticMethod where
  name : String
  signature : MethodSig
  attributes : UInt16 := syntheticAttributes
  paramNames : List String
  body : MethodBody
  tags : List ProvenanceTag := []
  /-- The method of the audited process that it reconstructs. -/
  origin : Option MethodId := none
  /-- The signature of the local variables, once they are imported. -/
  localSignature : Option Token := none

/-- A method whose parameters are named by their positions. -/
def SyntheticMethod.ofBody (name : String) (signature : MethodSig) (body : MethodBody) :
    SyntheticMethod :=
  let paramNames := (List.range signature.params.length).map fun i => s!"arg{i}"
  { name, signature, paramNames, body }

/-- The number of a container. -/
abbrev ContainerId := Nat

/-- A type of the image that stands for a type of the audited process. -/
structure Container where
  nspace : String
  name : String
  parent : Option ContainerId
  /-- The type that it stands for. -/
  standsFor : TypeId
  children : List ContainerId := []
  methods : List SyntheticMethod := []

/-- The container without the method at a place. -/
def Container.withoutMethod (c : Container) (index : Nat) : Container :=
  { c with methods := c.methods.eraseIdx index }

/-- The attributes of a container: public, abstract and sealed, within another container
or not. -/
def Container.attributes (c : Container) : Nat := if c.parent.isSome then 0x182 else 0x181

/-- The attribute type of an image and its constructor. -/
structure AttributeType where
  name : String
  type : Token
  base : Token
  constructor : Token
  signature : MethodSig
  paramNames : List String
  body : MethodBody

/-- The attributes of the attribute type: not public, sealed, initialised on demand. -/
def AttributeType.attributes : Nat := 0x100100

/-- An image under construction. -/
structure Image where
  name : String
  symbols : SymbolTable
  /-- The attribute that tells where a method comes from. -/
  provenance : AttributeType
  containers : List Container := []
  /-- The containers that lie in no other. -/
  roots : List ContainerId := []

namespace Image

/-- How many rows of the table of types come before the containers. -/
def reservedTypes : Nat := 2

/-- The attribute type over a base type with a given constructor. -/
def attributeType (name : String) (base baseConstructor : Token) : AttributeType where
  name
  type := .ofRow .typeDef 2
  base
  constructor := .ofRow .methodDef 1
  signature :=
    { hasThis := true, params := [.primitive .string, .primitive .string] }
  paramNames := ["type", "owner"]
  body :=
    { MethodBody.ofCode
        [(.ldarg0, .none), (.call, .token baseConstructor), (.ret, .none)] with
      maxStack := 1 }

/-- An image without containers.  It refers to the loaded modules and to the base of its
attribute type in the core library. -/
def create (name : String) (core : ModuleInfo) (attributeName : String)
    (loaded : List ModuleInfo) : Except Error Image := do
  let symbols := loaded.foldl (fun s a => (s.assemblyRef a).2) SymbolTable.empty
  let (coreRef, symbols) := symbols.assemblyRef core
  let (base, symbols) ← symbols.typeRef ⟨coreRef, "System", "Attribute"⟩
  let signature ← Blob.method { hasThis := true }
  let (baseConstructor, symbols) := symbols.memberRef ⟨base, ".ctor", signature⟩
  return { name, symbols, provenance := attributeType attributeName base baseConstructor }

/-- Adds a container.  It becomes a child of its parent, or a root if there is none. -/
def addContainer (image : Image) (c : Container) : ContainerId × Image :=
  let id := image.containers.length
  match c.parent with
  | some parent =>
    if parent < id then
      let link (p : Container) : Container := { p with children := p.children ++ [id] }
      (id, { image with containers := image.containers.modify parent link ++ [c] })
    else (id, { image with containers := image.containers ++ [c], roots := image.roots ++ [id] })
  | none => (id, { image with containers := image.containers ++ [c], roots := image.roots ++ [id] })

/-- The token of a container. -/
def typeDefToken (id : ContainerId) : Token := .ofRow .typeDef (id + reservedTypes + 1)

/-- The container of a token. -/
def containerOf? (image : Image) (t : Token) : Option ContainerId :=
  if t.table? == some .typeDef && reservedTypes < t.row &&
      t.row - (reservedTypes + 1) < image.containers.length then
    some (t.row - (reservedTypes + 1))
  else none

/-- Whether a token is a type of the image. -/
def definesType (image : Image) (t : Token) : Bool :=
  t.table? == some .typeDef && 1 ≤ t.row && t.row ≤ image.containers.length + reservedTypes

/-- Adds a method to a container and gives its place. -/
def addMethod (image : Image) (id : ContainerId) (m : SyntheticMethod) :
    Option (Nat × Image) :=
  (image.containers[id]?).map fun c =>
    let add (c : Container) : Container := { c with methods := c.methods ++ [m] }
    (c.methods.length, { image with containers := image.containers.modify id add })

/-- Takes the method at a place out of a container. -/
def removeMethod (image : Image) (id : ContainerId) (index : Nat) :
    Option (SyntheticMethod × Image) := do
  let c ← image.containers[id]?
  let m ← c.methods[index]?
  return (m, { image with containers := image.containers.modify id (·.withoutMethod index) })

/-- The methods with their containers, in order. -/
def methods (image : Image) : List (ContainerId × SyntheticMethod) :=
  image.containers.zipIdx.flatMap fun (c, id) => c.methods.map (id, ·)

/-- Gives a container another name, if there is such a container. -/
def rename (image : Image) (id : ContainerId) (name : String) : Image :=
  { image with containers := image.containers.modify id fun c => { c with name } }

/-- The number of methods. -/
def methodCount (image : Image) : Nat := image.methods.length

/-- The first method of a container with a name. -/
def findMethod? (image : Image) (id : ContainerId) (name : String) : Option SyntheticMethod := do
  let c ← image.containers[id]?
  c.methods.find? (·.name == name)

end Image
end HookImage
