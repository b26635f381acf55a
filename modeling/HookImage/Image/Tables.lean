/-
# Metadata tables

The rows that an image is written as.  A row is first *drafted*, with its texts and
blobs as they are; drafts are kept in the order in which they come up, across all tables,
because that order decides where texts and blobs land in their heaps.  A drafted row then
becomes a *settled* one, in which every text and blob is an offset.

Rows of one type or one method lie together.  A type names the first of its methods and a
method the first of its parameters; the run ends where the next one begins.
-/

import HookImage.Cil.Encode
import HookImage.Image.Basic
import HookImage.Image.Heap

namespace HookImage

/-- A column of a drafted row. -/
inductive Cell where
  /-- A number of two bytes. -/
  | word (v : UInt16)
  /-- A number of four bytes. -/
  | dword (v : UInt32)
  | name (s : String)
  | blob (bytes : Bytes)
  /-- An entry of the heap of identifiers, counted from one. -/
  | guid (n : Nat)
  /-- A row of a table, counted from one. -/
  | row (table : TableId) (n : Nat)
  /-- A row of one of several tables. -/
  | coded (kind : CodedIndex) (value : Nat)

/-- A column of a settled row. -/
inductive Column where
  | word (v : UInt16)
  | dword (v : UInt32)
  /-- An offset in the heap of names. -/
  | name (offset : Nat)
  /-- An offset in the heap of blobs. -/
  | blob (offset : Nat)
  | guid (n : Nat)
  | row (table : TableId) (n : Nat)
  | coded (kind : CodedIndex) (value : Nat)
deriving DecidableEq

/-- A row of a table. -/
structure TableRow (γ : Type) where
  table : TableId
  columns : List γ

/-- The coded form of a token for a column of a kind. -/
def CodedIndex.encode (kind : CodedIndex) (t : Token) : Except Malformation Nat :=
  match kind.encode? t with
  | some n => .ok n
  | none => .error (.notIndexed t kind)

/-- The column that refers to a token; the null token refers to nothing. -/
def Cell.ofToken (kind : CodedIndex) (t : Token) : Except Malformation Cell :=
  if t.isNull then .ok (.coded kind 0) else return .coded kind (← kind.encode t)

/-- The address at which the method bodies begin. -/
def bodiesAddress : Nat := 0x2000 + 72

/-- Tables under construction, with the bodies and the literals that go with them. -/
structure Draft where
  rows : Array (TableRow Cell) := #[]
  bodies : Array UInt8 := #[]
  literals : LiteralHeap := {}

namespace Draft

/-- Adds a row. -/
def push (d : Draft) (table : TableId) (columns : List Cell) : Draft :=
  { d with rows := d.rows.push ⟨table, columns⟩ }

/-- The number of rows of a table. -/
def count (d : Draft) (table : TableId) : Nat := d.rows.countP (·.table == table)

/-- The number that the next row of a table gets. -/
def next (d : Draft) (table : TableId) : Nat := d.count table + 1

/-- Adds the bytes of a body at a multiple of four and gives their address, which has 32
bits. -/
def addBytes (d : Draft) (bytes : Bytes) : Except Error (Nat × Draft) :=
  let gap := Bytes.padding 4 d.bodies.size
  let offset := d.bodies.size + gap
  if 0x100000000 ≤ offset then .error (.malformed (.tooLarge "method bodies"))
  else if 0x100000000 ≤ bodiesAddress + offset then .error .overflow
  else .ok (bodiesAddress + offset,
    { d with bodies := d.bodies ++ List.replicate gap (0 : UInt8) ++ bytes })

/-- Adds the written form of a body and gives its address.  Its literals go to the heap
of the draft.  A body that cannot be written is reported as `fault` says. -/
def addBody (d : Draft) (body : MethodBody) (localSig : Option Token)
    (fault : Malformation → Malformation) : Except Error (Nat × Draft) :=
  let intern (s : String) : StateM LiteralHeap Nat := fun heap => LiteralHeap.add heap s
  match d with
  | ⟨rows, bodies, literals⟩ =>
    match (body.encode intern localSig).run literals with
    | (.ok encoded, literals) => addBytes ⟨rows, bodies, literals⟩ encoded.bytes
    | (.error e, _) => .error (.malformed (fault e))

/-- Adds the name of the parameter at a position, counted from zero.  The numbers of
parameters begin with one and have sixteen bits. -/
def addParam (d : Draft) (param : String × Nat) : Except Error Draft :=
  let (name, i) := param
  if i + 1 < 0x10000 then
    .ok (d.push .param [.word 0, .word (UInt16.ofNat (i + 1)), .name name])
  else .error .overflow

/-- Adds the row of a method whose body lies at an address, and its parameters. -/
def addMethodRow (d : Draft) (address : Nat) (attributes : UInt16) (name : String)
    (signature : Bytes) (paramNames : List String) : Except Error Draft :=
  let row := [.dword (UInt32.ofNat address), .word 0, .word attributes, .name name,
    .blob signature, .row .param (d.next .param)]
  paramNames.zipIdx.foldlM addParam (d.push .methodDef row)

/-- Adds the constructor of the attribute. -/
def addConstructor (d : Draft) (a : AttributeType) : Except Error Draft := do
  let (address, d) ← d.addBody a.body none id
  let signature ← Blob.method a.signature
  d.addMethodRow address constructorAttributes ".ctor" signature a.paramNames

/-- Adds the provenance of a method. -/
def addTag (constructor method : Token) (d : Draft) (tag : ProvenanceTag) :
    Except Error Draft := do
  let parent ← Cell.ofToken .hasCustomAttribute method
  let type ← Cell.ofToken .customAttributeType constructor
  return d.push .customAttribute [parent, type, .blob tag.value]

/-- Adds a method of a container with its parameters and its provenance. -/
def addMethod (constructor : Token) (container : String) (d : Draft) (m : SyntheticMethod) :
    Except Error Draft := do
  let (address, d) ← d.addBody m.body m.localSignature (.inMethod container m.name)
  let signature ← Blob.method m.signature
  let method := Token.ofRow .methodDef (d.next .methodDef)
  let d ← d.addMethodRow address m.attributes m.name signature m.paramNames
  m.tags.foldlM (addTag constructor method) d

/-- Adds the row of a type.  Its methods are those that follow. -/
def addType (d : Draft) (attributes : Nat) (name nspace : String) (base : Cell) : Draft :=
  d.push .typeDef [.dword (UInt32.ofNat attributes), .name name, .name nspace, base,
    .row .field 1, .row .methodDef (d.next .methodDef)]

/-- Adds a container with its methods, and which container it lies in. -/
def addContainer (constructor : Token) (d : Draft) (entry : Container × ContainerId) :
    Except Error Draft := do
  let (c, id) := entry
  let d := d.addType c.attributes c.name c.nspace (.coded .typeDefOrRef 0)
  let d := match c.parent with
    | some parent => d.push .nestedClass
      [.row .typeDef (Image.typeDefToken id).row, .row .typeDef (Image.typeDefToken parent).row]
    | none => d
  c.methods.foldlM (addMethod constructor c.name) d

/-- Adds a type of another assembly. -/
def addTypeRef (d : Draft) (row : TypeRow) : Except Error Draft := do
  let scope ← Cell.ofToken .resolutionScope row.scope
  return d.push .typeRef [scope, .name row.name, .name row.nspace]

/-- Adds a member of another assembly. -/
def addMemberRef (d : Draft) (row : MemberRow) : Except Error Draft := do
  let parent ← Cell.ofToken .memberRefParent row.parent
  return d.push .memberRef [parent, .name row.name, .blob row.signature]

/-- Adds another assembly. -/
def addAssemblyRef (d : Draft) (a : ModuleInfo) : Draft :=
  let key := match a.publicKeyToken with
    | some token => token.toList
    | none => []
  d.push .assemblyRef [.word a.version.major, .word a.version.minor, .word a.version.build,
    .word a.version.revision, .dword 0, .blob key, .name a.name, .name (a.culture.getD ""),
    .blob []]

/-- Adds an instantiation of a generic method. -/
def addMethodSpec (d : Draft) (row : InstantiationRow) : Except Error Draft := do
  let method ← Cell.ofToken .methodDefOrRef row.method
  return d.push .methodSpec [method, .blob row.arguments]

/-- Adds the module itself. -/
def addModule (d : Draft) (name : String) : Draft :=
  d.push .module [.word 0, .name (name ++ ".dll"), .guid 1, .guid 0, .guid 0]

/-- Adds the assembly itself. -/
def addAssembly (d : Draft) (name : String) : Draft :=
  d.push .assembly [.dword 0x8004, .word 0, .word 0, .word 0, .word 0, .dword 0, .blob [],
    .name name, .name ""]

/-- Adds the attribute type. -/
def addAttribute (d : Draft) (a : AttributeType) : Except Error Draft := do
  let base ← Cell.ofToken .typeDefOrRef a.base
  (d.addType AttributeType.attributes a.name "" base).addConstructor a

/-- The drafted tables of an image. -/
def ofImage (image : Image) : Except Error Draft := do
  let symbols := image.symbols
  let d := ({} : Draft).addModule image.name
  let d ← symbols.types.rows.toList.foldlM addTypeRef d
  let d := d.addType 0 "<Module>" "" (.coded .typeDefOrRef 0)
  let d ← d.addAttribute image.provenance
  let d ← image.containers.zipIdx.foldlM (addContainer image.provenance.constructor) d
  let d ← symbols.members.rows.toList.foldlM addMemberRef d
  let d := symbols.signatures.rows.foldl (fun d s => d.push .standAloneSig [.blob s]) d
  let d := symbols.specs.rows.foldl (fun d s => d.push .typeSpec [.blob s]) d
  let d := d.addAssembly image.name
  let d := symbols.assemblies.rows.foldl addAssemblyRef d
  symbols.instantiations.rows.toList.foldlM addMethodSpec d

end Draft

/-- Settled rows with the heaps that they refer to. -/
structure Tables where
  rows : Array (TableRow Column) := #[]
  names : NameHeap := {}
  blobs : BlobHeap := {}

namespace Tables

/-- The settled form of a column. -/
def settleCell (names : NameHeap) (blobs : BlobHeap) : Cell → Column × NameHeap × BlobHeap
  | .name s =>
    let (offset, names) := NameHeap.add names s
    (.name offset, names, blobs)
  | .blob bytes =>
    let (offset, blobs) := BlobHeap.add blobs bytes
    (.blob offset, names, blobs)
  | .word v => (.word v, names, blobs)
  | .dword v => (.dword v, names, blobs)
  | .guid n => (.guid n, names, blobs)
  | .row table n => (.row table n, names, blobs)
  | .coded kind v => (.coded kind v, names, blobs)

/-- The settled form of columns, from left to right. -/
def settleCells (names : NameHeap) (blobs : BlobHeap) :
    List Cell → List Column × NameHeap × BlobHeap
  | [] => ([], names, blobs)
  | cell :: cells =>
    let (column, names, blobs) := settleCell names blobs cell
    let (columns, names, blobs) := settleCells names blobs cells
    (column :: columns, names, blobs)

/-- Settles a drafted row behind those before it. -/
def settleRow (t : Tables) (row : TableRow Cell) : Tables :=
  match t with
  | ⟨rows, names, blobs⟩ =>
    let (columns, names, blobs) := settleCells names blobs row.columns
    ⟨rows.push ⟨row.table, columns⟩, names, blobs⟩

/-- The settled tables of a draft. -/
def ofDraft (d : Draft) : Tables := d.rows.foldl settleRow {}

/-- The rows of a table, in order. -/
def ofTable (t : Tables) (table : TableId) : List (List Column) :=
  (t.rows.toList.filter (·.table == table)).map (·.columns)

end Tables

/-- The sizes that decide about the widths of columns. -/
structure TableSizes where
  names : Nat
  blobs : Nat
  /-- The tables with rows and their numbers of rows, by table number. -/
  rows : List (TableId × Nat)

namespace TableSizes

/-- The sizes of settled tables. -/
def ofTables (t : Tables) : TableSizes where
  names := t.names.data.size
  blobs := t.blobs.data.size
  rows := (TableId.all.map fun table => (table, (t.ofTable table).length)).filter (·.2 != 0)

/-- The number of rows of a table. -/
def count (s : TableSizes) (table : TableId) : Nat := (s.rows.lookup table).getD 0

/-- Whether offsets in the heap of names take four bytes. -/
def wideNames (s : TableSizes) : Bool := 0x10000 ≤ s.names

/-- Whether offsets in the heap of blobs take four bytes. -/
def wideBlobs (s : TableSizes) : Bool := 0x10000 ≤ s.blobs

/-- The number of rows of the largest table of a kind. -/
def largest (s : TableSizes) (kind : CodedIndex) : Nat :=
  (kind.tables.filterMap (·.map s.count)).foldl max 0

/-- How many bytes a column takes. -/
def width (s : TableSizes) : Column → Nat
  | .word _ => 2
  | .dword _ => 4
  | .name _ => if s.wideNames then 4 else 2
  | .blob _ => if s.wideBlobs then 4 else 2
  | .guid _ => 2
  | .row table _ => if s.count table < 0x10000 then 2 else 4
  | .coded kind _ => if s.largest kind < 0x10000 >>> kind.tagBits then 2 else 4

end TableSizes

/-- The number that stands in a column. -/
def Column.value : Column → Nat
  | word v => v.toNat
  | dword v => v.toNat
  | name offset | blob offset => offset
  | guid n => n
  | row _ n => n
  | coded _ v => v

/-- The stream of tables: a header with the widths of the heaps, a bit for each table that
has rows, the numbers of rows, and the rows. -/
def Tables.stream (t : Tables) : Bytes :=
  let sizes := TableSizes.ofTables t
  let heapBits := (if sizes.wideNames then 1 else 0) + (if sizes.wideBlobs then 4 else 0)
  let valid := sizes.rows.foldl (fun bits (table, _) => bits ||| (1 <<< table.number)) 0
  let cell (c : Column) : Bytes := Bytes.littleEndian (sizes.width c) c.value
  let header := [0, 0, 0, 0, 2, 0, UInt8.ofNat heapBits, 1] ++ Bytes.littleEndian 8 valid ++
    Bytes.littleEndian 8 0x16003301FA00
  let counts := sizes.rows.flatMap fun (_, n) => Bytes.littleEndian 4 n
  let rows := sizes.rows.flatMap fun (table, _) => (t.ofTable table).flatMap (·.flatMap cell)
  Bytes.aligned 4 (header ++ counts ++ rows)

end HookImage
