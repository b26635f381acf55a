/-
# Which images keep the numbers of their rows

A column with the number of a row has two bytes as long as its table has less than `2 ^ 16` rows,
and one that also holds a tag as long as none of its tables has so many rows that a number would
not leave room for the tag.  Two kinds of numbers go beyond that.  The last run of a table, if it
is empty, begins behind the last row, and with 65535 rows the number 65536 does not fit in the two
bytes that 65535 rows ask for.  And a token of a member, of an instantiation or around a container
may name a row that is not there.  In an image without them (`Image.Addressable`) every column
fits, and in every other image one does not (`Draft.fits_iff`): the writer then leaves out the
high bytes and reports nothing, and what is read back is another row (`Image.tables_read_iff`).
-/

import HookImage.Proofs.Image.Fitting
import HookImage.Proofs.Image.ReadBack
import Mathlib

namespace HookImage

open Bytes (LiesAt)

/-! ### The last runs -/

/-- The last type is that of the last container, or that of the attribute, which has a method. -/
theorem Image.last_defined (image : Image) :
    (image.defined.map (·.methods.length)).getLast? ≠ some 0 ↔
      ∀ c, image.containers.getLast? = some c → c.methods ≠ [] := by
  rw [Image.defined, List.map_cons, List.map_cons, List.map_map, List.getLast?_cons,
    List.getLast?_cons, List.getLast?_map, Option.getD_some]
  rcases image.containers.getLast? with _ | c
  · exact iff_of_true (by simp [AttributeType.defined]) (fun _ h => by cases h)
  · simp [Container.defined]

/-- The rows of parameters are the parameter names of all methods. -/
theorem Image.sum_allMethods {image : Image} (made : image.Made) :
    ((DefinedType.allMethods image.defined).map (·.paramNames.length)).sum =
      image.rowCount .param := by
  obtain ⟨name, base, constructor, provenance⟩ := made
  rw [allMethods_defined, List.map_cons, List.map_map, List.sum_cons, provenance]
  rfl

/-- The last method is one of a container, or the constructor of the attribute, which has
parameters. -/
theorem Image.last_allMethods {image : Image} (made : image.Made) :
    ((DefinedType.allMethods image.defined).map (·.paramNames.length)).getLast? ≠ some 0 ↔
      ∀ m, image.methods.getLast? = some m → m.2.paramNames ≠ [] := by
  obtain ⟨name, base, constructor, provenance⟩ := made
  rw [allMethods_defined, List.map_cons, List.map_map, List.getLast?_cons, List.getLast?_map]
  rcases image.methods.getLast? with _ | m
  · rw [provenance]
    refine iff_of_true ?_ fun _ h => by cases h
    simp [attributeType, AttributeType.constructorMethod]
  · simp

/-! ### Images -/

/-- Asking for assemblies adds no types. -/
theorem SymbolTable.types_assemblyRefs (s : SymbolTable) (loaded : List ModuleInfo) :
    (loaded.foldl (fun s a => (s.assemblyRef a).2) s).types = s.types := by
  induction loaded generalizing s with
  | nil => rfl
  | cons a loaded ih => exact ih _

namespace Image

/-- Whether an image has the attribute that images are created with, whose base is the first type
of another assembly. -/
def Created (image : Image) : Prop :=
  ∃ name constructor, image.provenance = attributeType name (.ofRow .typeRef 1) constructor

/-- The attribute of a created image is the one that images are created with. -/
theorem Created.made {image : Image} (h : image.Created) : image.Made := by
  obtain ⟨name, constructor, provenance⟩ := h
  exact ⟨name, _, constructor, provenance⟩

/-- A new image has such an attribute: the base is the first type that it asks for. -/
theorem created_create {name attributeName : String} {core : ModuleInfo}
    {loaded : List ModuleInfo} {image : Image}
    (h : create name core attributeName loaded = .ok image) : image.Created := by
  obtain ⟨⟨base, symbols⟩, asked, h⟩ := bind_eq_ok.1 h
  obtain ⟨signature, -, h⟩ := bind_eq_ok.1 h
  cases h
  obtain ⟨-, rfl, -⟩ := SymbolTable.typeRef_eq_ok asked
  have none := SymbolTable.types_assemblyRefs .empty loaded
  have first (types : RowTable TypeRow) (row : TypeRow) (empty : types.rows.size = 0) :
      (types.add row).1 = 1 := by
    rcases types.add_cases row with ⟨old, found, -⟩ | ⟨number, -⟩
    · have inside := Interner.row?_le_size found
      rw [empty, Nat.le_zero] at inside
      rw [inside] at found
      cases found
    · rw [number, empty]
  exact ⟨attributeName, _, congrArg (attributeType attributeName · _)
    (congrArg (Token.ofRow .typeRef) (first _ _ (by rw [none]; rfl)))⟩

/-- The bases of types are the null token and the one of the attribute. -/
theorem Created.indexes_base {image : Image} (created : image.Created) :
    ∀ type ∈ image.defined, image.Indexes .typeDefOrRef type.head.base := by
  intro type mem
  obtain ⟨name, constructor, provenance⟩ := created
  have null : image.Indexes .typeDefOrRef ⟨0⟩ := .inl (by decide)
  rw [Image.defined, List.mem_cons, List.mem_cons, List.mem_map] at mem
  rcases mem with rfl | rfl | ⟨c, -, rfl⟩
  · exact null
  · rw [provenance]
    exact .inl (show (Token.ofRow .typeRef 1).row < _ by decide)
  · exact null

/-- Whether an image has no number of a row for which its column has no room. -/
structure Addressable (image : Image) : Prop where
  /-- The last run of methods is not empty behind 65535 methods. -/
  methodRuns : image.rowCount .methodDef = 0xFFFF →
    ∀ c, image.containers.getLast? = some c → c.methods ≠ []
  /-- The last run of parameters is not empty behind 65535 parameters. -/
  paramRuns : image.rowCount .param = 0xFFFF →
    ∀ m, image.methods.getLast? = some m → m.2.paramNames ≠ []
  enclosing : ∀ c ∈ image.containers, ∀ p, c.parent = some p →
    (typeDefToken p).row < 0x10000 ∨ 0x10000 ≤ image.rowCount .typeDef
  parents : ∀ row ∈ image.symbols.members.rows.toList, image.Indexes .memberRefParent row.parent
  instantiations : ∀ row ∈ image.symbols.instantiations.rows.toList,
    image.Indexes .methodDefOrRef row.method

end Image

namespace Draft

variable {d : Draft} {image : Image} {s : TableSizes}

section Fitting

variable (counted : ∀ table, s.count table = image.rowCount table)
  (contents : d.Contents image)
include counted contents

/-- A type of another assembly lies in an assembly or in a type that is there. -/
theorem rowsFit_typeRef : d.RowsFit s .typeRef := by
  intro cells mem c hc
  obtain ⟨row, inside, scope, hscope, rfl⟩ := exists_mem_of_forall₂ contents.types mem
  obtain ⟨n, found⟩ := Interner.exists_row?_of_mem inside
  have indexes : image.Indexes .resolutionScope row.scope := by
    rcases image.symbols.nested n row found with ⟨-, a, ha⟩ | ⟨-, ⟨r, hr⟩, -⟩
    · exact Image.indexes_of_le .assemblyRef (by decide) (Interner.row?_le_size ha)
    · exact Image.indexes_of_le .typeRef (by decide) (Interner.row?_le_size hr)
  have fits := (Cell.fits_ofToken counted hscope).2 indexes
  simp only [List.mem_cons, List.not_mem_nil, or_false] at hc
  rcases hc with rfl | rfl | rfl
  · exact fits
  · trivial
  · trivial

/-- The rows of members fit exactly if each parent can be named. -/
theorem rowsFit_memberRef_iff : d.RowsFit s .memberRef ↔
    ∀ row ∈ image.symbols.members.rows.toList, image.Indexes .memberRefParent row.parent := by
  refine (forall_mem_iff_of_forall₂ contents.members fun row cells written => ?_).symm
  obtain ⟨parent, hparent, rfl⟩ := written
  rw [← Cell.fits_ofToken counted hparent]
  simp [Cell.Fits]

/-- The rows of instantiations fit exactly if each method can be named. -/
theorem rowsFit_methodSpec_iff : d.RowsFit s .methodSpec ↔
    ∀ row ∈ image.symbols.instantiations.rows.toList,
      image.Indexes .methodDefOrRef row.method := by
  refine (forall_mem_iff_of_forall₂ contents.instantiations fun row cells written => ?_).symm
  obtain ⟨method, hmethod, rfl⟩ := written
  rw [← Cell.fits_ofToken counted hmethod]
  simp [Cell.Fits]

/-- A container has a row of its own, and so has each that lies around another one. -/
theorem rowsFit_nestedClass_iff : d.RowsFit s .nestedClass ↔
    ∀ c ∈ image.containers, ∀ p, c.parent = some p →
      (Image.typeDefToken p).row < 0x10000 ∨ 0x10000 ≤ image.rowCount .typeDef := by
  have small (t : Token) : t.row < 0x100000000 :=
    Nat.lt_trans (Nat.mod_lt _ (by decide)) (by decide : 0x1000000 < 0x100000000)
  -- The row of a container itself is there.
  have own (c : Container) (id : ContainerId) (mem : (c, id) ∈ image.containers.zipIdx) :
      (Cell.row .typeDef (Image.typeDefToken id).row).Fits s := by
    rw [Cell.fits_row_iff (small _), counted, Image.typeDefToken, Token.row_ofRow]
    have inside := (List.mem_zipIdx' mem).1
    have cut := Nat.mod_le (id + Image.reservedTypes + 1) 0x1000000
    show _ ∨ 0x10000 ≤ image.containers.length + Image.reservedTypes
    omega
  have each (entry : Container × ContainerId) (mem : entry ∈ image.containers.zipIdx) :
      (∀ cells ∈ Container.nestingRows entry, ∀ c ∈ cells, c.Fits s) ↔
        ∀ p, entry.1.parent = some p →
          (Image.typeDefToken p).row < 0x10000 ∨ 0x10000 ≤ image.rowCount .typeDef := by
    obtain ⟨c, id⟩ := entry
    unfold Container.nestingRows
    cases c.parent with
    | none => simp
    | some p => simp [own c id mem, Cell.fits_row_iff (small _), counted]
  rw [RowsFit, contents.nesting]
  constructor
  · intro all c mem
    obtain ⟨i, inside, rfl⟩ := List.getElem_of_mem mem
    have entry : (image.containers[i], i) ∈ image.containers.zipIdx :=
      List.mk_mem_zipIdx_iff_getElem?.2 (List.getElem?_eq_getElem inside)
    exact (each _ entry).1 fun cells own => all cells (List.mem_flatMap.2 ⟨_, entry, own⟩)
  · intro all cells mem
    obtain ⟨entry, inside, own⟩ := List.mem_flatMap.1 mem
    have member : entry.1 ∈ image.containers := List.fst_mem_of_mem_zipIdx inside
    exact (each entry inside).2 (all entry.1 member) cells own

/-- A tag names its method and the constructor of the attribute, which are there. -/
theorem rowsFit_customAttribute (created : image.Created) : d.RowsFit s .customAttribute := by
  intro cells mem c hc
  obtain ⟨tag, inside, parent, type, hparent, htype, rfl⟩ :=
    exists_mem_of_forall₂ contents.defines.tags mem
  have method : image.Indexes .hasCustomAttribute (.ofRow .methodDef tag.2) := by
    refine Image.indexes_of_le .methodDef (by decide) ?_
    have number := (SyntheticMethod.le_of_mem_tags inside).2
    have cut := Nat.mod_le tag.2 0x1000000
    rw [Image.length_allMethods] at number
    rw [Token.row_ofRow]
    omega
  have constructor : image.Indexes .customAttributeType image.provenance.constructor := by
    obtain ⟨name, constructor, provenance⟩ := created
    rw [provenance]
    exact .inl (show (Token.ofRow .methodDef 1).row < _ by decide)
  have fits := (Cell.fits_ofToken counted hparent).2 method
  have fits' := (Cell.fits_ofToken counted htype).2 constructor
  simp only [List.mem_cons, List.not_mem_nil, or_false] at hc
  rcases hc with rfl | rfl | rfl
  · exact fits
  · exact fits'
  · trivial

/-- The rows of types fit unless there are 65535 methods and the last type has none of them, for
then it begins at row 65536. -/
theorem rowsFit_typeDef_iff (created : image.Created)
    (small : image.rowCount .methodDef + 1 < 0x100000000) : d.RowsFit s .typeDef ↔
      (image.rowCount .methodDef = 0xFFFF →
        ∀ c, image.containers.getLast? = some c → c.methods ≠ []) := by
  have runs := contents.defines.methodRuns
  have methods : (d.rowsOf .methodDef).length = image.rowCount .methodDef := by
    rw [← contents.defines.methods.length_eq, Image.length_allMethods]
  rw [← Image.last_defined, ← methods, runs.total]
  refine runs.rowsFit_iff (by rw [counted, methods]) (by simp [Image.defined])
    (by rwa [← runs.total, methods]) fun cells mem last found => ?_
  obtain ⟨head, heads, base, start, hbase, rfl⟩ :=
    exists_mem_of_forall₂ contents.defines.heads mem
  obtain ⟨type, inside, rfl⟩ := List.mem_map.1 heads
  have fits := (Cell.fits_ofToken counted hbase).2 (created.indexes_base type inside)
  have field : (Cell.row .field 1).Fits s := (Cell.fits_row_iff (by decide)).2 (.inl (by decide))
  obtain rfl : Cell.row .methodDef start = last := Option.some.inj found
  simp [fits, field, show ∀ v, (Cell.dword v).Fits s from fun _ => trivial,
    show ∀ v, (Cell.name v).Fits s from fun _ => trivial]

/-- The rows of methods fit unless there are 65535 parameters and the last method has none of them,
for then it begins at row 65536. -/
theorem rowsFit_methodDef_iff (made : image.Made)
    (small : image.rowCount .param + 1 < 0x100000000) : d.RowsFit s .methodDef ↔
      (image.rowCount .param = 0xFFFF →
        ∀ m, image.methods.getLast? = some m → m.2.paramNames ≠ []) := by
  have runs := contents.defines.paramRuns
  have params : (d.rowsOf .param).length = image.rowCount .param := by
    rw [runs.total, Image.sum_allMethods made]
  rw [← Image.last_allMethods made, ← params, runs.total]
  refine runs.rowsFit_iff (by rw [counted, params]) (by simp [Image.allMethods_defined])
    (by rwa [← runs.total, params]) fun cells mem last found => ?_
  obtain ⟨m, -, address, signature, start, -, rfl⟩ :=
    exists_mem_of_forall₂ contents.defines.methods mem
  obtain rfl : Cell.row .param start = last := Option.some.inj found
  simp [Cell.Fits]

/-- **All columns of a drafted image fit** exactly if the image is addressable. -/
theorem fits_iff (created : image.Created)
    (small : ∀ table, image.rowCount table + 1 < 0x100000000) :
    (∀ table, d.RowsFit s table) ↔ image.Addressable := by
  have typeDef := rowsFit_typeDef_iff counted contents created (small .methodDef)
  have methodDef := rowsFit_methodDef_iff counted contents created.made (small .param)
  have nestedClass := rowsFit_nestedClass_iff counted contents
  have memberRef := rowsFit_memberRef_iff counted contents
  have methodSpec := rowsFit_methodSpec_iff counted contents
  constructor
  · intro all
    exact {
      methodRuns := typeDef.1 (all .typeDef)
      paramRuns := methodDef.1 (all .methodDef)
      enclosing := nestedClass.1 (all .nestedClass)
      parents := memberRef.1 (all .memberRef)
      instantiations := methodSpec.1 (all .methodSpec) }
  · intro addressable table
    -- The other tables have rows of numbers, of texts and of blobs.
    cases table with
    | typeRef => exact rowsFit_typeRef counted contents
    | typeDef => exact typeDef.2 addressable.methodRuns
    | methodDef => exact methodDef.2 addressable.paramRuns
    | nestedClass => exact nestedClass.2 addressable.enclosing
    | memberRef => exact memberRef.2 addressable.parents
    | methodSpec => exact methodSpec.2 addressable.instantiations
    | customAttribute => exact rowsFit_customAttribute counted contents created
    | module => simp [RowsFit, contents.module, Cell.Fits]
    | param =>
      rw [RowsFit, contents.defines.params]
      intro cells mem
      obtain ⟨m, -, mem⟩ := List.mem_flatMap.1 mem
      obtain ⟨param, -, rfl⟩ := List.mem_map.1 mem
      simp [Cell.param, Cell.Fits]
    | standAloneSig => simp [RowsFit, contents.signatures, Cell.Fits]
    | typeSpec => simp [RowsFit, contents.specs, Cell.Fits]
    | assembly => simp [RowsFit, contents.assembly, Cell.Fits]
    | assemblyRef => simp [RowsFit, contents.assemblies, ModuleInfo.columns, Cell.Fits]
    | field => simp [RowsFit, contents.others .field (by decide)]
    | userString => simp [RowsFit, contents.others .userString (by decide)]

end Fitting

end Draft

/-! ### Reading the rows back -/

/-- A draft has as many rows in a table as the image says. -/
theorem Tables.count_ofDraft {d : Draft} {image : Image} (made : image.Made)
    (drafted : Draft.ofImage image = .ok d) (table : TableId) :
    (TableSizes.ofTables (ofDraft d)).count table = image.rowCount table := by
  have hold := hold_ofDraft (Draft.adds_ofImage drafted)
  rw [TableSizes.count, hold.rows_ofTables, TableId.lookup_present, Image.count_tables made]

open File

namespace Image

/-- **The rows of a written image are read back** from where its stream of tables lies, exactly if
the image is addressable: every column then fits in its width, and otherwise one does not. -/
theorem tables_read_iff {image : Image} {bytes : Bytes} (created : image.Created)
    (h : image.write = .ok bytes) : ∃ d info root offset size,
      Draft.ofImage image = .ok d ∧ MetadataInfo.read bytes.toArray = .ok info ∧
      LiesAt bytes root (Bytes.littleEndian 4 metadataMark) ∧
      ⟨"#~", offset, size⟩ ∈ info.streams ∧
      ((∀ row ∈ (Tables.ofDraft d).rows.toList, ∀ c ∈ row.columns,
        c.Fits (TableSizes.ofTables (Tables.ofDraft d))) ↔ image.Addressable) ∧
      (Reader.tableStream bytes.toArray (root + offset) = .ok (Tables.ofDraft d).present ↔
        image.Addressable) := by
  obtain ⟨d, s, root, hd, rfl, hroot, -, laidOut, read⟩ := exists_read_of_write created.made h
  have here := laidOut.metadata
  obtain ⟨headers, hheaders, parts⟩ := exists_of_metadataRoot hroot
  have mark : LiesAt (s.withIdentity s.identity) (fileAlignment + metadataOffset d)
      (Bytes.littleEndian 4 metadataMark) := by
    rw [parts] at here
    exact here.left.left
  -- Every stream has a size of 32 bits, so offsets in heaps and numbers of rows have.
  have sizes := length_lt_of_streamHeaders hheaders
  have hold := Tables.hold_ofDraft (Draft.adds_ofImage hd)
  have stream : (Tables.ofDraft d).stream.length < 0x100000000 := sizes _ (List.mem_cons_self ..)
  have heap (heap : Array UInt8) (name : String)
      (mem : ⟨name, Bytes.aligned 4 heap.toList⟩ ∈
        streams (Tables.ofDraft d) d.literals s.identity) : heap.size < 0x100000000 := by
    have size := sizes _ mem
    dsimp only at size
    rw [Bytes.length_aligned, Array.length_toList] at size
    exact Nat.lt_of_le_of_lt (Nat.le_add_right _ _) size
  have small (table : TableId) : image.rowCount table + 1 < 0x100000000 := by
    have := hold.count_le_length_stream table
    rw [count_tables created.made] at this
    omega
  have contents := Draft.contents_ofImage hd
  have fits := (Tables.fits_ofDraft d (heap _ "#Strings" (by simp [streams]))
    (heap _ "#Blob" (by simp [streams]))).trans
    (Draft.fits_iff (Tables.count_ofDraft created.made hd) contents created small)
  have lie := Reader.liesAt_headersOf (here.next rfl)
  simp only [streams, Reader.headersOf, List.forall₂_cons] at lie
  obtain ⟨table, -⟩ := lie
  have rows := hold.tableStream_eq_iff (count_tables created.made .userString)
    (Tables.conforms_ofDraft contents) stream table
  exact ⟨d, _, _, root.length, _, hd, read, mark, List.mem_cons_self .., fits, rows.trans fits⟩

/-- The hypotheses are satisfiable: the rows of an image with a nested container are read back. -/
theorem tables_read_iff_sampled : ∃ bytes d info root offset size,
    sampled.write = .ok bytes ∧ Draft.ofImage sampled = .ok d ∧
      MetadataInfo.read bytes.toArray = .ok info ∧
      LiesAt bytes root (Bytes.littleEndian 4 metadataMark) ∧
      ⟨"#~", offset, size⟩ ∈ info.streams ∧
      Reader.tableStream bytes.toArray (root + offset) = .ok (Tables.ofDraft d).present := by
  obtain ⟨bytes, written⟩ := exists_write_sampled
  obtain ⟨d, info, root, offset, size, drafted, read, mark, stream, -, rows⟩ :=
    tables_read_iff ⟨_, _, rfl⟩ written
  refine ⟨bytes, d, info, root, offset, size, written, drafted, read, mark, stream, rows.2 ?_⟩
  have member : sampled.symbols.members.rows.toList = [] := rfl
  have instantiation : sampled.symbols.instantiations.rows.toList = [] := rfl
  constructor
  · intro full
    cases full
  · intro full
    cases full
  · intro c mem p parent
    simp only [sampled, List.mem_cons, List.not_mem_nil, or_false] at mem
    rcases mem with rfl | rfl
    · cases parent
    · cases parent
      exact .inl (by decide)
  · simp [member]
  · simp [instantiation]

end Image
end HookImage
