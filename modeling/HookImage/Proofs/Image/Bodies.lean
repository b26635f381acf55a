/-
# Every row of a method points at its body

The bodies of methods are put one behind the other, each at a multiple of four, and the row of a
method gets the address at which its body will lie in memory.  Header, padding and the place of the
section in the file are only known later, so that the address is right has two halves: what one
method adds to the bodies and to the rows (`Draft.Houses.addMethod`), and where the bodies as a
whole lie in the file (`File.LaidOut`).  The bodies end where the metadata begins, and they begin
behind the header of the runtime.

| address | offset in the file | what |
| --- | --- | --- |
| `0x2000` | `0x200` | header of the runtime |
| `0x2000 + 72 + n` | `0x200 + 72 + n` | body at offset `n` among the bodies |
| behind the last body, at a multiple of four | as far behind | metadata |
-/

import Mathlib
import HookImage.Proofs.Image.Fitting
import HookImage.Proofs.Image.Literals
import HookImage.Proofs.Image.ReadBack

namespace HookImage

open Bytes (LiesAt)
open LiteralHeap (handOut)

/-- A written body with the address that the row of its method tells and the offset at which it
lies. -/
structure PlacedBody where
  address : UInt32
  offset : Nat
  body : EncodedBody

namespace PlacedBody

/-- Where the bytes behind a body begin. -/
def stop (p : PlacedBody) : Nat := p.offset + p.body.bytes.length

/-- The same body in a file in which the bodies begin at an offset. -/
def inFile (start : Nat) (p : PlacedBody) : PlacedBody := { p with offset := start + p.offset }

end PlacedBody

/-- The methods of an image in the order of their rows, with the constructor of the attribute. -/
def Image.rowMethods (image : Image) : List SyntheticMethod :=
  image.provenance.constructorMethod :: image.methods.map (·.2)

/-- Whether the row of a method has its name, for names that lie in a file from an offset on. -/
def SyntheticMethod.IsNamedBy (m : SyntheticMethod) (file : Bytes) (names : Nat)
    (row : List Column) : Prop :=
  ∃ offset, row[3]? = some (.name offset) ∧ LiesAt file (names + offset) (NameHeap.entry m.name)

/-- What the bodies of methods are written as, from the first to the last. -/
def SyntheticMethod.encodeBodies (methods : List SyntheticMethod) :
    ExceptT Malformation (StateM LiteralHeap) (List EncodedBody) :=
  MethodBody.encodeAll (methods.map fun m => (m.body, m.localSignature))

/-- One more body is encoded behind the others, with the literals that these left. -/
theorem SyntheticMethod.encodeBodies_concat {methods : List SyntheticMethod} {m : SyntheticMethod}
    {written : List EncodedBody} {e : EncodedBody} {heap heap' heap'' : LiteralHeap}
    (h : (encodeBodies methods).run.run heap = (.ok written, heap'))
    (last : (m.body.encode handOut m.localSignature).run.run heap' = (.ok e, heap'')) :
    (encodeBodies (methods ++ [m])).run.run heap = (.ok (written ++ [e]), heap'') := by
  rw [encodeBodies, MethodBody.encodeAll, List.map_append, List.mapM_append]
  refine run_bind_eq_ok.2 ⟨written, heap', h, run_bind_eq_ok.2 ⟨[e], heap'', ?_, rfl⟩⟩
  rw [List.map_singleton, List.mapM_cons]
  exact run_bind_eq_ok.2 ⟨e, heap'', last, rfl⟩

namespace Draft

variable {d d₁ d' : Draft} {methods : List SyntheticMethod} {placed : List PlacedBody}

/-! ### Steps that add no body -/

/-- Whether a draft has the bodies, the literals and the rows of methods of another one. -/
structure KeepsBodies (d d' : Draft) : Prop where
  bodies : d'.bodies = d.bodies
  literals : d'.literals = d.literals
  rows : d'.rowsOf .methodDef = d.rowsOf .methodDef

/-- Nothing changes the bodies. -/
theorem KeepsBodies.refl (d : Draft) : KeepsBodies d d := ⟨rfl, rfl, rfl⟩

/-- Two steps that keep the bodies keep them together. -/
theorem KeepsBodies.trans (h : KeepsBodies d d₁) (h' : KeepsBodies d₁ d') : KeepsBodies d d' :=
  ⟨h'.bodies.trans h.bodies, h'.literals.trans h.literals, h'.rows.trans h.rows⟩

/-- A row of another table than that of methods keeps the bodies. -/
theorem keepsBodies_push (d : Draft) {table : TableId} (other : TableId.methodDef ≠ table)
    (columns : List Cell) : KeepsBodies d (d.push table columns) :=
  ⟨rfl, rfl, (appends_push d table columns).other other⟩

/-- The row of a type keeps the bodies. -/
theorem keepsBodies_addType (d : Draft) (attributes : Nat) (name nspace : String) (base : Cell) :
    KeepsBodies d (d.addType attributes name nspace base) :=
  keepsBodies_push d (by decide) _

/-- Rows of another table, each of which may be refused, keep the bodies. -/
theorem keepsBodies_foldlM {α : Type} {f : Draft → α → Except Error Draft} (table : TableId)
    (other : TableId.methodDef ≠ table)
    (step : ∀ d x d', f d x = .ok d' → ∃ columns, d' = d.push table columns) {xs : List α}
    (h : xs.foldlM f d = .ok d') : KeepsBodies d d' :=
  foldlM_carries (P := fun _ d' => KeepsBodies d d')
    (fun _ x d₁ d' before h => by
      obtain ⟨columns, rfl⟩ := step d₁ x d' h
      exact before.trans (keepsBodies_push d₁ other columns))
    (.refl d) h

/-- Rows of another table keep the bodies. -/
theorem keepsBodies_foldl {α : Type} {f : Draft → α → Draft} (table : TableId)
    (other : TableId.methodDef ≠ table) (row : α → List Cell)
    (step : ∀ d x, f d x = d.push table (row x)) (rows : Array α) (d : Draft) :
    KeepsBodies d (rows.foldl f d) := by
  have run : rows.toList.foldlM (fun d x => (.ok (f d x) : Except Error Draft)) d =
      .ok (rows.toList.foldl f d) := List.foldlM_pure ..
  rw [← Array.foldl_toList]
  refine keepsBodies_foldlM table other (fun d x d' h => ⟨row x, ?_⟩) run
  rw [← step, Except.ok.inj h]

/-! ### Steps that add a body -/

/-- **A body is put behind the others at the next multiple of four**, and its address says how far
that is. -/
theorem exists_of_addBody {body : MethodBody} {localSig : Option Token}
    {fault : Malformation → Malformation} {address : Nat}
    (h : d.addBody body localSig fault = .ok (address, d₁)) :
    ∃ e, (body.encode handOut localSig).run.run d.literals = (.ok e, d₁.literals) ∧
      address = bodiesAddress + (Bytes.aligned 4 d.bodies.toList).length ∧ address < 0x100000000 ∧
      d₁.bodies.toList = Bytes.aligned 4 d.bodies.toList ++ e.bytes := by
  obtain ⟨rows, bodies, literals⟩ := d
  unfold addBody at h
  dsimp only at h
  split at h
  · rename_i e literals' encoded
    have length : (Bytes.aligned 4 bodies.toList).length =
        bodies.size + Bytes.padding 4 bodies.size := by
      rw [Bytes.length_aligned, Bytes.roundUp, Array.length_toList]
    unfold addBytes at h
    dsimp only at h
    split at h
    · cases h
    · split at h
      · cases h
      · rename_i fits
        cases h
        refine ⟨e, encoded, by rw [length], Nat.lt_of_not_le fits, ?_⟩
        simp only [Array.toList_appendList, Bytes.aligned, Array.length_toList]
  · cases h

/-- Whether the rows of methods tell where their bodies lie: as many bodies were written as there
are methods, each lies at a multiple of four where its row says, and each ends before the next one
begins. -/
structure Houses (d : Draft) (methods : List SyntheticMethod) (placed : List PlacedBody) :
    Prop where
  rows : (d.rowsOf .methodDef).map List.head? = placed.map fun p => some (.dword p.address)
  written : (SyntheticMethod.encodeBodies methods).run.run {} =
    (.ok (placed.map (·.body)), d.literals)
  addresses : ∀ p ∈ placed, p.address.toNat = bodiesAddress + p.offset
  aligned : ∀ p ∈ placed, p.offset % 4 = 0
  lies : ∀ p ∈ placed, LiesAt d.bodies.toList p.offset p.body.bytes
  apart : placed.Pairwise fun p q => p.stop ≤ q.offset

/-- An empty draft houses no method. -/
theorem houses_empty : ({} : Draft).Houses [] [] where
  rows := rfl
  written := rfl
  addresses := by simp
  aligned := by simp
  lies := by simp
  apart := .nil

/-- Whatever keeps the bodies leaves methods housed. -/
theorem Houses.congr (h : d.Houses methods placed) (keeps : KeepsBodies d d') :
    d'.Houses methods placed where
  rows := keeps.rows ▸ h.rows
  written := keeps.literals ▸ h.written
  addresses := h.addresses
  aligned := h.aligned
  lies := keeps.bodies ▸ h.lies
  apart := h.apart

/-- A body with its row is one more behind those that are housed. -/
theorem Houses.addBody (h : d.Houses methods placed) {m : SyntheticMethod}
    {fault : Malformation → Malformation} {address : Nat}
    (hbody : d.addBody m.body m.localSignature fault = .ok (address, d₁)) (columns : List Cell)
    (head : columns.head? = some (.dword (UInt32.ofNat address))) :
    ∃ p, (d₁.push .methodDef columns).Houses (methods ++ [m]) (placed ++ [p]) := by
  obtain ⟨e, encoded, here, small, bodies⟩ := exists_of_addBody hbody
  have grows : d.bodies.toList <+: d₁.bodies.toList := by
    rw [bodies, Bytes.aligned, List.append_assoc]
    exact List.prefix_append _ _
  have last : ∀ p ∈ placed, p.stop ≤ d.bodies.toList.length := by
    intro p mem
    obtain ⟨front, back, parts, length⟩ := h.lies p mem
    rw [PlacedBody.stop, ← length, parts, List.length_append, List.length_append]
    exact Nat.le_add_right _ _
  refine ⟨⟨UInt32.ofNat address, (Bytes.aligned 4 d.bodies.toList).length, e⟩, ?_, ?_, ?_, ?_, ?_,
    ?_⟩
  · rw [rowsOf_push, rowsOf_congr (rows_addBody hbody), List.map_append, List.map_append, h.rows]
    simp [head]
  · rw [List.map_append]
    exact SyntheticMethod.encodeBodies_concat h.written encoded
  · refine List.forall_mem_append.2 ⟨h.addresses, List.forall_mem_singleton.2 ?_⟩
    exact (UInt32.toNat_ofNat_of_lt' small).trans here
  · refine List.forall_mem_append.2 ⟨h.aligned, List.forall_mem_singleton.2 ?_⟩
    simp [Bytes.roundUp_mod]
  · refine List.forall_mem_append.2 ⟨fun p mem => (h.lies p mem).mono grows,
      List.forall_mem_singleton.2 ?_⟩
    show LiesAt d₁.bodies.toList _ _
    rw [bodies]
    exact ⟨Bytes.aligned 4 d.bodies.toList, [], (List.append_nil _).symm, rfl⟩
  · refine List.pairwise_append.2 ⟨h.apart, List.pairwise_singleton .., fun p mem q own => ?_⟩
    rw [List.mem_singleton.1 own]
    dsimp only
    rw [Bytes.length_aligned]
    exact (last p mem).trans (Nat.le_add_right _ _)

/-- A method is housed once its row stands behind its body. -/
theorem Houses.addRow (h : d.Houses methods placed) {m : SyntheticMethod}
    {fault : Malformation → Malformation} {address : Nat}
    (hbody : d.addBody m.body m.localSignature fault = .ok (address, d₁)) {attributes : UInt16}
    {name : String} {signature : Bytes} {paramNames : List String}
    (hrow : d₁.addMethodRow address attributes name signature paramNames = .ok d') :
    ∃ p, d'.Houses (methods ++ [m]) (placed ++ [p]) := by
  obtain ⟨p, houses⟩ := h.addBody hbody [.dword (UInt32.ofNat address), .word 0,
    .word attributes, .name name, .blob signature, .row .param (d₁.next .param)] rfl
  exact ⟨p, houses.congr (keepsBodies_foldlM .param (by decide)
    (fun _ _ _ h => ⟨_, addParam_eq_ok h⟩) hrow)⟩

/-- **A method of a container is housed**, whatever parameters and tags it has. -/
theorem Houses.addMethod (h : d.Houses methods placed) {constructor : Token} {container : String}
    {m : SyntheticMethod} (step : d.addMethod constructor container m = .ok d') :
    ∃ p, d'.Houses (methods ++ [m]) (placed ++ [p]) := by
  obtain ⟨⟨address, d₁⟩, hbody, step⟩ := bind_eq_ok.1 step
  obtain ⟨signature, -, step⟩ := bind_eq_ok.1 step
  obtain ⟨d₂, hrow, step⟩ := bind_eq_ok.1 step
  obtain ⟨p, houses⟩ := h.addRow hbody hrow
  exact ⟨p, houses.congr (keepsBodies_foldlM .customAttribute (by decide)
    (fun _ _ _ h => (addTag_eq_ok h).imp fun _ => And.right) step)⟩

/-- The constructor of the attribute is housed as a method without tags. -/
theorem Houses.addAttribute (h : d.Houses methods placed) {a : AttributeType}
    (step : d.addAttribute a = .ok d') :
    ∃ p, d'.Houses (methods ++ [a.constructorMethod]) (placed ++ [p]) := by
  obtain ⟨base, -, step⟩ := bind_eq_ok.1 step
  obtain ⟨⟨address, d₁⟩, hbody, step⟩ := bind_eq_ok.1 step
  obtain ⟨signature, -, step⟩ := bind_eq_ok.1 step
  exact (h.congr (keepsBodies_addType ..)).addRow (m := a.constructorMethod) hbody step

/-- The methods of a container are housed in their order. -/
theorem Houses.addContainer (h : d.Houses methods placed) {constructor : Token}
    {entry : Container × ContainerId} (step : d.addContainer constructor entry = .ok d') :
    ∃ placed', d'.Houses (methods ++ entry.1.methods) placed' := by
  obtain ⟨c, id⟩ := entry
  have type := keepsBodies_addType d c.attributes c.name c.nspace (.coded .typeDefOrRef 0)
  obtain ⟨d₁, keeps, run⟩ : ∃ d₁, KeepsBodies d d₁ ∧
      c.methods.foldlM (Draft.addMethod constructor c.name) d₁ = .ok d' := by
    refine ⟨_, ?_, step⟩
    cases c.parent with
    | none => exact type
    | some parent => exact type.trans (keepsBodies_push _ (by decide) _)
  refine foldlM_carries (P := fun done d' => ∃ placed', d'.Houses (methods ++ done) placed')
    (fun done m s s' ⟨before, houses⟩ step => ?_)
    ⟨placed, by rw [List.append_nil]; exact h.congr keeps⟩ run
  obtain ⟨p, houses⟩ := houses.addMethod step
  exact ⟨before ++ [p], by rw [← List.append_assoc]; exact houses⟩

/-- The methods of all containers are housed in their order. -/
theorem Houses.addContainers (h : d.Houses methods placed) {constructor : Token}
    {entries : List (Container × ContainerId)}
    (run : entries.foldlM (Draft.addContainer constructor) d = .ok d') :
    ∃ placed', d'.Houses (methods ++ entries.flatMap (·.1.methods)) placed' := by
  refine foldlM_carries
    (P := fun done d' => ∃ placed', d'.Houses (methods ++ done.flatMap (·.1.methods)) placed')
    (fun done entry s s' ⟨before, houses⟩ step => ?_)
    ⟨placed, by rwa [List.flatMap_nil, List.append_nil]⟩ run
  rw [List.flatMap_append, List.flatMap_singleton, ← List.append_assoc]
  exact houses.addContainer step

/-- **A drafted image houses the bodies of all its methods.** -/
theorem exists_houses_ofImage {image : Image} (h : ofImage image = .ok d) :
    ∃ placed, d.Houses image.rowMethods placed := by
  obtain ⟨d₁, h₁, h⟩ := bind_eq_ok.1 h
  obtain ⟨d₂, h₂, h⟩ := bind_eq_ok.1 h
  obtain ⟨d₃, h₃, h⟩ := bind_eq_ok.1 h
  obtain ⟨d₄, h₄, h⟩ := bind_eq_ok.1 h
  have module : KeepsBodies {} (({} : Draft).addModule image.name) :=
    keepsBodies_push _ (by decide) _
  have types := keepsBodies_foldlM .typeRef (by decide)
    (fun _ _ _ h => (addTypeRef_eq_ok h).imp fun _ => And.right) h₁
  have first := houses_empty.congr ((module.trans types).trans
    (keepsBodies_addType d₁ 0 "<Module>" "" (.coded .typeDefOrRef 0)))
  obtain ⟨p, provenance⟩ := first.addAttribute h₂
  obtain ⟨placed, houses⟩ := provenance.addContainers h₃
  have members := keepsBodies_foldlM .memberRef (by decide)
    (fun _ _ _ h => (addMemberRef_eq_ok h).imp fun _ => And.right) h₄
  have signatures := keepsBodies_foldl (f := fun d s => d.push .standAloneSig [.blob s])
    .standAloneSig (by decide) _ (fun _ _ => rfl) image.symbols.signatures.rows d₄
  have specs := keepsBodies_foldl (f := fun d s => d.push .typeSpec [.blob s])
    .typeSpec (by decide) _ (fun _ _ => rfl) image.symbols.specs.rows
  have assembly (d : Draft) : KeepsBodies d (d.addAssembly image.name) :=
    keepsBodies_push d (by decide) _
  have assemblies := keepsBodies_foldl (f := addAssemblyRef) .assemblyRef (by decide)
    ModuleInfo.columns (fun _ _ => rfl) image.symbols.assemblies.rows
  have instantiations := keepsBodies_foldlM .methodSpec (by decide)
    (fun _ _ _ h => (addMethodSpec_eq_ok h).imp fun _ => And.right) h
  have all : [image.provenance.constructorMethod] ++
      image.containers.zipIdx.flatMap (·.1.methods) = image.rowMethods := by
    rw [Image.rowMethods, Image.map_snd_methods, ← List.zipIdx_map_fst 0 image.containers,
      List.flatMap_map, List.zipIdx_map_fst]
    rfl
  rw [List.nil_append, all] at houses
  exact ⟨placed, houses.congr (((((members.trans signatures).trans (specs _)).trans
    (assembly _)).trans (assemblies _)).trans instantiations)⟩

end Draft

/-! ### The file -/

/-- Whether a body lies in a file where its address leads, at a multiple of four, behind the header
of the runtime and in front of the metadata. -/
structure PlacedBody.LiesIn (p : PlacedBody) (file : Bytes) (headers : FileHeaders)
    (runtime root : Nat) : Prop where
  found : headers.offsetOf file.toArray p.address.toNat = .ok p.offset
  aligned : p.offset % 4 = 0
  lies : LiesAt file p.offset p.body.bytes
  behindHeader : runtime + File.runtimeHeaderSize ≤ p.offset
  beforeMetadata : p.stop ≤ root

namespace File

variable {d : Draft} {root identity file : Bytes} {methods : List SyntheticMethod}
  {placed : List PlacedBody}

/-- **Where a file is laid out, the address of a body leads to it.** -/
theorem LaidOut.liesIn (h : LaidOut d root identity file) (filled : 0 < root.length)
    (houses : d.Houses methods placed) {p : PlacedBody} (mem : p ∈ placed) :
    (p.inFile (fileAlignment + runtimeHeaderSize)).LiesIn file writtenHeaders fileAlignment
      (fileAlignment + metadataOffset d) := by
  have address : p.address.toNat = sectionAddress + runtimeHeaderSize + p.offset :=
    houses.addresses p mem
  have multiple := houses.aligned p mem
  have inside : p.offset + p.body.bytes.length ≤ (Bytes.aligned 4 d.bodies.toList).length := by
    obtain ⟨front, back, parts, length⟩ := houses.lies p mem
    rw [Bytes.aligned, parts, ← length]
    simp only [List.length_append]
    omega
  have start : metadataOffset d = runtimeHeaderSize + (Bytes.aligned 4 d.bodies.toList).length :=
    rfl
  have found := h.offsetOf p.address.toNat (by omega) (by omega)
  constructor
  · refine found.trans (congrArg Except.ok ?_)
    show _ = fileAlignment + runtimeHeaderSize + p.offset
    omega
  · show (0x200 + 72 + p.offset) % 4 = 0
    omega
  · exact h.bodies.left.within (houses.lies p mem)
  · exact Nat.le_add_right _ _
  · show fileAlignment + runtimeHeaderSize + p.offset + p.body.bytes.length ≤ _
    omega

end File

/-- The first column of a row stays what it is when it is a number of four bytes. -/
theorem Tables.ShowsRow.head?_cut {t : Tables} {s : TableSizes} {cells : List Cell}
    {columns : List Column} (h : t.ShowsRow cells columns) {v : UInt32}
    (head : cells.head? = some (.dword v)) :
    (columns.map (·.cut s)).head? = some (.dword v) := by
  cases h with
  | nil => cases head
  | cons shows _ =>
    obtain rfl := Option.some.inj head
    cases shows
    exact congrArg some (Column.cut_eq_iff.2 v.toNat_lt)

/-- So it does in every row of a table. -/
theorem Tables.map_head?_cut {t : Tables} {s : TableSizes} {cells : List (List Cell)}
    {rows : List (List Column)} (h : List.Forall₂ t.ShowsRow cells rows) (vs : List UInt32)
    (heads : cells.map List.head? = vs.map fun v => some (.dword v)) :
    (rows.map (·.map (·.cut s))).map List.head? = vs.map fun v => some (.dword v) := by
  induction h generalizing vs with
  | nil =>
    obtain rfl := List.map_eq_nil_iff.1 heads.symm
    rfl
  | cons shows _ ih =>
    cases vs with
    | nil => cases heads
    | cons v vs =>
      obtain ⟨head, heads⟩ := List.cons.inj heads
      rw [List.map_cons, List.map_cons, List.map_cons, shows.head?_cut head, ih vs heads]

/-- The row of a method names it where the heap of names lies in the file. -/
theorem SyntheticMethod.isNamedBy_cut {m : SyntheticMethod} {t : Tables} {columns : List Column}
    (shown : t.Shown m.WrittenAs columns) {file : Bytes} {names : Nat}
    (here : LiesAt file names t.names.data.toList) (small : t.names.data.size < 0x100000000) :
    m.IsNamedBy file names (columns.map (·.cut (TableSizes.ofTables t))) := by
  obtain ⟨cells, ⟨address, signature, start, -, rfl⟩, shows⟩ := shown
  obtain ⟨column, found, settled⟩ := exists_getElem?_of_forall₂ (R := t.Shows) (i := 3) shows rfl
  cases settled with
  | name lies =>
    refine ⟨_, ?_, here.within lies⟩
    rw [List.getElem?_map, found, Option.map_some]
    exact congrArg some (Column.cut_eq_iff.2
      (offset_fits lies (NameHeap.entry_ne_nil _) Array.length_toList small rfl))

namespace Image

open File

/-- **Every row of a method points at its own body.**  In a written file the first columns of the
rows of methods are the addresses of the bodies that were written for the methods, one for each and
in their order, which is also that of the names in the rows.  By the headers of the sections each
address leads to a multiple of four at which the file has exactly the bytes of the body.  The bodies
lie behind the header of the runtime and in front of the metadata, and each ends before the next one
begins. -/
theorem write_bodies {image : Image} {bytes : Bytes} (made : image.Made)
    (h : image.write = .ok bytes) :
    ∃ (headers : FileHeaders) (info : MetadataInfo) (runtime address root : Nat)
      (stream names : StreamHeader) (tables : List (TableId × List (List Column)))
      (rows : List (List Column)) (placed : List PlacedBody) (literals : LiteralHeap),
      FileHeaders.read bytes.toArray = .ok headers ∧
      headers.offsetOf bytes.toArray headers.runtimeAddress = .ok runtime ∧
      Reader.number bytes.toArray (runtime + 8) 4 = .ok address ∧
      headers.offsetOf bytes.toArray address = .ok root ∧
      MetadataInfo.read bytes.toArray = .ok info ∧
      stream ∈ info.streams ∧ stream.name = "#~" ∧ names ∈ info.streams ∧
      names.name = "#Strings" ∧
      Reader.tableStream bytes.toArray (root + stream.offset) = .ok tables ∧
      (TableId.methodDef, rows) ∈ tables ∧
      List.Forall₂ (·.IsNamedBy bytes (root + names.offset)) image.rowMethods rows ∧
      (SyntheticMethod.encodeBodies image.rowMethods).run.run {} =
        (.ok (placed.map (·.body)), literals) ∧
      rows.map List.head? = placed.map (fun p => some (.dword p.address)) ∧
      (∀ p ∈ placed, p.LiesIn bytes headers runtime root) ∧
      placed.Pairwise fun p q => p.stop ≤ q.offset := by
  obtain ⟨d, s, root, hd, rfl, hroot, -, laidOut, read⟩ := exists_read_of_write made h
  obtain ⟨headers, hheaders, parts⟩ := exists_of_metadataRoot hroot
  obtain ⟨placed, houses⟩ := Draft.exists_houses_ofImage hd
  have filled : 0 < root.length := by
    simp [parts]
  have runtime := laidOut.offsetOf sectionAddress (Nat.le_refl _) (by omega)
  have found := laidOut.offsetOf (sectionAddress + metadataOffset d) (Nat.le_add_right _ _)
    (by omega)
  -- The rows of methods are read from the stream of tables, their names from that of names.
  have lie := Reader.liesAt_headersOf (laidOut.metadata.next rfl)
  simp only [streams, Reader.headersOf, List.forall₂_cons] at lie
  obtain ⟨stream, names, -⟩ := lie
  have sizes := length_lt_of_streamHeaders hheaders
  simp only [streams, List.forall_mem_cons, Bytes.length_aligned, Array.length_toList] at sizes
  obtain ⟨small, few, -⟩ := sizes
  have hold := Tables.hold_ofDraft (Draft.adds_ofImage hd)
  have contents := Draft.contents_ofImage hd
  have tables := hold.tableStream_eq (count_tables made .userString)
    (Tables.conforms_ofDraft contents) small stream
  have named := (Tables.shown_of_forall₂ contents.defines.methods).imp fun m columns shown =>
    SyntheticMethod.isNamedBy_cut shown names.left ((Nat.le_add_right _ _).trans_lt few)
  rw [allMethods_defined] at named
  have some : image.tables.count .methodDef ≠ 0 := by
    rw [count_tables made]
    exact Nat.succ_ne_zero _
  have present : (TableId.methodDef, image.tables.count .methodDef) ∈
      (TableSizes.ofTables (Tables.ofDraft d)).rows :=
    hold.rows_ofTables ▸ TableId.mem_present.2 ⟨rfl, some⟩
  have heads := Tables.map_head?_cut (s := TableSizes.ofTables (Tables.ofDraft d))
    (Tables.showsRows_ofDraft d .methodDef) (placed.map (·.address))
    (by rw [houses.rows, List.map_map]; rfl)
  refine ⟨writtenHeaders, _, fileAlignment, sectionAddress + metadataOffset d,
    fileAlignment + metadataOffset d, _, _, _, _,
    placed.map (·.inFile (fileAlignment + runtimeHeaderSize)), d.literals, laidOut.headers, runtime,
    laidOut.metadataAddress, ?_, read, List.mem_cons_self .., rfl,
    List.mem_cons_of_mem _ (List.mem_cons_self ..), rfl, tables,
    List.mem_map_of_mem (List.mem_map_of_mem present), List.forall₂_map_right_iff.2 named, ?_, ?_,
    ?_, ?_⟩
  · rw [found, Nat.add_sub_cancel_left, Nat.add_comm]
  · rw [List.map_map]
    exact houses.written
  · rw [heads, List.map_map, List.map_map]
    rfl
  · exact List.forall_mem_map.2 fun p mem => laidOut.liesIn filled houses mem
  · refine List.pairwise_map.2 (houses.apart.imp fun {p q} before => ?_)
    show _ + p.offset + _ ≤ _ + q.offset
    rw [Nat.add_assoc]
    exact Nat.add_le_add_left before _

/-- The hypotheses are satisfiable: an image with one method has two bodies, that of the constructor
of the attribute and its own. -/
theorem write_bodies_sampled : ∃ bytes headers runtime root, ∃ placed : List PlacedBody,
    sampled.write = .ok bytes ∧ FileHeaders.read bytes.toArray = .ok headers ∧
      headers.offsetOf bytes.toArray headers.runtimeAddress = .ok runtime ∧ placed.length = 2 ∧
      (∀ p ∈ placed, p.LiesIn bytes headers runtime root) ∧
      placed.Pairwise fun p q => p.stop ≤ q.offset := by
  obtain ⟨bytes, written⟩ := exists_write_sampled
  obtain ⟨headers, info, runtime, address, root, stream, names, tables, rows, placed, literals,
    read, found, -, -, -, -, -, -, -, -, -, named, -, heads, lie, apart⟩ :=
    write_bodies ⟨_, _, _, rfl⟩ written
  have same := congrArg List.length heads
  rw [List.length_map, List.length_map, ← named.length_eq] at same
  exact ⟨bytes, headers, runtime, root, placed, written, read, found, same.symm, lie, apart⟩

end Image
end HookImage
