/-
# The layout of a file

The reader finds the metadata through four addresses: the stub points to the headers, the headers
to the header of the runtime, that to the metadata, and the header of the section tells where in
the file an address lies.  The headers have a fixed size whatever they hold, so each field has a
fixed place (`File.liesAt_runtimeAddress`, `Reader.offsetOf_eq`), and a file whose parts lie as
the writer puts them (`File.LaidOut`) is read from its metadata on (`File.LaidOut.read_eq_ok`).
-/

import HookImage.Proofs.Image.FileHeaders
import HookImage.Proofs.Image.Parts
import HookImage.Proofs.Image.Written

namespace HookImage

/-! ### Fields of the headers -/

namespace File

open Bytes (LiesAt)

/-- The stub takes 128 bytes. -/
@[simp] theorem length_dosHeader : dosHeader.length = 0x80 := by
  decide +kernel

/-- The mark and the header of the file take 24 bytes. -/
@[simp] theorem length_coffHeader : coffHeader.length = 24 := by
  decide

/-- The sixteen directories take 128 bytes. -/
@[simp] theorem length_directories : directories.length = 128 := by
  decide +kernel

/-- The header of the image takes 224 bytes. -/
@[simp] theorem length_imageHeader (raw mapped : Nat) : (imageHeader raw mapped).length = 0xE0 := by
  simp [imageHeader]

/-- The header of the section takes 40 bytes. -/
@[simp] theorem length_sectionHeader (size raw : Nat) : (sectionHeader size raw).length = 40 := by
  simp [sectionHeader]
  rfl

/-- The headers behind the stub take 288 bytes. -/
@[simp] theorem length_peHeaders (size mapped : Nat) : (peHeaders size mapped).length = 288 := by
  simp [peHeaders]

/-- The header of the runtime takes the bytes that it says. -/
@[simp] theorem length_runtimeHeader (address size : Nat) :
    (runtimeHeader address size).length = runtimeHeaderSize := by
  simp [runtimeHeader, runtimeHeaderSize]

/-- The header of the image begins with the mark of one of 32 bits. -/
theorem liesAt_magic (raw mapped : Nat) :
    LiesAt (imageHeader raw mapped) 0 (Bytes.littleEndian 2 0x010B) := by
  unfold imageHeader
  simp only [List.append_assoc]
  exact (LiesAt.whole _).left

/-- The directory of the runtime holds the address of the section. -/
theorem liesAt_runtimeAddress (raw mapped : Nat) :
    LiesAt (imageHeader raw mapped) (96 + runtimeDirectory * 8)
      (Bytes.littleEndian 4 sectionAddress) := by
  obtain ⟨fields, parts⟩ : ∃ fields, imageHeader raw mapped = fields ++ directories := ⟨_, rfl⟩
  have length := congrArg List.length parts
  simp only [length_imageHeader, List.length_append, length_directories] at length
  have entry : LiesAt directories (runtimeDirectory * 8) (Bytes.littleEndian 4 sectionAddress) := by
    decide +kernel
  rw [parts]
  exact ((LiesAt.whole _).next (n := 96) (by omega)).within entry

/-- The fields of the header of the section that the reader goes by. -/
theorem liesAt_sectionFields (size raw : Nat) :
    LiesAt (sectionHeader size raw) 8 (Bytes.littleEndian 4 size) ∧
      LiesAt (sectionHeader size raw) 12 (Bytes.littleEndian 4 sectionAddress) ∧
      LiesAt (sectionHeader size raw) 20 (Bytes.littleEndian 4 fileAlignment) := by
  obtain ⟨name, back, length, parts⟩ : ∃ name back, name.length = 8 ∧
      sectionHeader size raw = name ++ Bytes.littleEndian 4 size ++
        Bytes.littleEndian 4 sectionAddress ++ Bytes.littleEndian 4 raw ++
        Bytes.littleEndian 4 fileAlignment ++ List.replicate 12 0 ++ back :=
    ⟨Bytes.utf8 ".text" ++ [0, 0, 0], Bytes.littleEndian 4 0x60000020, rfl, rfl⟩
  have dword (n : Nat) : (Bytes.littleEndian 4 n).length = 4 := by simp
  have whole := LiesAt.whole (sectionHeader size raw)
  rw [parts] at whole ⊢
  simp only [List.append_assoc] at whole ⊢
  have sizes := whole.next length
  have address := sizes.next (dword size)
  have pointer := (address.next (dword _)).next (dword raw)
  exact ⟨sizes.left, address.left, pointer.left⟩

/-! ### The parts of a written file -/

/-- Where the metadata of a draft begins in the section. -/
def metadataOffset (d : Draft) : Nat :=
  runtimeHeaderSize + (Bytes.aligned 4 d.bodies.toList).length

/-- The metadata of a draft with a given identity, behind the headers of its streams. -/
def metadataOf (d : Draft) (root identity : Bytes) : Bytes :=
  root ++ ((streams (Tables.ofDraft d) d.literals identity).map (·.bytes)).flatten

/-- Where the identity of the module begins behind the headers of the streams. -/
def identityOffset (d : Draft) : Nat :=
  (((streams (Tables.ofDraft d) d.literals []).map (·.bytes)).take 3).flatten.length

/-- The headers of the streams do not depend on what the identity is. -/
theorem metadataRoot_congr (t : Tables) (literals : LiteralHeap) {identity other : Bytes}
    (length : identity.length = other.length) :
    metadataRoot (streams t literals identity) = metadataRoot (streams t literals other) := by
  simp only [metadataRoot, streams, streamHeaders, streamHeadersSize, length, List.foldr_cons,
    List.foldr_nil, List.length_cons, List.length_nil]

/-- The parts of a written file, whatever identity it is given. -/
theorem exists_of_split {d : Draft} {s : Split} (h : split d = .ok s) :
    ∃ root size mapped metadataSize tail,
      metadataRoot (streams (Tables.ofDraft d) d.literals (List.replicate 16 0)) = .ok root ∧
      sectionAddress + size < 0x100000000 ∧ metadataOffset d + root.length ≤ size ∧
      s.front.length = fileAlignment + metadataOffset d + (root.length + identityOffset d) ∧
      ∀ identity, s.withIdentity identity = dosHeader ++ (peHeaders size mapped ++
        (List.replicate 96 0 ++ (runtimeHeader (sectionAddress + metadataOffset d) metadataSize ++
        (Bytes.aligned 4 d.bodies.toList ++ (metadataOf d root identity ++ tail))))) := by
  obtain ⟨root, hroot, h⟩ := bind_eq_ok.1 h
  obtain ⟨offset, hoffset, h⟩ := bind_eq_ok.1 h
  obtain ⟨address, haddress, h⟩ := bind_eq_ok.1 h
  obtain ⟨metadataSize, hmetadata, h⟩ := bind_eq_ok.1 h
  obtain ⟨size, hsize, h⟩ := bind_eq_ok.1 h
  obtain ⟨mapped, hmapped, h⟩ := bind_eq_ok.1 h
  obtain ⟨-, rfl⟩ := checkedSize_eq_ok.1 (liftM_eq_ok.1 hoffset)
  obtain ⟨-, rfl⟩ := checkedAddress_eq_ok.1 haddress
  obtain ⟨-, metadata⟩ := checkedSize_eq_ok.1 (liftM_eq_ok.1 hmetadata)
  obtain ⟨-, whole⟩ := checkedSize_eq_ok.1 (liftM_eq_ok.1 hsize)
  obtain ⟨rounded, -⟩ := checkedAddress_eq_ok.1 hmapped
  have fits : sectionAddress + size < 0x100000000 :=
    Nat.lt_of_le_of_lt (Nat.le_add_right _ _) rounded
  have inside : metadataOffset d + root.length ≤ size := by
    rw [← whole, ← metadata]
    exact Nat.add_le_add_left (Nat.le_add_right _ _) _
  have gap : fileAlignment - (dosHeader ++ peHeaders size mapped).length = 96 := by
    rw [List.length_append, length_dosHeader, length_peHeaders]
    rfl
  cases h
  refine ⟨root, size, mapped, metadataSize, List.replicate (Bytes.padding fileAlignment
    (fileAlignment + size)) 0, liftM_eq_ok.1 hroot, fits, inside, ?_, fun identity => ?_⟩
  · -- Three streams come before the identity, whatever it is.
    simp only [List.length_append, length_dosHeader, length_peHeaders, List.length_replicate,
      length_runtimeHeader, metadataOffset, identityOffset, fileAlignment, streams, List.map_cons,
      List.take]
    omega
  simp only [Split.withIdentity, metadataOf, metadataOffset, streams, gap, List.map_cons,
    List.map_nil, List.take, List.drop, List.flatten_cons, List.flatten_nil, List.append_assoc,
    List.nil_append]

end File

/-! ### Addresses -/

open Bytes (LiesAt)
open File

/-- The header of a written section is read. -/
theorem SectionHeader.read_sectionHeader {data : Array UInt8} {header size raw : Nat}
    (here : LiesAt data.toList header (sectionHeader size raw)) (small : size < 0x100000000) :
    read data header = .ok ⟨size, sectionAddress, fileAlignment⟩ := by
  obtain ⟨sizes, address, pointer⟩ := liesAt_sectionFields size raw
  exact bind_eq_ok.2 ⟨size, (here.within sizes).number small, bind_eq_ok.2 ⟨sectionAddress,
    (here.within address).number (by decide), bind_eq_ok.2 ⟨fileAlignment,
    (here.within pointer).number (by decide), rfl⟩⟩⟩

/-- **An address within the section is found in the file**, as far behind the beginning of the
section as in memory. -/
theorem Reader.offsetOf_eq {data : Array UInt8} {header size raw rva : Nat}
    (here : LiesAt data.toList header (sectionHeader size raw)) (low : sectionAddress ≤ rva)
    (high : rva < sectionAddress + size) (fits : sectionAddress + size < 0x100000000) :
    offsetOf data rva header 1 = .ok (rva - sectionAddress + fileAlignment) := by
  have inside : rva - sectionAddress + fileAlignment < 0x100000000 := by
    unfold sectionAddress fileAlignment at *
    omega
  have read := SectionHeader.read_sectionHeader here (by omega)
  exact (offsetOf_eq_ok (by omega)).2 ⟨_, finds_first read ⟨low, high⟩, ⟨fits, inside⟩, rfl⟩

namespace File

/-! ### A file that is laid out -/

/-- The headers that a reader finds in a written file. -/
def writtenHeaders : FileHeaders where
  sections := 0x80 + 24 + 0xE0
  sectionCount := 1
  runtimeAddress := sectionAddress

/-- The header of the section is behind the header of the image. -/
theorem liesAt_section {file : Bytes} {size mapped : Nat}
    (headers : LiesAt file 0x80 (peHeaders size mapped)) :
    LiesAt file writtenHeaders.sections (sectionHeader size (Bytes.roundUp fileAlignment size)) :=
  headers.next (n := 24 + 0xE0) (by
    rw [List.length_append, length_coffHeader, length_imageHeader])

/-- **The headers of a written file are read**, whatever sizes they tell. -/
theorem read_writtenHeaders {data : Array UInt8} {size mapped : Nat}
    (stub : LiesAt data.toList 0 dosHeader)
    (headers : LiesAt data.toList 0x80 (peHeaders size mapped)) :
    FileHeaders.read data = .ok writtenHeaders := by
  unfold peHeaders at headers
  rw [List.append_assoc] at headers
  have coff := headers.left
  have image := headers.next length_coffHeader
  have mark : LiesAt dosHeader 0 [0x4D, 0x5A] := by decide +kernel
  have pointer : LiesAt dosHeader 0x3C (Bytes.littleEndian 4 0x80) := by decide +kernel
  have peMark : LiesAt coffHeader 0 [0x50, 0x45, 0, 0] := by decide
  have sectionCount : LiesAt coffHeader 6 (Bytes.littleEndian 2 1) := by decide
  have optionalSize : LiesAt coffHeader 20 (Bytes.littleEndian 2 0xE0) := by decide
  exact bind_eq_ok.2 ⟨_, (stub.within mark).bytes, bind_eq_ok.2 ⟨(), rfl,
    bind_eq_ok.2 ⟨_, (stub.within pointer).number (by decide),
    bind_eq_ok.2 ⟨_, (coff.within peMark).bytes, bind_eq_ok.2 ⟨(), rfl,
    bind_eq_ok.2 ⟨_, (coff.within sectionCount).number (by decide),
    bind_eq_ok.2 ⟨_, (coff.within optionalSize).number (by decide),
    bind_eq_ok.2 ⟨_, (image.left.within (liesAt_magic _ _)).number (by decide),
    bind_eq_ok.2 ⟨(), rfl,
    bind_eq_ok.2 ⟨_, (image.left.within (liesAt_runtimeAddress _ _)).number (by decide),
    bind_eq_ok.2 ⟨(), rfl, rfl⟩⟩⟩⟩⟩⟩⟩⟩⟩⟩⟩

/-- The fields of the header of the runtime that the reader goes by. -/
theorem liesAt_runtimeFields (address size : Nat) :
    LiesAt (runtimeHeader address size) 8 (Bytes.littleEndian 4 address) ∧
      LiesAt (runtimeHeader address size) 16 (Bytes.littleEndian 4 1) := by
  obtain ⟨front, back, length, parts⟩ : ∃ front back, front.length = 8 ∧
      runtimeHeader address size = front ++ Bytes.littleEndian 4 address ++
        Bytes.littleEndian 4 size ++ Bytes.littleEndian 4 1 ++ back :=
    ⟨Bytes.littleEndian 4 runtimeHeaderSize ++ [2, 0, 5, 0], _, rfl, rfl⟩
  have dword (n : Nat) : (Bytes.littleEndian 4 n).length = 4 := Bytes.length_littleEndian _ _
  have whole := LiesAt.whole (runtimeHeader address size)
  rw [parts] at whole ⊢
  simp only [List.append_assoc] at whole ⊢
  have addresses := whole.next length
  exact ⟨addresses.left, ((addresses.next (dword _)).next (dword size)).left⟩

/-- Whether the parts of a file lie where the writer puts those of a draft, with metadata behind
a given root. -/
structure LaidOut (d : Draft) (root identity file : Bytes) : Prop where
  headers : FileHeaders.read file.toArray = .ok writtenHeaders
  offsetOf : ∀ rva, sectionAddress ≤ rva →
    rva < sectionAddress + (metadataOffset d + root.length) →
    writtenHeaders.offsetOf file.toArray rva = .ok (rva - sectionAddress + fileAlignment)
  metadataAddress :
    Reader.number file.toArray (fileAlignment + 8) 4 = .ok (sectionAddress + metadataOffset d)
  flags : Reader.number file.toArray (fileAlignment + 16) 4 = .ok 1
  bodies : LiesAt file (fileAlignment + runtimeHeaderSize) (Bytes.aligned 4 d.bodies.toList)
  metadata : LiesAt file (fileAlignment + metadataOffset d) (metadataOf d root identity)

/-- **A written file is laid out**, whatever identity it is given. -/
theorem exists_laidOut_of_split {d : Draft} {s : Split} (h : split d = .ok s) :
    ∃ root, metadataRoot (streams (Tables.ofDraft d) d.literals (List.replicate 16 0)) = .ok root ∧
      s.front.length = fileAlignment + metadataOffset d + (root.length + identityOffset d) ∧
      ∀ identity, LaidOut d root identity (s.withIdentity identity) := by
  obtain ⟨root, size, mapped, metadataSize, tail, hroot, fits, inside, front, parts⟩ :=
    exists_of_split h
  refine ⟨root, hroot, front, fun identity => ?_⟩
  have stub := LiesAt.whole (s.withIdentity identity)
  nth_rewrite 2 [parts] at stub
  have headers := stub.next length_dosHeader
  have zeros := headers.next (length_peHeaders _ _)
  have runtime := zeros.next List.length_replicate
  have bodies := runtime.next (length_runtimeHeader _ _)
  have sections := liesAt_section headers.left
  obtain ⟨addresses, flags⟩ :=
    liesAt_runtimeFields (sectionAddress + metadataOffset d) metadataSize
  constructor
  · exact read_writtenHeaders stub.left headers.left
  · intro rva low high
    exact Reader.offsetOf_eq sections low (by omega) fits
  · refine (runtime.left.within addresses).number ?_
    show _ < 0x100000000
    omega
  · exact (runtime.left.within flags).number (by decide)
  · exact bodies.left
  · exact Nat.add_assoc _ _ _ ▸ (bodies.next rfl).left

/-- **A file that is laid out is read from its metadata on.** -/
theorem LaidOut.read_eq_ok {d : Draft} {root identity file : Bytes}
    (h : LaidOut d root identity file) (filled : 0 < root.length) {info : MetadataInfo}
    (read : Reader.metadata file.toArray (fileAlignment + metadataOffset d) 1 = .ok info) :
    MetadataInfo.read file.toArray = .ok info := by
  have runtime := h.offsetOf sectionAddress (Nat.le_refl _) (by omega)
  rw [Nat.sub_self, Nat.zero_add] at runtime
  have found : writtenHeaders.offsetOf file.toArray (sectionAddress + metadataOffset d) =
      .ok (fileAlignment + metadataOffset d) := by
    rw [h.offsetOf _ (Nat.le_add_right _ _) (by omega), Nat.add_sub_cancel_left, Nat.add_comm]
  rw [MetadataInfo.read_eq]
  exact bind_eq_ok.2 ⟨_, h.headers, bind_eq_ok.2 ⟨_, runtime,
    bind_eq_ok.2 ⟨_, h.metadataAddress, bind_eq_ok.2 ⟨_, h.flags,
    bind_eq_ok.2 ⟨_, found, read⟩⟩⟩⟩⟩

end File
end HookImage
