/-
# The headers that lead to the metadata

The reader of a file goes by its headers: they tell where the headers of the sections are, how many
there are, and at which address the header of the runtime lies (`FileHeaders.read`).  From then on
every address is turned into an offset by the sections.  Two addresses are: that of the header of
the runtime, and that of the metadata, which stands in it (`MetadataInfo.read_eq`).

| what | where it is found |
| --- | --- |
| headers of the file | the stub points to them |
| headers of the sections | behind the header of the image |
| header of the runtime | address in the header of the image |
| metadata | address in the header of the runtime |

An address belongs to the first section that covers it (`Reader.Finds`), and its offset is a
number of 32 bits, as the end of the section has to be (`Reader.offsetOf_eq_ok`).
-/

import HookImage.Image.Reader
import HookImage.Proofs.Success

namespace HookImage

/-! ### Sections -/

/-- The header of a section. -/
structure SectionHeader where
  size : Nat
  /-- Where the section begins in memory. -/
  address : Nat
  /-- Where the section begins in the file. -/
  raw : Nat
deriving DecidableEq

namespace SectionHeader

/-- The header of a section at an offset. -/
def read (data : Array UInt8) (header : Nat) : Except Error SectionHeader := do
  let size ← Reader.number data (header + 8) 4
  let address ← Reader.number data (header + 12) 4
  let raw ← Reader.number data (header + 20) 4
  return ⟨size, address, raw⟩

/-- Whether an address lies in a section. -/
def Covers (s : SectionHeader) (rva : Nat) : Prop :=
  s.address ≤ rva ∧ rva < s.address + s.size

instance (s : SectionHeader) (rva : Nat) : Decidable (s.Covers rva) :=
  inferInstanceAs (Decidable (_ ∧ _))

/-- Where an address of a section lies in the file. -/
def offsetOf (s : SectionHeader) (rva : Nat) : Nat := rva - s.address + s.raw

/-- Whether the end of a section and the offset of an address are numbers of 32 bits. -/
def Fits (s : SectionHeader) (rva : Nat) : Prop :=
  s.address + s.size < 0x100000000 ∧ s.offsetOf rva < 0x100000000

instance (s : SectionHeader) (rva : Nat) : Decidable (s.Fits rva) :=
  inferInstanceAs (Decidable (_ ∧ _))

end SectionHeader

namespace Reader

variable {data : Array UInt8} {rva header count : Nat}

/-- Whether a section is the one of an address: the first that covers it among `count` sections,
where the headers before it can be read as well. -/
def Finds (data : Array UInt8) (rva header count : Nat) (s : SectionHeader) : Prop :=
  ∃ i < count, SectionHeader.read data (header + 40 * i) = .ok s ∧ s.Covers rva ∧
    ∀ j < i, ∃ t, SectionHeader.read data (header + 40 * j) = .ok t ∧ ¬ t.Covers rva

/-- Among no sections none is found. -/
theorem not_finds_zero (s : SectionHeader) : ¬ Finds data rva header 0 s :=
  fun ⟨i, inside, _⟩ => Nat.not_lt_zero i inside

/-- The section of an address is the first one or, if that does not cover it, one behind it. -/
theorem finds_succ {s : SectionHeader} : Finds data rva header (count + 1) s ↔
    ∃ t, SectionHeader.read data header = .ok t ∧
      if t.Covers rva then t = s else Finds data rva (header + 40) count s := by
  have behind (i : Nat) : header + 40 * (i + 1) = header + 40 + 40 * i := by omega
  constructor
  · rintro ⟨_ | i, inside, read, covers, before⟩
    · exact ⟨s, read, by rw [if_pos covers]⟩
    · obtain ⟨t, first, passed⟩ := before 0 i.succ_pos
      refine ⟨t, first, ?_⟩
      rw [if_neg passed]
      refine ⟨i, Nat.lt_of_succ_lt_succ inside, behind i ▸ read, covers, fun j earlier => ?_⟩
      exact behind j ▸ before (j + 1) (Nat.succ_lt_succ earlier)
  · rintro ⟨t, first, found⟩
    split at found
    · rename_i covers
      subst found
      exact ⟨0, count.succ_pos, first, covers, fun j earlier => absurd earlier j.not_lt_zero⟩
    · rename_i passed
      obtain ⟨i, inside, read, covers, before⟩ := found
      refine ⟨i + 1, Nat.succ_lt_succ inside, (behind i).symm ▸ read, covers, ?_⟩
      rintro (_ | j) earlier
      · exact ⟨t, first, passed⟩
      · exact (behind j).symm ▸ before j (Nat.lt_of_succ_lt_succ earlier)

/-- A section that covers the address is found before all others. -/
theorem finds_first {s : SectionHeader} (read : SectionHeader.read data header = .ok s)
    (covers : s.Covers rva) : Finds data rva header (count + 1) s :=
  finds_succ.2 ⟨s, read, by rw [if_pos covers]⟩

/-- The sections are asked one behind the other.  An address has 32 bits, so a section that ends
beyond them covers every address from its beginning on. -/
theorem offsetOf_succ (small : rva < 0x100000000) : offsetOf data rva header (count + 1) = (do
    let s ← SectionHeader.read data header
    if s.Covers rva then
      if s.Fits rva then return s.offsetOf rva else throw .overflow
    else offsetOf data rva (header + 40) count) := by
  simp only [offsetOf, SectionHeader.read, bind_assoc, pure_bind]
  refine bind_congr fun size => bind_congr fun address => bind_congr fun raw => ?_
  simp only [SectionHeader.Covers, SectionHeader.Fits, SectionHeader.offsetOf]
  by_cases low : address ≤ rva
  · by_cases beyond : 0x100000000 ≤ address + size
    · have covers : rva < address + size := Nat.lt_of_lt_of_le small beyond
      have leaves : ¬ address + size < 0x100000000 := Nat.not_lt.2 beyond
      simp only [low, beyond, covers, leaves, false_and, and_self, if_true, if_false]
      rfl
    · have ends : address + size < 0x100000000 := Nat.lt_of_not_le beyond
      by_cases high : rva < address + size
      · simp only [low, beyond, high, ends, true_and, and_self, if_true, if_false]
        rfl
      · simp only [low, beyond, high, and_false, if_true, if_false]
  · simp only [low, false_and, if_false]

/-- **An address is found in its section**, if the numbers for it have 32 bits. -/
theorem offsetOf_eq_ok (small : rva < 0x100000000) {offset : Nat} :
    offsetOf data rva header count = .ok offset ↔
      ∃ s, Finds data rva header count s ∧ s.Fits rva ∧ s.offsetOf rva = offset := by
  induction count generalizing header with
  | zero => exact iff_of_false (fun h => by cases h) fun ⟨s, found, _⟩ => not_finds_zero s found
  | succ count ih =>
    rw [offsetOf_succ small, bind_eq_ok]
    simp only [finds_succ]
    constructor
    · rintro ⟨t, first, h⟩
      split at h
      · rename_i covers
        split at h
        · rename_i fits
          exact ⟨t, ⟨t, first, by rw [if_pos covers]⟩, fits, pure_eq_ok.1 h⟩
        · cases h
      · rename_i passed
        obtain ⟨s, found, fits, offset⟩ := ih.1 h
        exact ⟨s, ⟨t, first, by rwa [if_neg passed]⟩, fits, offset⟩
    · rintro ⟨s, ⟨t, first, found⟩, fits, offset⟩
      refine ⟨t, first, ?_⟩
      by_cases covers : t.Covers rva
      · rw [if_pos covers] at found ⊢
        subst found
        rw [if_pos fits]
        exact pure_eq_ok.2 offset
      · rw [if_neg covers] at found ⊢
        exact ih.2 ⟨s, found, fits, offset⟩

end Reader

/-! ### Headers of a file -/

/-- What the headers of a file tell its reader. -/
structure FileHeaders where
  /-- Where the headers of the sections begin. -/
  sections : Nat
  sectionCount : Nat
  /-- The address of the header of the runtime. -/
  runtimeAddress : Nat
deriving DecidableEq

namespace FileHeaders

/-- The headers of a file. -/
def read (data : Array UInt8) : Except Error FileHeaders := do
  Reader.require ((← Reader.bytes data 0 2) == [0x4D, 0x5A]) .noDosSignature
  let pe ← Reader.number data 0x3C 4
  Reader.require ((← Reader.bytes data pe 4) == [0x50, 0x45, 0, 0]) .noPeSignature
  let coff := pe + 4
  let sectionCount ← Reader.number data (coff + 2) 2
  let optional := coff + 20
  let optionalSize ← Reader.number data (coff + 16) 2
  Reader.require ((← Reader.number data optional 2) == 0x010B) .notPe32
  let runtimeAddress ← Reader.number data (optional + 96 + File.runtimeDirectory * 8) 4
  Reader.require (runtimeAddress != 0) .noCliHeader
  return ⟨optional + optionalSize, sectionCount, runtimeAddress⟩

/-- The file offset of an address, by the headers of the sections. -/
def offsetOf (headers : FileHeaders) (data : Array UInt8) (rva : Nat) : Except Error Nat :=
  Reader.offsetOf data rva headers.sections headers.sectionCount

end FileHeaders

/-- **Metadata is found through two addresses**: that of the header of the runtime, and that of
the metadata, which stands there. -/
theorem MetadataInfo.read_eq (data : Array UInt8) : read data = (do
    let headers ← FileHeaders.read data
    let runtime ← headers.offsetOf data headers.runtimeAddress
    let address ← Reader.number data (runtime + 8) 4
    let flags ← Reader.number data (runtime + 16) 4
    let root ← headers.offsetOf data address
    Reader.metadata data root flags) := by
  simp only [read, FileHeaders.read, FileHeaders.offsetOf, bind_assoc, pure_bind]

end HookImage
