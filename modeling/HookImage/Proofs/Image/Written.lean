/-
# Which images can be written

Once an image is drafted, only its size decides: every offset and size in the file has 32
bits (`File.exists_split_eq_ok`).  So an image whose bodies are encodable is written, as long
as it is below `2 ^ 31` bytes, exactly if its methods and its members are writable
(`Image.exists_write_eq_ok`).
-/

import HookImage.Image.File
import HookImage.Proofs.Image.Drafted

namespace HookImage
namespace File

/-- A size is accepted exactly if it has 32 bits. -/
theorem checkedSize_eq_ok {part : String} {n m : Nat} :
    checkedSize part n = .ok m ↔ n < 0x100000000 ∧ n = m := by
  unfold checkedSize
  split <;> simp [*]

/-- An address is accepted exactly if it has 32 bits. -/
theorem checkedAddress_eq_ok {n m : Nat} :
    checkedAddress n = .ok m ↔ n < 0x100000000 ∧ n = m := by
  unfold checkedAddress
  split <;> simp [*]

/-- The streams of a draft, without the identity of the module. -/
def draftStreams (d : Draft) : List Stream :=
  streams (Tables.ofDraft d) d.literals (List.replicate 16 0)

/-- The number of bytes of the metadata before its streams. -/
def rootSize (d : Draft) : Nat :=
  20 + (paddedName version).length + streamHeadersSize (draftStreams d)

/-- The number of bytes of the section: the header of the runtime, the bodies, the metadata. -/
def sectionSize (d : Draft) : Nat :=
  runtimeHeaderSize + (Bytes.aligned 4 d.bodies.toList).length +
    (rootSize d + ((draftStreams d).map (·.bytes)).flatten.length)

/-- The headers of streams take the bytes that their size says. -/
theorem length_streamHeaders {offset : Nat} {ss : List Stream} {headers : Bytes}
    (h : streamHeaders offset ss = .ok headers) : headers.length = streamHeadersSize ss := by
  induction ss generalizing offset headers with
  | nil =>
    cases h
    rfl
  | cons s ss ih =>
    obtain ⟨start, -, h⟩ := bind_eq_ok.1 h
    obtain ⟨size, -, h⟩ := bind_eq_ok.1 h
    obtain ⟨others, hothers, h⟩ := bind_eq_ok.1 h
    cases h
    simp [ih hothers, streamHeadersSize]
    omega

/-- The root of the metadata takes twenty bytes, the version and the headers of the streams. -/
theorem length_metadataRoot {ss : List Stream} {root : Bytes} (h : metadataRoot ss = .ok root) :
    root.length = 20 + (paddedName version).length + streamHeadersSize ss := by
  obtain ⟨headers, hheaders, h⟩ := bind_eq_ok.1 h
  have length := length_streamHeaders hheaders
  cases h
  simp [length]
  omega

/-- Streams that end before 2³² bytes get their headers. -/
theorem exists_streamHeaders_eq_ok {offset : Nat} {ss : List Stream}
    (fits : offset + (ss.map (·.bytes)).flatten.length < 0x100000000) :
    ∃ headers, streamHeaders offset ss = .ok headers := by
  induction ss generalizing offset with
  | nil => exact ⟨[], rfl⟩
  | cons s ss ih =>
    rw [List.map_cons, List.flatten_cons, List.length_append] at fits
    obtain ⟨others, hothers⟩ := @ih (offset + s.bytes.length) (by omega)
    have start : checkedSize "metadata" offset = .ok offset :=
      checkedSize_eq_ok.2 ⟨by omega, rfl⟩
    have size : checkedSize s.name s.bytes.length = .ok s.bytes.length :=
      checkedSize_eq_ok.2 ⟨by omega, rfl⟩
    exact ⟨_, bind_eq_ok.2 ⟨_, start, bind_eq_ok.2 ⟨_, size, bind_eq_ok.2 ⟨_, hothers, rfl⟩⟩⟩⟩

/-- Metadata that ends before 2³² bytes gets its root. -/
theorem exists_metadataRoot_eq_ok (ss : List Stream)
    (fits : 20 + (paddedName version).length + streamHeadersSize ss +
      (ss.map (·.bytes)).flatten.length < 0x100000000) :
    ∃ root, metadataRoot ss = .ok root := by
  obtain ⟨headers, hheaders⟩ := exists_streamHeaders_eq_ok fits
  exact ⟨_, bind_eq_ok.2 ⟨headers, hheaders, rfl⟩⟩

/-- **A draft becomes a file** if its section has less than `2 ^ 31` bytes. -/
theorem exists_split_eq_ok {d : Draft} (fits : sectionSize d < 0x80000000) :
    ∃ s, split d = .ok s := by
  unfold sectionSize rootSize at fits
  obtain ⟨root, hroot⟩ := exists_metadataRoot_eq_ok (draftStreams d) (by omega)
  rw [← length_metadataRoot hroot] at fits
  have size : runtimeHeaderSize + (Bytes.aligned 4 d.bodies.toList).length +
      (root.length + ((draftStreams d).map (·.bytes)).flatten.length) < 0x80000000 := fits
  have mapped : Bytes.roundUp sectionAddress (sectionAddress + (runtimeHeaderSize +
      (Bytes.aligned 4 d.bodies.toList).length +
      (root.length + ((draftStreams d).map (·.bytes)).flatten.length))) < 0x100000000 := by
    unfold Bytes.roundUp Bytes.padding sectionAddress
    omega
  have address : sectionAddress + (runtimeHeaderSize +
      (Bytes.aligned 4 d.bodies.toList).length) < 0x100000000 := by
    unfold sectionAddress
    omega
  have metadataSize : root.length + ((draftStreams d).map (·.bytes)).flatten.length <
      0x100000000 := by
    omega
  exact ⟨_, bind_eq_ok.2 ⟨root, liftM_eq_ok.2 hroot,
    bind_eq_ok.2 ⟨_, liftM_eq_ok.2 (checkedSize_eq_ok.2 ⟨by omega, rfl⟩),
    bind_eq_ok.2 ⟨_, checkedAddress_eq_ok.2 ⟨address, rfl⟩,
    bind_eq_ok.2 ⟨_, liftM_eq_ok.2 (checkedSize_eq_ok.2 ⟨metadataSize, rfl⟩),
    bind_eq_ok.2 ⟨_, liftM_eq_ok.2 (checkedSize_eq_ok.2 ⟨Nat.lt_trans size (by decide), rfl⟩),
    bind_eq_ok.2 ⟨_, checkedAddress_eq_ok.2 ⟨mapped, rfl⟩, rfl⟩⟩⟩⟩⟩⟩⟩

end File

namespace Image

/-- Whether an image stays below `2 ^ 31` bytes: its bodies, the lists in its signatures, and
the section that holds it all. -/
structure Fits (image : Image) : Prop where
  bodies : image.bodiesSize < 0x80000000
  lists : ∀ c ∈ image.containers, ∀ m ∈ c.methods, ∀ n ∈ m.signature.lists, n < 0x80000000
  file : ∀ d, Draft.ofImage image = .ok d → File.sectionSize d < 0x80000000

instance (image : Image) : Decidable image.Fits :=
  decidable_of_iff (image.bodiesSize < 0x80000000 ∧
      image.containers.all (·.methods.all (·.signature.lists.all (· < 0x80000000))) ∧
      (match Draft.ofImage image with
        | .ok d => decide (File.sectionSize d < 0x80000000)
        | .error _ => true) = true) <| by
    simp only [List.all_eq_true, decide_eq_true_eq]
    constructor
    · rintro ⟨bodies, lists, file⟩
      refine ⟨bodies, lists, fun d hd => ?_⟩
      rw [hd] at file
      exact of_decide_eq_true file
    · intro h
      refine ⟨h.bodies, h.lists, ?_⟩
      split
      · rename_i d hd
        exact decide_eq_true (h.file d hd)
      · rfl

/-- An image is written if its draft has a section below `2 ^ 31` bytes. -/
theorem exists_write_of_drafted {image : Image} {d : Draft} (drafted : Draft.ofImage image = .ok d)
    (small : File.sectionSize d < 0x80000000) : ∃ bytes, image.write = .ok bytes := by
  obtain ⟨s, hs⟩ := File.exists_split_eq_ok small
  exact ⟨_, bind_eq_ok.2 ⟨d, drafted, bind_eq_ok.2 ⟨s, hs, rfl⟩⟩⟩

/-- **A drafted image whose section is smaller than 2³¹ bytes is written.** -/
theorem exists_write_of_small {image : Image} (small : (Draft.ofImage image).toOption.any
    fun d => File.sectionSize d < 0x80000000) : ∃ bytes, image.write = .ok bytes := by
  obtain ⟨d, drafted, below⟩ := (Option.any_eq_true _ _).1 small
  exact exists_write_of_drafted (toOption_eq_some.1 drafted) (of_decide_eq_true below)

/-- **An image is written** exactly if it is writable. -/
theorem exists_write_eq_ok {image : Image} (consistent : image.Consistent)
    (enc : ∀ c ∈ image.containers, ∀ m ∈ c.methods, m.body.Encodable) (fits : image.Fits) :
    (∃ bytes, image.write = .ok bytes) ↔ image.Writable := by
  rw [← Draft.exists_ofImage_eq_ok consistent enc fits.lists fits.bodies]
  constructor
  · rintro ⟨bytes, h⟩
    obtain ⟨d, hd, -⟩ := bind_eq_ok.1 h
    exact ⟨d, hd⟩
  · rintro ⟨d, hd⟩
    exact exists_write_of_drafted hd (fits.file d hd)

end Image
end HookImage
