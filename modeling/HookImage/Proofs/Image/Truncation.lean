/-
# Files that are cut off

The reader of a file asks for bytes at offsets and searches for the end of a name, and never for
where the file ends.  So a step ends in a longer file as it does in a shorter one, unless it misses
bytes in the shorter one (`Reader.Persists`), and so does the whole (`MetadataInfo.persists_read`).
It follows that what was read stays what is read when bytes are appended, and that a written file
which is cut off is either found to lack bytes or read as the whole file is
(`MetadataInfo.read_stable`).

A search for the end of a name looks at all bytes up to the end of the file, so here it has to be
seen that more bytes do not move the first zero (`Reader.persists_streamHeaders`).
-/

import HookImage.Proofs.Image.ReadBack
import HookImage.Proofs.Image.ReaderSafety
import Mathlib

namespace HookImage

/-- Whether a malformation says that the file ends too early. -/
def Malformation.MissesBytes : Malformation → Prop
  | .truncated _ | .unterminatedStreamName => True
  | _ => False

namespace Reader

variable {α β : Type} {x y : Except Error α}

/-! ### Steps in a shorter and in a longer file -/

/-- Whether a step ends in a longer file as it does in a shorter one, unless it misses bytes in the
shorter one. -/
def Persists (short long : Except Error α) : Prop :=
  short = long ∨ ∃ fault : Malformation, fault.MissesBytes ∧ short = .error (.malformed fault)

/-- What does not depend on the file persists. -/
theorem Persists.refl (x : Except Error α) : Persists x x := .inl rfl

/-- **Two steps persist** if the first one does and the second one does behind every result. -/
theorem Persists.bind {f g : α → Except Error β} (first : Persists x y)
    (rest : ∀ a, Persists (f a) (g a)) : Persists (x >>= f) (y >>= g) := by
  rcases first with rfl | ⟨fault, misses, rfl⟩
  · rcases x with e | a
    · exact .refl _
    · exact rest a
  · exact .inr ⟨fault, misses, rfl⟩

/-- A choice that does not depend on the file persists if both sides do. -/
theorem Persists.ite {c : Prop} [Decidable c] {x' y' : Except Error α} (yes : Persists x y)
    (no : Persists x' y') : Persists (if c then x else x') (if c then y else y') := by
  split
  · exact yes
  · exact no

/-- A result in the shorter file is one in the longer file. -/
theorem Persists.eq_ok {a : α} (h : Persists x y) (result : x = .ok a) : y = .ok a := by
  rcases h with rfl | ⟨fault, -, missing⟩
  · exact result
  · rw [missing] at result
    cases result

/-! ### The steps of the reader -/

variable (data more : Array UInt8)

/-- Bytes that are read are read from a longer file. -/
theorem persists_bytes (offset length : Nat) :
    Persists (bytes data offset length) (bytes (data ++ more) offset length) := by
  unfold bytes
  by_cases inside : offset + length ≤ data.size
  · have longer : offset + length ≤ (data ++ more).size := by
      rw [Array.size_append]
      omega
    have same : (data ++ more).extract offset (offset + length) =
        data.extract offset (offset + length) := by
      rw [Array.extract_append, Nat.sub_eq_zero_of_le inside, Array.extract_zero,
        Array.append_empty]
    rw [if_pos inside, if_pos longer, same]
    exact .refl _
  · rw [if_neg inside]
    exact .inr ⟨.truncated offset, trivial, rfl⟩

/-- A number that is read is read from a longer file. -/
theorem persists_number (offset width : Nat) :
    Persists (number data offset width) (number (data ++ more) offset width) :=
  (persists_bytes data more offset width).bind fun _ => .refl _

/-- A number of eight bytes that is read is read from a longer file. -/
theorem persists_long (offset : Nat) : Persists (long data offset) (long (data ++ more) offset) :=
  (persists_number data more _ _).bind fun _ => (persists_number data more _ _).bind fun _ =>
  .refl _

/-- An address that is found is found in a longer file. -/
theorem persists_offsetOf (rva header count : Nat) :
    Persists (offsetOf data rva header count) (offsetOf (data ++ more) rva header count) := by
  induction count generalizing header with
  | zero => exact .refl _
  | succ count ih =>
    refine (persists_number data more _ _).bind fun size => ?_
    refine (persists_number data more _ _).bind fun address => ?_
    refine (persists_number data more _ _).bind fun raw => ?_
    refine .ite (.ite (.refl _) (.ite (.refl _) (ih _))) (ih _)

/-- **A name that ends ends where it did** when bytes are appended. -/
theorem persists_streamHeaders (cursor count : Nat) :
    Persists (streamHeaders data cursor count) (streamHeaders (data ++ more) cursor count) := by
  induction count generalizing cursor with
  | zero => exact .refl _
  | succ count ih =>
    refine (persists_number data more _ _).bind fun offset => ?_
    refine (persists_number data more _ _).bind fun size => ?_
    dsimp only
    rw [toList_extract_size, toList_extract_size, Array.toList_append, List.drop_append]
    cases found : (data.toList.drop (cursor + 8)).findIdx? (· == 0) with
    | none => exact .inr ⟨.unterminatedStreamName, trivial, rfl⟩
    | some length =>
      have inside := (List.findIdx?_eq_some_iff_getElem.1 found).1
      rw [List.findIdx?_append, found, Option.some_or]
      dsimp only
      rw [List.take_append_of_le_length (Nat.le_of_lt inside)]
      exact (ih _).bind fun _ => .refl _

/-- Numbers of rows that are read are read from a longer file. -/
theorem persists_rowCounts (valid : Nat) (bits : List Nat) (cursor : Nat) :
    Persists (rowCounts data valid bits cursor) (rowCounts (data ++ more) valid bits cursor) := by
  induction bits generalizing cursor with
  | nil => exact .refl _
  | cons bit bits ih =>
    refine .ite ?_ (ih _)
    split
    · exact (persists_number data more _ _).bind fun _ => (ih _).bind fun _ => .refl _
    · exact .refl _

/-- Metadata that is read is read from a longer file. -/
theorem persists_metadata (root flags : Nat) :
    Persists (metadata data root flags) (metadata (data ++ more) root flags) :=
  (persists_number data more _ _).bind fun _ => (Persists.refl _).bind fun _ =>
  (persists_number data more _ _).bind fun _ => (persists_bytes data more _ _).bind fun _ =>
  (persists_number data more _ _).bind fun _ => (persists_streamHeaders data more _ _).bind fun _ =>
  (Persists.refl _).bind fun _ => (persists_bytes data more _ _).bind fun _ =>
  (Persists.refl _).bind fun _ => (persists_long data more _).bind fun _ =>
  (persists_rowCounts data more _ _ _).bind fun _ => .refl _

end Reader

namespace MetadataInfo

open Reader

/-- **A file is read as it was** when bytes are appended, unless it lacked bytes. -/
theorem persists_read (data more : Array UInt8) : Persists (read data) (read (data ++ more)) :=
  (persists_bytes data more _ _).bind fun _ => (Persists.refl _).bind fun _ =>
  (persists_number data more _ _).bind fun _ => (persists_bytes data more _ _).bind fun _ =>
  (Persists.refl _).bind fun _ => (persists_number data more _ _).bind fun _ =>
  (persists_number data more _ _).bind fun _ => (persists_number data more _ _).bind fun _ =>
  (Persists.refl _).bind fun _ => (persists_number data more _ _).bind fun _ =>
  (Persists.refl _).bind fun _ => (persists_offsetOf data more _ _ _).bind fun _ =>
  (persists_number data more _ _).bind fun _ => (persists_number data more _ _).bind fun _ =>
  (persists_offsetOf data more _ _ _).bind fun _ => persists_metadata data more _ _

/-- A file of which metadata are read is read alike when it is cut off, or is found to lack
bytes. -/
theorem read_take {file : Bytes} {info : MetadataInfo} (whole : read file.toArray = .ok info)
    (n : Nat) : read (file.take n).toArray = .ok info ∨
      ∃ fault : Malformation, fault.MissesBytes ∧
        read (file.take n).toArray = .error (.malformed fault) := by
  have parts : (file.take n).toArray ++ (file.drop n).toArray = file.toArray := by
    rw [List.append_toArray, List.take_append_drop]
  have persists := persists_read (file.take n).toArray (file.drop n).toArray
  rw [parts, whole] at persists
  exact persists

/-- **Reading does not depend on what follows.**  Metadata that are read of a file are read of every
file that begins with it.  A written image that is cut off anywhere is read as the whole is, or
found malformed because it lacks bytes. -/
theorem read_stable :
    (∀ (data more : Array UInt8) (info : MetadataInfo),
      read data = .ok info → read (data ++ more) = .ok info) ∧
    ∀ (image : Image) (file : Bytes), image.Made → image.write = .ok file →
      ∃ info, read file.toArray = .ok info ∧ ∀ n, read (file.take n).toArray = .ok info ∨
        ∃ fault : Malformation, fault.MissesBytes ∧
          read (file.take n).toArray = .error (.malformed fault) := by
  refine ⟨fun data more info found => (persists_read data more).eq_ok found, ?_⟩
  intro image file made written
  obtain ⟨info, whole, -⟩ := Image.read_write made written
  exact ⟨info, whole, read_take whole⟩

/-- The hypotheses are satisfiable: an image with two containers is written, and its file is read
with two more bytes behind it and cut off anywhere. -/
theorem read_stable_sampled : ∃ file info, Image.sampled.write = .ok file ∧
    read file.toArray = .ok info ∧ read (file.toArray ++ #[0x4D, 0x5A]) = .ok info ∧
    ∀ n, read (file.take n).toArray = .ok info ∨ ∃ fault : Malformation, fault.MissesBytes ∧
      read (file.take n).toArray = .error (.malformed fault) := by
  obtain ⟨file, written⟩ := Image.exists_write_sampled
  obtain ⟨appended, cut⟩ := read_stable
  obtain ⟨info, whole, parts⟩ := cut Image.sampled file ⟨_, _, _, rfl⟩ written
  exact ⟨file, info, written, whole, appended _ _ info whole, parts⟩

end MetadataInfo
end HookImage
