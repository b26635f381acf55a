/-
# Parts of a file

A part *lies* in a file at an offset if the file has its bytes from there on (`LiesAt`).  A
part of a part lies at the sum of both offsets, so the place of each field of a written file
follows from the sizes of the fields before it.  The reader gives a part back at its offset
(`LiesAt.bytes`), and a number of fixed width with it (`LiesAt.number`, `LiesAt.long`).
-/

import HookImage.Image.Reader
import HookImage.Proofs.Bytes.Reading
import HookImage.Proofs.Success

namespace HookImage
namespace Bytes

/-- Whether a part lies in a file at an offset. -/
def LiesAt (file : Bytes) (offset : Nat) (part : Bytes) : Prop :=
  ∃ front back, file = front ++ part ++ back ∧ front.length = offset

/-- A part lies at an offset exactly if the bytes from there on begin with it. -/
theorem liesAt_iff {file part : Bytes} {offset : Nat} :
    LiesAt file offset part ↔
      offset ≤ file.length ∧ (file.drop offset).take part.length = part := by
  constructor
  · rintro ⟨front, back, rfl, rfl⟩
    refine ⟨?_, ?_⟩
    · rw [List.append_assoc, List.length_append]
      exact Nat.le_add_right _ _
    · rw [List.append_assoc, List.drop_left, List.take_left]
  · rintro ⟨inside, here⟩
    have rest := List.take_append_drop part.length (file.drop offset)
    rw [here] at rest
    refine ⟨file.take offset, (file.drop offset).drop part.length, ?_, ?_⟩
    · rw [List.append_assoc, rest, List.take_append_drop]
    · rw [List.length_take, Nat.min_eq_left inside]

instance (file : Bytes) (offset : Nat) (part : Bytes) : Decidable (LiesAt file offset part) :=
  decidable_of_iff _ liesAt_iff.symm

namespace LiesAt

variable {file part xs ys : Bytes} {offset : Nat}

/-- A file lies at its own beginning. -/
theorem whole (file : Bytes) : LiesAt file 0 file := ⟨[], [], by simp, rfl⟩

/-- A part of a part lies at the sum of both offsets. -/
theorem within (outer : LiesAt file offset xs) {inset : Nat} (inner : LiesAt xs inset ys) :
    LiesAt file (offset + inset) ys := by
  obtain ⟨front, back, rfl, rfl⟩ := outer
  obtain ⟨left, right, rfl, rfl⟩ := inner
  exact ⟨front ++ left, right ++ back, by simp only [List.append_assoc], List.length_append⟩

/-- A part lies where what begins with it does. -/
theorem left (h : LiesAt file offset (xs ++ ys)) : LiesAt file offset xs :=
  h.within ⟨[], ys, rfl, rfl⟩

/-- Behind a part of `n` bytes lies the next one. -/
theorem next (h : LiesAt file offset (xs ++ ys)) {n : Nat} (length : xs.length = n) :
    LiesAt file (offset + n) ys :=
  h.within ⟨xs, [], (List.append_nil _).symm, length⟩

/-- Behind a number of `width` bytes lies the next part. -/
theorem nextWord {width n : Nat} (h : LiesAt file offset (littleEndian width n ++ ys)) :
    LiesAt file (offset + width) ys :=
  h.next (length_littleEndian width n)

/-- Two parts of which one ends where the other begins are one part. -/
theorem append (h : LiesAt file offset xs) {n : Nat} (length : xs.length = n)
    (behind : LiesAt file (offset + n) ys) : LiesAt file offset (xs ++ ys) := by
  obtain ⟨front, back, file, rfl⟩ := h
  obtain ⟨left, right, rfl, place⟩ := behind
  rw [List.append_assoc left] at file
  obtain ⟨rfl, -⟩ := List.append_inj file (by rw [place, List.length_append, length])
  exact ⟨front, right, by simp only [List.append_assoc], rfl⟩

end LiesAt

/-- The value of joined bytes is that of the low ones and of the high ones, moved up. -/
theorem value_append (xs ys : Bytes) :
    value (xs ++ ys) = value xs + Nat.pow 256 xs.length * value ys := by
  induction xs with
  | nil =>
    show value ys = 0 + Nat.pow 256 0 * value ys
    rw [Nat.zero_add]
    exact (Nat.one_mul _).symm
  | cons x xs ih =>
    rw [List.cons_append, value, ih, value, List.length_cons]
    show _ = _ + 256 ^ (xs.length + 1) * value ys
    rw [Nat.pow_succ', Nat.mul_add, Nat.mul_assoc, Nat.add_assoc]
    rfl

/-- The first zero behind a text without one ends it. -/
theorem findIdx?_zero {text : Bytes} (nonzero : 0 ∉ text) (rest : Bytes) :
    (text ++ 0 :: rest).findIdx? (· == 0) = some text.length := by
  have before : text.findIdx? (· == 0) = none := by
    rw [List.findIdx?_eq_none_iff]
    intro b mem
    exact beq_eq_false_iff_ne.2 fun zero => nonzero (zero ▸ mem)
  rw [List.findIdx?_append, before, List.findIdx?_cons]
  simp

/-- Aligned bytes take a multiple of the step. -/
@[simp] theorem length_aligned (step : Nat) (bytes : Bytes) :
    (aligned step bytes).length = roundUp step bytes.length := by
  rw [aligned, List.length_append, List.length_replicate, roundUp]

/-- What is rounded up is a multiple of the step. -/
theorem roundUp_mod {step : Nat} (h : 0 < step) (n : Nat) : roundUp step n % step = 0 := by
  unfold roundUp padding
  have below := Nat.mod_lt n h
  rcases Nat.eq_zero_or_pos (n % step) with whole | rest
  · rw [whole, Nat.sub_zero, Nat.mod_self, Nat.add_zero, whole]
  · rw [Nat.mod_eq_of_lt (Nat.sub_lt h rest), Nat.add_mod, Nat.mod_eq_of_lt (Nat.sub_lt h rest),
      Nat.add_sub_cancel' (Nat.le_of_lt below), Nat.mod_self]

end Bytes

namespace Reader

open Bytes (LiesAt)

/-- The reader takes the value of bytes as it is defined. -/
theorem value_eq (bytes : Bytes) : value bytes = Bytes.value bytes := by
  induction bytes with
  | nil => rfl
  | cons b bytes ih => rw [value, Bytes.value, ih]

end Reader

namespace Bytes.LiesAt

variable {data : Array UInt8} {offset : Nat} {part : Bytes}

/-- **A part is read at its offset.** -/
theorem bytes (h : LiesAt data.toList offset part) :
    Reader.bytes data offset part.length = .ok part := by
  obtain ⟨front, back, file, rfl⟩ := h
  have size : data.size = front.length + part.length + back.length := by
    rw [← Array.length_toList, file, List.length_append, List.length_append]
  rw [Reader.bytes, if_pos (by omega), Array.toList_extract, file, List.append_assoc]
  simp

/-- The file goes on behind a part. -/
theorem extract (h : LiesAt data.toList offset part) :
    ∃ back, (data.extract offset data.size).toList = part ++ back := by
  obtain ⟨front, back, file, rfl⟩ := h
  refine ⟨back, ?_⟩
  have size : data.size = front.length + (part ++ back).length := by
    rw [← Array.length_toList, file, List.append_assoc, List.length_append]
  rw [Array.toList_extract, file, size, List.append_assoc]
  simp only [List.extract_eq_take_drop, List.drop_left, Nat.add_sub_cancel_left, List.take_length]

/-- A number is read as the value of the bytes that lie there. -/
theorem value (h : LiesAt data.toList offset part) {width : Nat} (length : part.length = width) :
    Reader.number data offset width = .ok (Bytes.value part) := by
  rw [← length]
  exact bind_eq_ok.2 ⟨part, h.bytes, congrArg Except.ok (Reader.value_eq part)⟩

/-- **A number is read at its offset.** -/
theorem number {width n : Nat} (h : LiesAt data.toList offset (littleEndian width n))
    (small : n < Nat.pow 256 width) : Reader.number data offset width = .ok n := by
  rw [h.value (length_littleEndian _ _), value_littleEndian small]

/-- A number of eight bytes is read in two halves. -/
theorem long {n : Nat} (h : LiesAt data.toList offset (littleEndian 8 n))
    (small : n < Nat.pow 256 8) : Reader.long data offset = .ok n := by
  obtain ⟨low, high, split, hlow, hhigh⟩ :
      ∃ low high, littleEndian 8 n = low ++ high ∧ low.length = 4 ∧ high.length = 4 :=
    ⟨_, _, (List.take_append_drop 4 _).symm, rfl, rfl⟩
  have whole : Bytes.value low + 0x100000000 * Bytes.value high = n := by
    rw [← value_littleEndian small, split, value_append, hlow]
  rw [split] at h
  exact bind_eq_ok.2 ⟨_, h.left.value hlow,
    bind_eq_ok.2 ⟨_, (h.next hlow).value hhigh, congrArg Except.ok whole⟩⟩

end Bytes.LiesAt

namespace Reader

open Bytes (LiesAt)

variable {data : Array UInt8} {offset : Nat}

/-- **What is read lies in the file**, at the offset and with the length that were asked for. -/
theorem bytes_eq_ok {length : Nat} {part : Bytes} :
    bytes data offset length = .ok part ↔
      LiesAt data.toList offset part ∧ part.length = length := by
  constructor
  · intro h
    unfold bytes at h
    split at h
    · rename_i inside
      cases h
      have size : ((data.extract offset (offset + length)).toList).length = length := by
        rw [Array.length_toList, Array.size_extract]
        omega
      refine ⟨Bytes.liesAt_iff.2 ⟨?_, ?_⟩, size⟩
      · rw [Array.length_toList]
        omega
      · rw [size, Array.toList_extract, List.extract_eq_take_drop, Nat.add_sub_cancel_left]
    · cases h
  · rintro ⟨here, rfl⟩
    exact here.bytes

/-- A number is read exactly where its bytes lie. -/
theorem number_eq_ok {width n : Nat} :
    number data offset width = .ok n ↔
      LiesAt data.toList offset (Bytes.littleEndian width n) ∧ n < Nat.pow 256 width := by
  refine ⟨fun h => ?_, fun ⟨here, small⟩ => here.number small⟩
  obtain ⟨part, read, valued⟩ := bind_eq_ok.1 h
  obtain ⟨here, rfl⟩ := bytes_eq_ok.1 read
  cases pure_eq_ok.1 valued
  rw [value_eq, Bytes.littleEndian_value]
  exact ⟨here, Bytes.value_lt part⟩

/-- A number of eight bytes is read exactly where its bytes lie. -/
theorem long_eq_ok {n : Nat} : long data offset = .ok n ↔
    LiesAt data.toList offset (Bytes.littleEndian 8 n) ∧ n < Nat.pow 256 8 := by
  refine ⟨fun h => ?_, fun ⟨here, small⟩ => here.long small⟩
  obtain ⟨low, hlow, h⟩ := bind_eq_ok.1 h
  obtain ⟨high, hhigh, h⟩ := bind_eq_ok.1 h
  cases pure_eq_ok.1 h
  obtain ⟨first, smallLow⟩ := number_eq_ok.1 hlow
  obtain ⟨second, smallHigh⟩ := number_eq_ok.1 hhigh
  have whole := Bytes.value_append (Bytes.littleEndian 4 low) (Bytes.littleEndian 4 high)
  rw [Bytes.value_littleEndian smallLow, Bytes.value_littleEndian smallHigh,
    Bytes.length_littleEndian] at whole
  have bytes := Bytes.littleEndian_value (Bytes.littleEndian 4 low ++ Bytes.littleEndian 4 high)
  have bound := Bytes.value_lt (Bytes.littleEndian 4 low ++ Bytes.littleEndian 4 high)
  simp only [whole, List.length_append, Bytes.length_littleEndian] at bytes bound
  exact ⟨bytes ▸ first.append (Bytes.length_littleEndian _ _) second, bound⟩

end Reader
end HookImage
