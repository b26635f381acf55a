/-
# Reading numbers back

The other side of `HookImage.Bytes`: a number of fixed width is taken from the front of a
run (`word?`, `int?`), and a compressed number tells by its first byte how far it reaches
(`compressed?`).  Each reader undoes its writer whatever bytes follow, so the readers
compose (`word?_littleEndian`, `int?_signed`, `compressed?_compressed`).
-/

import HookImage.Bytes

namespace HookImage
namespace Bytes

/-- The number with given little-endian bytes. -/
def value : Bytes → Nat
  | [] => 0
  | b :: bs => b.toNat + 256 * value bs

/-- The first `n` bytes and the rest, if there are as many. -/
def split? (n : Nat) (bytes : Bytes) : Option (Bytes × Bytes) :=
  if n ≤ bytes.length then some (bytes.take n, bytes.drop n) else none

/-- A number of `width` bytes, the lowest first. -/
def word? (width : Nat) (bytes : Bytes) : Option (Nat × Bytes) :=
  (split? width bytes).map fun p => (value p.1, p.2)

/-- A number whose upper half of values stands for the negative ones. -/
def fromTwos (half n : Nat) : Int := if n < half then n else n - (2 * half : Nat)

/-- A number of `width` bytes in two's complement, the lowest first. -/
def int? (width : Nat) (bytes : Bytes) : Option (Int × Bytes) :=
  (word? width bytes).map fun p => (fromTwos (Nat.pow 2 (8 * width - 1)) p.1, p.2)

/-- A compressed number.  The high bits of the first byte tell how many bytes there are. -/
def compressed? : Bytes → Option (Nat × Bytes)
  | [] => none
  | b :: rest =>
    if b.toNat < 0x80 then some (b.toNat, rest)
    else if b.toNat < 0xC0 then
      (split? 1 rest).map fun p => (value (p.1.reverse ++ [b]) - 0x8000, p.2)
    else if b.toNat < 0xE0 then
      (split? 3 rest).map fun p => (value (p.1.reverse ++ [b]) - 0xC0000000, p.2)
    else none

/-- A number takes as many bytes as it is wide. -/
@[simp] theorem length_littleEndian (width n : Nat) : (littleEndian width n).length = width := by
  induction width generalizing n with
  | zero => rfl
  | succ width ih => simp [littleEndian, ih]

/-- A signed number takes as many bytes as it is wide. -/
@[simp] theorem length_signed (width : Nat) (i : Int) : (signed width i).length = width :=
  length_littleEndian _ _

/-- The bytes that are written keep the number up to their width. -/
@[simp] theorem value_littleEndian_mod (width n : Nat) :
    value (littleEndian width n) = n % Nat.pow 256 width := by
  induction width generalizing n with
  | zero => exact (Nat.mod_one n).symm
  | succ width ih =>
    have split : n % (256 * Nat.pow 256 width) = n % 256 + 256 * (n / 256 % Nat.pow 256 width) :=
      Nat.mod_mul
    rw [littleEndian, value, ih, UInt8.toNat_ofNat', show Nat.pow 256 (width + 1) =
      256 * Nat.pow 256 width from Nat.pow_succ', split]

/-- A number that fits in its width is the value of its bytes. -/
theorem value_littleEndian {width n : Nat} (h : n < Nat.pow 256 width) :
    value (littleEndian width n) = n := by
  rw [value_littleEndian_mod, Nat.mod_eq_of_lt h]

/-- The value of bytes fits in their width. -/
theorem value_lt (bytes : Bytes) : value bytes < Nat.pow 256 bytes.length := by
  induction bytes with
  | nil => exact Nat.one_pos
  | cons b bytes ih =>
    have digit := b.toNat_lt
    have power : Nat.pow 256 (bytes.length + 1) = 256 * Nat.pow 256 bytes.length := Nat.pow_succ'
    rw [value, List.length_cons, power]
    omega

/-- The bytes of a number are the ones that it is the value of. -/
@[simp]
theorem littleEndian_value (bytes : Bytes) : littleEndian bytes.length (value bytes) = bytes := by
  induction bytes with
  | nil => rfl
  | cons b bytes ih =>
    have digit := b.toNat_lt
    have rest : (b.toNat + 256 * value bytes) / 256 = value bytes := by omega
    have lowest : UInt8.ofNat (b.toNat + 256 * value bytes) = b := by
      apply UInt8.toNat_inj.1
      rw [UInt8.toNat_ofNat']
      omega
    rw [List.length_cons, littleEndian, value, rest, lowest, ih]

/-- Splitting at the length of the front gives the front and what follows. -/
theorem split?_append {n : Nat} {front : Bytes} (h : front.length = n) (rest : Bytes) :
    split? n (front ++ rest) = some (front, rest) := by
  subst h
  simp [split?]

/-- A number that is wider than its field is read as its low bytes. -/
theorem word?_littleEndian_mod (width n : Nat) (rest : Bytes) :
    word? width (littleEndian width n ++ rest) = some (n % Nat.pow 256 width, rest) := by
  rw [word?, split?_append (length_littleEndian _ _), Option.map_some]
  simp only [value_littleEndian_mod]

/-- A number that fits in its field is read back, whatever follows. -/
theorem word?_littleEndian {width n : Nat} (h : n < Nat.pow 256 width) (rest : Bytes) :
    word? width (littleEndian width n ++ rest) = some (n, rest) := by
  rw [word?_littleEndian_mod, Nat.mod_eq_of_lt h]

/-- A signed number is read back from its two's complement. -/
theorem fromTwos_emod {half : Nat} {d : Int} (lower : -(half : Int) ≤ d) (upper : d < half) :
    fromTwos half (d % (2 * half : Nat)).toNat = d := by
  unfold fromTwos
  rcases Int.lt_or_le d 0 with negative | positive
  · have residue : d % ((2 * half : Nat) : Int) = d + (2 * half : Nat) := by
      rw [← Int.add_emod_right, Int.emod_eq_of_lt] <;> omega
    rw [residue, if_neg (by omega)]
    omega
  · have residue : d % ((2 * half : Nat) : Int) = d := Int.emod_eq_of_lt positive (by omega)
    rw [residue, if_pos (by omega)]
    omega

/-- A power of 256 is twice the bound of signed numbers of this width. -/
theorem pow_256 {width : Nat} (h : 0 < width) :
    Nat.pow 256 width = 2 * Nat.pow 2 (8 * width - 1) := by
  obtain ⟨k, hk⟩ : ∃ k, 8 * width = k + 1 := ⟨8 * width - 1, by omega⟩
  have bits : Nat.pow 256 width = Nat.pow 2 (8 * width) := (Nat.pow_mul 2 8 width).symm
  rw [bits, hk]
  exact Nat.pow_succ'

/-- **A signed number is read back**, if it is in the range of its width. -/
theorem int?_signed {width : Nat} (hw : 0 < width) {d : Int}
    (lower : -(Nat.pow 2 (8 * width - 1) : Nat) ≤ d) (upper : d < (Nat.pow 2 (8 * width - 1) : Nat))
    (rest : Bytes) : int? width (signed width d ++ rest) = some (d, rest) := by
  have positive : 0 < Nat.pow 2 (8 * width - 1) := Nat.pow_pos (by decide)
  have residue : (d % (Nat.pow 256 width : Nat)).toNat < Nat.pow 256 width := by
    have whole : (0 : Int) < (Nat.pow 256 width : Nat) := by
      rw [pow_256 hw]
      omega
    have := Int.emod_lt_of_pos d whole
    have := Int.emod_nonneg d (Int.ne_of_gt whole)
    omega
  rw [int?, signed, word?_littleEndian residue, Option.map_some]
  simp only [pow_256 hw, fromTwos_emod lower upper]

/-- A mark in the bits above those of a number is added to it. -/
theorem toNat_mark_or {mark n : UInt32} {i a : Nat} (hm : mark.toNat = Nat.pow 2 i * a)
    (h : n.toNat < Nat.pow 2 i) : (mark ||| n).toNat = mark.toNat + n.toNat := by
  rw [UInt32.toNat_or, hm]
  exact (Nat.two_pow_add_eq_or_of_lt h a).symm

/-- A compressed form of two bytes is read back. -/
theorem compressed?_two {n : Nat} (h : n < 0x4000) (rest : Bytes) :
    compressed? (bigEndian 2 (0x8000 + n) ++ rest) = some (n, rest) := by
  have bytes : bigEndian 2 (0x8000 + n) =
      [UInt8.ofNat ((0x8000 + n) / 256), UInt8.ofNat (0x8000 + n)] := rfl
  have high : (UInt8.ofNat ((0x8000 + n) / 256)).toNat = 0x80 + n / 256 := by
    rw [UInt8.toNat_ofNat']
    omega
  have low : (UInt8.ofNat (0x8000 + n)).toNat = n % 256 := by
    rw [UInt8.toNat_ofNat']
    omega
  have single : [UInt8.ofNat (0x8000 + n)].length = 1 := rfl
  rw [bytes, List.cons_append, compressed?, high, if_neg (by omega), if_pos (by omega),
    split?_append single, Option.map_some]
  simp only [List.reverse_cons, List.reverse_nil, List.nil_append, List.cons_append, value,
    high, low]
  have : n % 256 + 256 * (0x80 + n / 256 + 256 * 0) - 0x8000 = n := by omega
  rw [this]

/-- A compressed form of four bytes is read back. -/
theorem compressed?_four {n : Nat} (h : n < 0x20000000) (rest : Bytes) :
    compressed? (bigEndian 4 (0xC0000000 + n) ++ rest) = some (n, rest) := by
  obtain ⟨b, low, hb, hl, top⟩ : ∃ b low, bigEndian 4 (0xC0000000 + n) = b :: low ∧
      low.length = 3 ∧ b = UInt8.ofNat ((0xC0000000 + n) / 256 / 256 / 256) :=
    ⟨_, _, rfl, rfl, rfl⟩
  have high : b.toNat = 0xC0 + n / 0x1000000 := by
    rw [top, UInt8.toNat_ofNat']
    omega
  have whole : low.reverse ++ [b] = littleEndian 4 (0xC0000000 + n) := by
    rw [← List.reverse_cons, ← hb, bigEndian, List.reverse_reverse]
  rw [hb, List.cons_append, compressed?, if_neg (by omega), if_neg (by omega),
    if_pos (by omega), split?_append hl, Option.map_some]
  simp only [whole, value_littleEndian (show 0xC0000000 + n < Nat.pow 256 4 by
    show _ < 0x100000000
    omega), Nat.add_sub_cancel_left]

/-- **A compressed number is read back**, if it has a compressed form of its own. -/
theorem compressed?_compressed {n : UInt32} (h : n.toNat < 0x20000000) (rest : Bytes) :
    compressed? (compressed n ++ rest) = some (n.toNat, rest) := by
  unfold compressed
  split
  · rename_i small
    have small : n.toNat < 0x80 := UInt32.lt_iff_toNat_lt.1 small
    have byte : n.toUInt8.toNat = n.toNat := by
      rw [UInt32.toNat_toUInt8]
      omega
    rw [List.cons_append, List.nil_append, compressed?, byte, if_pos small]
  · split
    · rename_i medium
      have medium : n.toNat < 0x4000 := UInt32.lt_iff_toNat_lt.1 medium
      rw [toNat_mark_or (i := 14) (a := 2) rfl medium]
      exact compressed?_two medium rest
    · rw [toNat_mark_or (i := 30) (a := 3) rfl (Nat.lt_trans h (by decide))]
      exact compressed?_four h rest

/-- **A compressed number is read back**, whatever follows. -/
theorem compressed?_compressedLength {n : Nat} (h : n < 0x20000000) (rest : Bytes) :
    compressed? (compressedLength n ++ rest) = some (n, rest) := by
  have word : (UInt32.ofNat n).toNat = n := by
    rw [UInt32.toNat_ofNat']
    omega
  have read := compressed?_compressed (n := UInt32.ofNat n) (by rwa [word]) rest
  rwa [word] at read

end Bytes
end HookImage
