/-
# Runs of bytes

Fixed-width numbers in both byte orders, padding, and the compressed form of small
numbers.  A compressed number takes one, two or four bytes, and the high bits of the
first byte tell which.
-/

namespace HookImage

/-- A run of bytes. -/
abbrev Bytes := List UInt8

namespace Bytes

/-- The `width` lowest bytes of a number, the lowest first. -/
def littleEndian (width n : Nat) : Bytes :=
  match width with
  | 0 => []
  | width + 1 => UInt8.ofNat n :: littleEndian width (n / 256)

/-- The `width` lowest bytes of a number, the highest first. -/
def bigEndian (width n : Nat) : Bytes := (littleEndian width n).reverse

/-- A signed number in two's complement, the lowest byte first. -/
def signed (width : Nat) (i : Int) : Bytes :=
  littleEndian width (i % (Nat.pow 256 width : Nat)).toNat

/-- The bytes of a text in UTF-8. -/
def utf8 (s : String) : Bytes := s.toUTF8.data.toList

/-- How many bytes bring a length to a multiple of `step`. -/
def padding (step length : Nat) : Nat := (step - length % step) % step

/-- The least multiple of `step` that is not below `n`. -/
def roundUp (step n : Nat) : Nat := n + padding step n

/-- A run filled up with zeros to a multiple of `step`. -/
def aligned (step : Nat) (bytes : Bytes) : Bytes :=
  bytes ++ List.replicate (padding step bytes.length) 0

/-- The compressed form of a number: one byte below `0x80`, two below `0x4000`, and
four from there on, the highest byte first.  Numbers of `2 ^ 29` or more have no
compressed form of their own: they lose bits to the mark of the four-byte form. -/
def compressed (n : UInt32) : Bytes :=
  if n < 0x80 then [n.toUInt8]
  else if n < 0x4000 then bigEndian 2 (0x8000 ||| n).toNat
  else bigEndian 4 (0xC0000000 ||| n).toNat

/-- The compressed form of a length. -/
def compressedLength (n : Nat) : Bytes := compressed (UInt32.ofNat n)

end Bytes
end HookImage
