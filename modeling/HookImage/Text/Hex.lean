/-
# Hexadecimal text

Bytes and numbers in base sixteen, lower case.  A byte always takes two digits;
a padded number takes at least the digits asked for.
-/

namespace HookImage
namespace Text

/-- The two digits of a byte, the high half first. -/
def hexByte (b : UInt8) : String :=
  String.ofList [Nat.digitChar (b.toNat / 16), Nat.digitChar (b.toNat % 16)]

/-- The digits of a run of bytes, with nothing between them. -/
def hexBytes (bytes : List UInt8) : String :=
  String.join (bytes.map hexByte)

/-- The digits of a number, without leading zeros. -/
def hexNat (n : Nat) : String :=
  String.ofList (Nat.toDigits 16 n)

/-- The digits of a number, filled up with zeros on the left to `width` digits. -/
def hexPadded (width n : Nat) : String :=
  String.ofList ((Nat.toDigits 16 n).leftpad width '0')

/-- The digits of a number in base ten, filled up with zeros to `width` digits. -/
def decimalPadded (width n : Nat) : String :=
  String.ofList ((Nat.toDigits 10 n).leftpad width '0')

/-- The value of a digit; upper case counts as lower case. -/
def digitValue? (c : Char) : Option Nat :=
  if '0' ≤ c && c ≤ '9' then some (c.toNat - '0'.toNat)
  else if 'a' ≤ c && c ≤ 'f' then some (c.toNat - 'a'.toNat + 10)
  else if 'A' ≤ c && c ≤ 'F' then some (c.toNat - 'A'.toNat + 10)
  else none

/-- The number that digits stand for. -/
def hexNat? (s : String) : Option Nat :=
  s.toList.foldlM (fun n c => (digitValue? c).map (n * 16 + ·)) 0

/-- The bytes that digits stand for, two for each byte. -/
def hexBytes? (s : String) : Option (Array UInt8) := go #[] s.toList
where
  /-- Adds the bytes of the remaining digits. -/
  go (bytes : Array UInt8) : List Char → Option (Array UInt8)
    | [] => some bytes
    | [_] => none
    | a :: b :: rest =>
      match digitValue? a, digitValue? b with
      | some high, some low => go (bytes.push (UInt8.ofNat (high * 16 + low))) rest
      | _, _ => none

example : hexBytes? "00ff1A" = some #[0x00, 0xFF, 0x1A] ∧ hexBytes? "0" = none ∧
    hexNat? "01000003" = some 0x1000003 := by
  decide +kernel

example : hexByte 0x0A = "0a" ∧ hexPadded 8 0x1000003 = "01000003" ∧ hexNat 255 = "ff" := by
  decide +kernel

end Text
end HookImage
