/-
# The shortest decimal of a binary fraction

A floating-point value stands for every real that rounds to it.  The text of the
value is the decimal with the fewest digits among those reals; of two with the
same number of digits the nearer one, and the upper one when both are equally near.
It is written positionally whatever its size, and a whole number has no point.

A finite value is `m * 2 ^ q`.  Scaled by a power of ten that clears the
denominator, the value and the two ends of its interval are natural numbers, so
everything below is exact.
-/

namespace HookImage
namespace Text

/-- A binary interchange format: how many bits hold the fraction and how many the
exponent. -/
structure BinaryFormat where
  fractionBits : Nat
  exponentBits : Nat

/-- The 32-bit format. -/
def binary32 : BinaryFormat := ⟨23, 8⟩

/-- The 64-bit format. -/
def binary64 : BinaryFormat := ⟨52, 11⟩

/-- What a bit pattern stands for. -/
inductive BinaryValue where
  /-- Not a number. -/
  | nan
  /-- An infinity, with its sign. -/
  | infinite (negative : Bool)
  /-- The value `mantissa * 2 ^ exponent`, with its sign.  `tight` marks the lowest
  value of a binade above the first, whose lower neighbour is only half as far away
  as its upper one. -/
  | finite (negative : Bool) (mantissa : Nat) (exponent : Int) (tight : Bool)

/-- Splits a bit pattern into sign, exponent and fraction. -/
def BinaryFormat.decode (f : BinaryFormat) (bits : Nat) : BinaryValue :=
  let power (n : Nat) : Nat := Nat.pow 2 n
  let fraction := bits % power f.fractionBits
  let exponent := bits / power f.fractionBits % power f.exponentBits
  let negative := bits / power (f.fractionBits + f.exponentBits) % 2 == 1
  let bias : Int := power (f.exponentBits - 1) - 1 + f.fractionBits
  if exponent == power f.exponentBits - 1 then
    if fraction == 0 then .infinite negative else .nan
  else if exponent == 0 then .finite negative fraction (1 - bias) false
  else .finite negative (power f.fractionBits + fraction) (exponent - bias)
    (fraction == 0 && exponent > 1)

/-- A decimal `digits * 10 ^ exponent`. -/
structure Decimal where
  digits : Nat
  exponent : Int

/-- The point of the grid of multiples of `10 ^ j` that lies in the interval and is
nearest to `v`, as a multiple.  Only the two neighbours of `v` can be it. -/
def nearestOnGrid (inside : Nat → Bool) (v j : Nat) : Option Nat :=
  let step := Nat.pow 10 j
  let below := v / step
  let downward := v - below * step
  let upward := (below + 1) * step - v
  match inside (below * step), inside ((below + 1) * step) with
  | true, true => some (if upward ≤ downward then below + 1 else below)
  | true, false => some below
  | false, true => some (below + 1)
  | false, false => none

/-- The shortest decimal that reads back as `m * 2 ^ q`, for `m > 0`. -/
def shortest (m : Nat) (q : Int) (tight : Bool) : Decimal :=
  let scale := (2 - q).toNat
  let unit := Nat.pow 2 (q - 2).toNat * Nat.pow 5 scale
  let v := 4 * m * unit
  let low := (4 * m - if tight then 1 else 2) * unit
  let high := (4 * m + 2) * unit
  let inside (x : Nat) : Bool :=
    if m % 2 == 0 then low ≤ x && x ≤ high else low < x && x < high
  let length := (Nat.toDigits 10 v).length
  let grids := (List.range length).map fun k => length - 1 - k
  match grids.findSome? fun j => (nearestOnGrid inside v j).map fun n => (n, j) with
  | some (n, j) => ⟨n, j - scale⟩
  | none => ⟨v, -scale⟩

/-- The digits of a decimal written out positionally, without zeros at the end of
the fraction. -/
def Decimal.text (d : Decimal) : String :=
  let digits := Nat.toDigits 10 d.digits
  if d.exponent ≥ 0 then
    String.ofList (digits ++ List.replicate d.exponent.toNat '0')
  else
    let places := (-d.exponent).toNat
    let filled := digits.leftpad (places + 1) '0'
    let whole := filled.take (filled.length - places)
    let fraction := (filled.drop (filled.length - places)).reverse.dropWhile (· == '0') |>.reverse
    if fraction.isEmpty then String.ofList whole
    else String.ofList (whole ++ '.' :: fraction)

/-- The text of a bit pattern in a binary format. -/
def BinaryFormat.text (f : BinaryFormat) (bits : Nat) : String :=
  let sign (negative : Bool) := if negative then "-" else ""
  match f.decode bits with
  | .nan => "NaN"
  | .infinite negative => sign negative ++ "inf"
  | .finite negative m q tight =>
    sign negative ++ if m == 0 then "0" else (shortest m q tight).text

example : binary64.text 0x3FF8000000000000 = "1.5" ∧ binary32.text 0x3DCCCCCD = "0.1" ∧
    binary64.text 0x8000000000000000 = "-0" := by
  decide +kernel

end Text
end HookImage
