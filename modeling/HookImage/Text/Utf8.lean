/-
# Reading UTF-8 that may be damaged

Each longest run of bytes that begins like a character and does not go on like one is
read as a single replacement character, and so is every byte that cannot begin one.
-/

namespace HookImage
namespace Text

/-- The character that stands for bytes that are none. -/
def replacement : Char := Char.ofNat 0xFFFD

/-- Whether a byte goes on with a character. -/
def isContinuation (b : UInt8) : Bool := 0x80 ≤ b && b ≤ 0xBF

/-- Whether a byte can be the second one of a character of three or four bytes, so that
the character is neither too small for its length, nor a surrogate, nor too large. -/
def isSecond (first second : UInt8) : Bool :=
  let low : UInt8 := if first == 0xE0 then 0xA0 else if first == 0xF0 then 0x90 else 0x80
  let high : UInt8 := if first == 0xED then 0x9F else if first == 0xF4 then 0x8F else 0xBF
  low ≤ second && second ≤ high

/-- The six bits that a byte adds to a character. -/
def sixBits (b : UInt8) : Nat := b.toNat % 64

/-- The character that begins with `first`, and how many bytes of `rest` belong to it. -/
def charAt (first : UInt8) (rest : List UInt8) : Char × Nat :=
  if first < 0x80 then (Char.ofNat first.toNat, 0)
  else if 0xC2 ≤ first && first ≤ 0xDF then
    match rest with
    | b :: _ =>
      if isContinuation b then (Char.ofNat (first.toNat % 32 * 64 + sixBits b), 1)
      else (replacement, 0)
    | [] => (replacement, 0)
  else if 0xE0 ≤ first && first ≤ 0xEF then
    match rest with
    | b :: c :: _ =>
      if isSecond first b then
        if isContinuation c then
          (Char.ofNat ((first.toNat % 16 * 64 + sixBits b) * 64 + sixBits c), 2)
        else (replacement, 1)
      else (replacement, 0)
    | [b] => (replacement, if isSecond first b then 1 else 0)
    | [] => (replacement, 0)
  else if 0xF0 ≤ first && first ≤ 0xF4 then
    match rest with
    | b :: c :: d :: _ =>
      if isSecond first b then
        if isContinuation c then
          if isContinuation d then
            (Char.ofNat (((first.toNat % 8 * 64 + sixBits b) * 64 + sixBits c) * 64 + sixBits d), 3)
          else (replacement, 2)
        else (replacement, 1)
      else (replacement, 0)
    | [b, c] =>
      if isSecond first b then (replacement, if isContinuation c then 2 else 1)
      else (replacement, 0)
    | [b] => (replacement, if isSecond first b then 1 else 0)
    | [] => (replacement, 0)
  else (replacement, 0)

/-- The characters of a run of bytes. -/
def decodeChars : List UInt8 → List Char
  | [] => []
  | first :: rest =>
    let (c, n) := charAt first rest
    c :: decodeChars (rest.drop n)
termination_by bytes => bytes.length
decreasing_by simp only [List.length_drop, List.length_cons]; omega

/-- The text of a run of bytes. -/
def decodeUtf8 (bytes : List UInt8) : String := String.ofList (decodeChars bytes)

end Text
end HookImage
