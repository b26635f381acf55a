/-
# SHA-1

The digest that identifies a written module: messages are padded to blocks of 64 bytes,
and each block is mixed into five words of 32 bits over eighty rounds.
-/

import HookImage.Bytes

namespace HookImage
namespace Sha1

/-- The running digest. -/
structure Words where
  a : UInt32
  b : UInt32
  c : UInt32
  d : UInt32
  e : UInt32

/-- The digest of nothing yet. -/
def initial : Words := ⟨0x67452301, 0xEFCDAB89, 0x98BADCFE, 0x10325476, 0xC3D2E1F0⟩

/-- Turns a word to the left. -/
def rotate (n : UInt32) (x : UInt32) : UInt32 := (x <<< n) ||| (x >>> (32 - n))

/-- The message with a bit at its end, zeros up to eight bytes short of a block, and its
length in bits. -/
def padded (message : Bytes) : Bytes :=
  let length := message.length
  message ++ 0x80 :: List.replicate (Bytes.padding 64 (length + 9)) 0 ++
    Bytes.bigEndian 8 (8 * length)

/-- The words of a block, the highest byte of each first. -/
def wordsOf : Bytes → Array UInt32 → Array UInt32
  | w :: x :: y :: z :: rest, acc =>
    wordsOf rest (acc.push
      ((w.toUInt32 <<< 24) ||| (x.toUInt32 <<< 16) ||| (y.toUInt32 <<< 8) ||| z.toUInt32))
  | _, acc => acc

/-- Extends the words of a block: each new word is mixed from four earlier ones. -/
def extend (w : Array UInt32) (i : Nat) : Array UInt32 :=
  let at_ (k : Nat) : UInt32 := w.getD (i - k) 0
  w.push (rotate 1 (at_ 3 ^^^ at_ 8 ^^^ at_ 14 ^^^ at_ 16))

/-- The eighty words of a block. -/
def schedule (block : Bytes) : Array UInt32 :=
  (List.range' 16 64).foldl extend (wordsOf block #[])

/-- The function and the constant of a round. -/
def mix (i : Nat) (b c d : UInt32) : UInt32 × UInt32 :=
  if i < 20 then ((b &&& c) ||| (~~~b &&& d), 0x5A827999)
  else if i < 40 then (b ^^^ c ^^^ d, 0x6ED9EBA1)
  else if i < 60 then ((b &&& c) ||| (b &&& d) ||| (c &&& d), 0x8F1BBCDC)
  else (b ^^^ c ^^^ d, 0xCA62C1D6)

/-- A round. -/
def round (w : Array UInt32) (s : Words) (i : Nat) : Words :=
  let (f, k) := mix i s.b s.c s.d
  ⟨rotate 5 s.a + f + s.e + k + w.getD i 0, s.a, rotate 30 s.b, s.c, s.d⟩

/-- Mixes a block into the digest. -/
def absorb (s : Words) (block : Bytes) : Words :=
  let w := schedule block
  let t := (List.range 80).foldl (round w) s
  ⟨s.a + t.a, s.b + t.b, s.c + t.c, s.d + t.d, s.e + t.e⟩

/-- Mixes in a number of blocks. -/
def absorbAll : Nat → Words → Bytes → Words
  | 0, s, _ => s
  | n + 1, s, bytes => absorbAll n (absorb s (bytes.take 64)) (bytes.drop 64)

/-- The twenty bytes of the digest. -/
def digest (message : Bytes) : Bytes :=
  let bytes := padded message
  let s := absorbAll (bytes.length / 64) initial bytes
  [s.a, s.b, s.c, s.d, s.e].flatMap fun word => Bytes.bigEndian 4 word.toNat

end Sha1
end HookImage
