/-
# Heaps

A heap is one run of bytes in which entries lie one behind the other and are named by
their offsets.  Every heap begins with an empty entry at offset zero, and equal
contents share one entry.

| heap | entry |
| --- | --- |
| names | the text in UTF-8 and a zero byte |
| user strings | compressed length, the text in UTF-16, and a byte that marks unusual text |
| blobs | compressed length and the bytes |
-/

import HookImage.Bytes
import Std.Data.HashMap

namespace HookImage

/-- A run of entries, found again by their contents. -/
structure Heap (κ : Type) [BEq κ] [Hashable κ] where
  data : Array UInt8 := #[0]
  /-- The offset of every content that has an entry. -/
  index : Std.HashMap κ Nat := ∅

namespace Heap

variable {κ : Type} [BEq κ] [Hashable κ]

/-- The offset of a content, whose entry is added if there is none yet.  Offsets are numbers
without a bound.  They are the same as offsets of 32 bits in a heap of fewer than 2³² bytes, and
writing an image refuses larger ones (`Image.write`).  Drafting it alone does not
(`Draft.ofImage`), so in a draft that is never written they may differ. -/
def intern (h : Heap κ) (content : κ) (entry : κ → Bytes) : Nat × Heap κ :=
  match h with
  | ⟨data, index⟩ =>
    match index[content]? with
    | some offset => (offset, ⟨data, index⟩)
    | none =>
      let offset := data.size
      (offset, ⟨data ++ entry content, index.insert content offset⟩)

end Heap

/-- The heap of names. -/
abbrev NameHeap := Heap String

/-- The heap of string literals. -/
abbrev LiteralHeap := Heap String

/-- The heap of blobs. -/
abbrev BlobHeap := Heap Bytes

/-- A name as an entry. -/
def NameHeap.entry (s : String) : Bytes := Bytes.utf8 s ++ [0]

/-- The offset of a name.  The empty name is the entry at zero. -/
def NameHeap.add (h : NameHeap) (s : String) : Nat × NameHeap :=
  if s.isEmpty then (0, h) else h.intern s NameHeap.entry

namespace LiteralHeap

/-- The units of a character in UTF-16: one, or two for a character beyond the first
65536. -/
def unitsOfChar (c : Char) : List Nat :=
  let n := c.toNat
  if n < 0x10000 then [n]
  else [0xD800 + (n - 0x10000) / 0x400, 0xDC00 + (n - 0x10000) % 0x400]

/-- The units of a text in UTF-16. -/
def units (s : String) : List Nat := s.toList.flatMap unitsOfChar

/-- Whether a unit makes its text unusual: it has a high byte, or it is delete, an
apostrophe, a hyphen, or a control other than NUL, tab, line feed, vertical tab, form
feed and carriage return. -/
def isUnusual (unit : Nat) : Bool :=
  unit > 0x7E || (0x01 ≤ unit && unit ≤ 0x08) || (0x0E ≤ unit && unit ≤ 0x1F) ||
    unit == 0x27 || unit == 0x2D

/-- A literal without its length. -/
def content (s : String) : Bytes :=
  let us := units s
  us.flatMap (Bytes.littleEndian 2) ++ [if us.any isUnusual then 1 else 0]

/-- A literal as an entry. -/
def entry (s : String) : Bytes :=
  let bytes := content s
  Bytes.compressedLength bytes.length ++ bytes

/-- The offset of a literal.  The empty literal has an entry of its own. -/
def add (h : LiteralHeap) (s : String) : Nat × LiteralHeap := h.intern s entry

end LiteralHeap

namespace BlobHeap

/-- A blob as an entry. -/
def entry (blob : Bytes) : Bytes := Bytes.compressedLength blob.length ++ blob

/-- The offset of a blob.  The empty blob is the entry at zero. -/
def add (h : BlobHeap) (blob : Bytes) : Nat × BlobHeap :=
  if blob.isEmpty then (0, h) else h.intern blob entry

end BlobHeap
end HookImage
