/-
# Texts that are the same but for the case of letters

Two texts are the same but for the case of the letters A to Z if their characters are, one by
one (`sameName_iff`).  Such texts have equally many bytes, because only characters of one byte
have a case here.  So looking at as many bytes as a text has tells whether another one begins with
it, whatever characters the other one has there (`beginsWith_iff`).
-/

import Mathlib
import HookImage.Text.AsciiCase

namespace HookImage
namespace Text

/-- Whether two characters are the same but for the case of a letter from A to Z. -/
inductive SameLetter : Char → Char → Prop
  | same (c : Char) : SameLetter c c
  | lower {c d : Char} (first : 'A' ≤ c) (last : c ≤ 'Z') (apart : d.toNat = c.toNat + 32) :
    SameLetter c d
  | upper {c d : Char} (first : 'A' ≤ d) (last : d ≤ 'Z') (apart : c.toNat = d.toNat + 32) :
    SameLetter c d

/-- Whether two texts have the same characters but for the case of the letters A to Z. -/
def SameLetters (s t : String) : Prop := List.Forall₂ SameLetter s.toList t.toList

/-! ### Characters -/

/-- Lowering adds 32 to a capital letter and changes nothing else. -/
theorem toNat_toLower (c : Char) :
    c.toLower.toNat = if 65 ≤ c.toNat ∧ c.toNat ≤ 90 then c.toNat + 32 else c.toNat := by
  have letter : (c.val ≥ 'A'.val ∧ c.val ≤ 'Z'.val) ↔ 65 ≤ c.toNat ∧ c.toNat ≤ 90 := Iff.rfl
  unfold Char.toLower
  split
  · rename_i h
    have few := (letter.1 h).2
    rw [if_pos (letter.1 h)]
    show (c.val + ('a'.val - 'A'.val)).toNat = c.toNat + 32
    rw [UInt32.toNat_add]
    show (c.toNat + 32) % 0x100000000 = c.toNat + 32
    omega
  · rename_i h
    rw [if_neg (mt letter.2 h)]

/-- Characters are the same but for the case of a letter exactly if they have one lower case. -/
theorem sameLetter_iff {c d : Char} : SameLetter c d ↔ c.toLower = d.toLower := by
  rw [← Char.toNat_inj, toNat_toLower, toNat_toLower]
  constructor
  · intro h
    cases h with
    | same => rfl
    | lower first last apart =>
      have first : 65 ≤ c.toNat := first
      have last : c.toNat ≤ 90 := last
      rw [if_pos ⟨first, last⟩, if_neg (by omega), apart]
    | upper first last apart =>
      have first : 65 ≤ d.toNat := first
      have last : d.toNat ≤ 90 := last
      rw [if_neg (by omega), if_pos ⟨first, last⟩, apart]
  · intro h
    split at h <;> split at h
    · obtain rfl : c = d := Char.toNat_inj.1 (by omega)
      exact .same c
    · rename_i letter _
      exact .lower letter.1 letter.2 h.symm
    · rename_i letter
      exact .upper letter.1 letter.2 h
    · obtain rfl : c = d := Char.toNat_inj.1 h
      exact .same c

/-- Letters have one byte in either case. -/
theorem SameLetter.utf8Size_eq {c d : Char} (h : SameLetter c d) : c.utf8Size = d.utf8Size := by
  have one {c : Char} (h : c.toNat ≤ 127) : c.utf8Size = 1 := Char.utf8Size_eq_one_iff.2 h
  cases h with
  | same => rfl
  | lower first last apart =>
    have last : c.toNat ≤ 90 := last
    rw [one (c := c) (by omega), one (c := d) (by omega)]
  | upper first last apart =>
    have last : d.toNat ≤ 90 := last
    rw [one (c := c) (by omega), one (c := d) (by omega)]

/-! ### Texts -/

/-- Names are compared letter by letter, whatever their case. -/
theorem sameName_iff {s t : String} : sameName s t ↔ SameLetters s t := by
  rw [sameName, beq_iff_eq, ← String.toList_inj, foldCase, foldCase, String.toList_map,
    String.toList_map, ← List.forall₂_eq_eq_eq, List.forall₂_map_left_iff,
    List.forall₂_map_right_iff]
  simp only [SameLetters, ← sameLetter_iff]

/-- The same letters take the same bytes. -/
theorem SameLetters.utf8ByteSize_eq {s t : String} (h : SameLetters s t) :
    s.utf8ByteSize = t.utf8ByteSize := by
  have sizes {cs ds : List Char} (h : List.Forall₂ SameLetter cs ds) :
      (String.ofList cs).utf8ByteSize = (String.ofList ds).utf8ByteSize := by
    induction h with
    | nil => rfl
    | @cons c d cs ds head _ ih =>
      rw [← List.singleton_append, ← List.singleton_append (x := d), String.ofList_append,
        String.ofList_append, String.utf8ByteSize_append, String.utf8ByteSize_append, ih]
      exact congrArg (· + _) (by simpa using head.utf8Size_eq)
  simpa only [String.ofList_toList] using sizes h

/-- A position is found at its offset. -/
theorem pos?_offset {s : String} (p : s.Pos) : s.pos? p.offset = some p := by
  unfold String.pos? String.Slice.pos?
  have valid : p.offset.isValidForSlice s.toSlice := by simpa using p.isValid
  rw [dif_pos valid]
  rfl

/-- A position that is found at an offset has it. -/
theorem offset_of_pos? {s : String} {offset : String.Pos.Raw} {p : s.Pos}
    (h : s.pos? offset = some p) : p.offset = offset := by
  unfold String.pos? String.Slice.pos? at h
  split at h
  · cases h
    rfl
  · cases h

/-- The first bytes of a text are a text exactly if they are all of some characters in front. -/
theorem leading?_eq_some_iff {s front : String} {size : Nat} :
    leading? s size = some front ↔ front.utf8ByteSize = size ∧ ∃ rest, s = front ++ rest := by
  rw [leading?, Option.map_eq_some_iff]
  constructor
  · rintro ⟨p, found, rfl⟩
    have bytes := p.splits.offset_eq_rawEndPos
    rw [offset_of_pos? found] at bytes
    exact ⟨(congrArg String.Pos.Raw.byteIdx bytes).symm, _, p.splits.eq_append⟩
  · rintro ⟨rfl, rest, rfl⟩
    exact ⟨_, pos?_offset ((front ++ rest).pos front.rawEndPos _),
      String.Pos.splits_append_rawEndPos.copy_sliceTo_eq⟩

/-- **A text begins with another one** exactly if it is that one with something behind it, but for
the case of the letters A to Z. -/
theorem beginsWith_iff {s head : String} :
    beginsWith s head ↔ ∃ front rest, s = front ++ rest ∧ SameLetters front head := by
  rw [beginsWith, Option.any_eq_true]
  simp only [leading?_eq_some_iff, sameName_iff]
  constructor
  · rintro ⟨front, ⟨-, rest, rfl⟩, same⟩
    exact ⟨front, rest, rfl, same⟩
  · rintro ⟨front, rest, rfl, same⟩
    exact ⟨front, ⟨same.utf8ByteSize_eq, rest, rfl⟩, same⟩

end Text
end HookImage
