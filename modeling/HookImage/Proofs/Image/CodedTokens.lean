/-
# Tokens in coded columns

A coded number has the tag of a table in its low bits and a row in the bits above them.  A tag is
never too long for its bits and a row has 24 bits, so 32 bits hold both, and nothing of the row is
lost when it is shifted (`CodedIndex.toNat_word`).  No table has two tags, so the number tells the
token (`CodedIndex.encode_eq_ok_iff_decode?`).

A signature has tags of its own for the tables of types.  The number that it writes for a token is
the coded one nevertheless (`Blob.typeToken_eq_ok_iff`).
-/

import Mathlib
import HookImage.Image.Tables
import HookImage.Proofs.Signature.ReadBack

namespace HookImage

/-- A token is in a table if it has its number. -/
theorem Token.table?_eq_some_iff {t : Token} {table : TableId} :
    t.table? = some table ↔ t.tableNumber = table.number := by
  constructor
  · intro h
    exact (TableId.number_of_ofNumber? h).symm
  · intro h
    rw [table?, h, TableId.ofNumber?_number]

namespace CodedIndex

variable {kind : CodedIndex} {table : TableId} {tag n : Nat} {t : Token}

/-- The token that a coded number stands for: the low bits tell its table, and the bits above them
are its row. -/
def decode? (kind : CodedIndex) (n : Nat) : Option Token :=
  (kind.tables[n % 2 ^ kind.tagBits]?).join.map fun table => .ofRow table (n >>> kind.tagBits)

/-! ### Tags -/

/-- No table stands twice among those of a kind; only gaps do. -/
theorem tables_distinct (kind : CodedIndex) : kind.tables.Pairwise fun a b => a = none ∨ a ≠ b := by
  cases kind <;> decide

/-- The tag of a table is where it stands. -/
theorem tag?_eq_some_iff : kind.tag? table = some tag ↔ kind.tables[tag]? = some (some table) := by
  rw [tag?, List.findIdx?_eq_some_iff_getElem, List.getElem?_eq_some_iff]
  constructor
  · rintro ⟨inside, here, -⟩
    exact ⟨inside, eq_of_beq here⟩
  · rintro ⟨inside, here⟩
    refine ⟨inside, beq_iff_eq.2 here, fun i before same => ?_⟩
    have same := eq_of_beq same
    rcases List.pairwise_iff_getElem.1 kind.tables_distinct i tag _ inside before with gap | other
    · cases gap.symm.trans same
    · exact other (same.trans here.symm)

/-- The tag of a table fits in the bits for it. -/
theorem tag_lt (h : kind.tables[tag]? = some (some table)) : tag < 2 ^ kind.tagBits := by
  obtain ⟨inside, -⟩ := List.getElem?_eq_some_iff.1 h
  have few : kind.tables.length ≤ 2 ^ kind.tagBits := by cases kind <;> decide
  exact Nat.lt_of_lt_of_le inside few

/-! ### Coded numbers -/

/-- Encoding with a reason for failure and without one succeed alike. -/
theorem encode_eq_ok_iff_encode? : kind.encode t = .ok n ↔ kind.encode? t = some n := by
  unfold encode
  split
  · rename_i m known
    rw [known]
    exact ⟨fun h => congrArg some (Except.ok.inj h), fun h => congrArg _ (Option.some.inj h)⟩
  · rename_i unknown
    rw [unknown]
    constructor <;> (intro h; cases h)

/-- A coded number is the row, shifted, with the tag of the table below it. -/
theorem encode_eq_ok_iff : kind.encode t = .ok n ↔ ∃ table tag, t.tableNumber = table.number ∧
    kind.tables[tag]? = some (some table) ∧ n = (t.row <<< kind.tagBits) + tag := by
  rw [encode_eq_ok_iff_encode?, encode?]
  simp only [Option.bind_eq_bind, Option.bind_eq_some_iff, Token.table?_eq_some_iff,
    tag?_eq_some_iff, Option.pure_def, Option.some.injEq]
  constructor
  · rintro ⟨table, own, tag, stands, rfl⟩
    exact ⟨table, tag, own, stands, rfl⟩
  · rintro ⟨table, tag, own, stands, rfl⟩
    exact ⟨table, own, tag, stands, rfl⟩

/-- **A token has a coded number exactly if its table is one of the kind's.** -/
theorem exists_encode_eq_ok : (∃ n, kind.encode t = .ok n) ↔
    ∃ table, t.table? = some table ∧ some table ∈ kind.tables := by
  simp only [encode_eq_ok_iff, Token.table?_eq_some_iff]
  constructor
  · rintro ⟨n, table, tag, own, stands, -⟩
    exact ⟨table, own, List.mem_of_getElem? stands⟩
  · rintro ⟨table, own, listed⟩
    obtain ⟨tag, stands⟩ := List.getElem?_of_mem listed
    exact ⟨_, table, tag, own, stands, rfl⟩

/-- Two bytes hold a row with its tag exactly if it is one of the first rows, and four hold any. -/
theorem shift_lt {row : Nat} (htag : tag < 2 ^ kind.tagBits) (hrow : row < 0x1000000) :
    ((row <<< kind.tagBits) + tag < 0x10000 ↔ row < 0x10000 >>> kind.tagBits) ∧
      (row <<< kind.tagBits) + tag < 0x100000000 := by
  cases kind <;>
    simp only [tagBits, Nat.shiftLeft_eq, Nat.shiftRight_eq_div_pow] at htag ⊢ <;> omega

/-- **Nothing is lost in 32 bits**: shifting a row keeps all its bits, and the tag has room below. -/
theorem toNat_word (room : tag < 2 ^ kind.tagBits) :
    ((t.word &&& 0xFFFFFF) <<< UInt32.ofNat kind.tagBits ||| UInt32.ofNat tag).toNat =
      (t.row <<< kind.tagBits) + tag := by
  have row : (t.word &&& 0xFFFFFF).toNat = t.row := by
    rw [UInt32.toNat_and]
    exact Nat.and_two_pow_sub_one_eq_mod t.word.toNat 24
  have few : kind.tagBits ≤ 5 := by cases kind <;> decide
  have small : 2 ^ kind.tagBits ≤ 2 ^ 5 := Nat.pow_le_pow_right (by decide) few
  have bits : (UInt32.ofNat kind.tagBits).toNat = kind.tagBits := by
    rw [UInt32.toNat_ofNat']
    omega
  have low : (UInt32.ofNat tag).toNat = tag := by
    rw [UInt32.toNat_ofNat']
    omega
  have fits : t.row <<< kind.tagBits < 2 ^ 32 :=
    Nat.lt_of_le_of_lt (Nat.le_add_right _ tag) (shift_lt room t.row_lt).2
  have shift : kind.tagBits % 32 = kind.tagBits := Nat.mod_eq_of_lt (by omega)
  rw [UInt32.toNat_or, UInt32.toNat_shiftLeft, row, bits, low, shift, Nat.mod_eq_of_lt fits]
  exact (Nat.shiftLeft_add_eq_or_of_lt room t.row).symm

/-- The tag is what the low bits are, and the row what stands above them. -/
theorem shift_parts (row : Nat) (room : tag < 2 ^ kind.tagBits) :
    ((row <<< kind.tagBits) + tag) % 2 ^ kind.tagBits = tag ∧
      ((row <<< kind.tagBits) + tag) >>> kind.tagBits = row := by
  rw [Nat.shiftRight_eq_div_pow, Nat.shiftLeft_eq]
  constructor
  · rw [Nat.mul_add_mod_self_right, Nat.mod_eq_of_lt room]
  · rw [Nat.add_comm, Nat.add_mul_div_right _ _ (Nat.two_pow_pos _), Nat.div_eq_of_lt room,
      Nat.zero_add]

/-- A coded number fits in its bits exactly if its row fits in a token. -/
theorem lt_pow_iff : n < 2 ^ (24 + kind.tagBits) ↔ n >>> kind.tagBits < 0x1000000 := by
  rw [Nat.shiftRight_eq_div_pow, Nat.div_lt_iff_lt_mul (Nat.two_pow_pos _), Nat.pow_add]

/-- **The coded number tells the token**, and every number of its size that tells one is coded. -/
theorem encode_eq_ok_iff_decode? :
    kind.encode t = .ok n ↔ n < 2 ^ (24 + kind.tagBits) ∧ kind.decode? n = some t := by
  rw [encode_eq_ok_iff, decode?, Option.map_eq_some_iff]
  simp only [Option.join_eq_some_iff]
  constructor
  · rintro ⟨table, tag, own, stands, rfl⟩
    obtain ⟨low, row⟩ := shift_parts t.row (tag_lt stands)
    refine ⟨lt_pow_iff.2 (row.symm ▸ t.row_lt), table, by rw [low, stands], ?_⟩
    rw [row]
    exact Token.ofRow_row (Token.table?_eq_some_iff.2 own)
  · rintro ⟨small, table, stands, rfl⟩
    have above := lt_pow_iff.1 small
    refine ⟨table, _, Token.tableNumber_ofRow .., stands, ?_⟩
    rw [Token.row_ofRow, Nat.mod_eq_of_lt above, Nat.shiftRight_eq_div_pow, Nat.shiftLeft_eq,
      Nat.mul_comm]
    exact (Nat.div_add_mod ..).symm

/-- The last row that a token can name, in the table with the highest tag. -/
example : hasCustomAttribute.encode ⟨0x2BFFFFFF⟩ = .ok 0x1FFFFFF5 ∧
    hasCustomAttribute.decode? 0x1FFFFFF5 = some ⟨0x2BFFFFFF⟩ := ⟨rfl, by decide⟩

end CodedIndex

/-! ### Tokens in signatures -/

namespace Blob

variable {t : Token} {bytes : Bytes}

/-- The tags in signatures are those of the columns of types. -/
theorem typeTag?_eq (table : TableId) :
    typeTag? table = (CodedIndex.typeDefOrRef.tag? table).map UInt32.ofNat := by
  cases table <;> rfl

/-- A tag joined to a row by words is added to the shifted row. -/
theorem row_or_tag (t : Token) {tag : Nat} (room : tag < 4) :
    UInt32.ofNat (t.row * 4) ||| UInt32.ofNat tag = UInt32.ofNat ((t.row <<< 2) + tag) := by
  have row := t.row_lt
  have low : (UInt32.ofNat tag).toNat = tag := by
    rw [UInt32.toNat_ofNat']
    omega
  have shifted : t.row <<< 2 = t.row * 4 := Nat.shiftLeft_eq ..
  apply UInt32.toNat_inj.1
  rw [SignatureReader.toNat_row_or_tag row (low.symm ▸ room), low, shifted, UInt32.toNat_ofNat']
  omega

/-- **A signature writes the coded number of a token**, in compressed form. -/
theorem typeToken_eq_ok_iff : typeToken t = .ok bytes ↔
    ∃ n, CodedIndex.typeDefOrRef.encode t = .ok n ∧ bytes = Bytes.compressedLength n := by
  simp only [CodedIndex.encode_eq_ok_iff]
  constructor
  · intro written
    unfold typeToken at written
    split at written
    · rename_i word found
      cases written
      obtain ⟨table, own, tagged⟩ := Option.bind_eq_some_iff.1 found
      rw [typeTag?_eq] at tagged
      obtain ⟨tag, stands, rfl⟩ := Option.map_eq_some_iff.1 tagged
      have stands := CodedIndex.tag?_eq_some_iff.1 stands
      exact ⟨_, ⟨table, tag, Token.table?_eq_some_iff.1 own, stands, rfl⟩,
        congrArg Bytes.compressed (row_or_tag t (CodedIndex.tag_lt stands))⟩
    · cases written
  · rintro ⟨n, ⟨table, tag, own, stands, rfl⟩, rfl⟩
    have found : t.table?.bind typeTag? = some (UInt32.ofNat tag) := by
      rw [Token.table?_eq_some_iff.2 own, Option.bind_some, typeTag?_eq,
        CodedIndex.tag?_eq_some_iff.2 stands, Option.map_some]
    rw [typeToken, found]
    exact congrArg (Except.ok <| Bytes.compressed ·) (row_or_tag t (CodedIndex.tag_lt stands))

end Blob

/-- **Coded numbers lose nothing, and signatures agree with columns.**  A column of a kind has a
number for a token exactly if the table of the token is one of the kind's.  Row and tag are joined
in 32 bits, and what comes out tells the table by its low bits and the row by the others, so it
tells the token.  A signature has a form for a token exactly if the columns of types have a number
for it, and what is read back from the form is this number. -/
theorem CodedIndex.encode_lossless (t : Token) :
    (∀ kind : CodedIndex,
      ((∃ n, kind.encode t = .ok n) ↔
        ∃ table, t.tableNumber = table.number ∧ some table ∈ kind.tables) ∧
      ∀ n,
        (kind.encode t = .ok n ↔ ∃ table tag, t.tableNumber = table.number ∧
          kind.tables[tag]? = some (some table) ∧ n = ((t.word &&& 0xFFFFFF) <<<
            UInt32.ofNat kind.tagBits ||| UInt32.ofNat tag).toNat) ∧
        (kind.encode t = .ok n ↔ n < 2 ^ (24 + kind.tagBits) ∧ kind.decode? n = some t)) ∧
    ((∃ bytes, Blob.typeToken t = .ok bytes) ↔ ∃ n, typeDefOrRef.encode t = .ok n) ∧
    ∀ n, typeDefOrRef.encode t = .ok n ↔ ∃ bytes, Blob.typeToken t = .ok bytes ∧
      ∀ rest, Bytes.compressed? (bytes ++ rest) = some (n, rest) := by
  refine ⟨fun kind => ⟨?tables, fun n => ⟨?word, encode_eq_ok_iff_decode?⟩⟩, ?written, fun n => ?read⟩
  case tables =>
    simp only [exists_encode_eq_ok, Token.table?_eq_some_iff]
  case word =>
    rw [encode_eq_ok_iff]
    refine exists₂_congr fun table tag => and_congr_right fun _ => and_congr_right fun stands => ?_
    rw [toNat_word (tag_lt stands)]
  case written =>
    simp only [Blob.typeToken_eq_ok_iff]
    exact ⟨fun ⟨_, n, coded, _⟩ => ⟨n, coded⟩, fun ⟨n, coded⟩ => ⟨_, n, coded, rfl⟩⟩
  case read =>
    have reads {n : Nat} (coded : typeDefOrRef.encode t = .ok n) (rest : Bytes) :
        Bytes.compressed? (Bytes.compressedLength n ++ rest) = some (n, rest) :=
      Bytes.compressed?_compressedLength
        (Nat.lt_trans (encode_eq_ok_iff_decode?.1 coded).1 (by decide)) rest
    simp only [Blob.typeToken_eq_ok_iff]
    constructor
    · intro coded
      exact ⟨_, ⟨n, coded, rfl⟩, reads coded⟩
    · rintro ⟨_, ⟨m, coded, rfl⟩, back⟩
      cases (back []).symm.trans (reads coded [])
      exact coded

end HookImage
