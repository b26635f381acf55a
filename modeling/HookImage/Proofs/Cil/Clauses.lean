/-
# Clauses are read back

Behind its code a body with exception regions has a section: a byte for its kind, three bytes
for its size, and a clause of 24 bytes for each region.

| clause | bytes |
| --- | ---: |
| flags | 4 |
| begin and length of the protected range | 4 + 4 |
| begin and length of the handler | 4 + 4 |
| begin of the filter, token of what is caught, or zero | 4 |

Each clause says of its region where its boundaries lie in the written code (`clause_read`), and
clauses stand one behind the other (`clauses_read`).  A reader learns from the size how many
there are.  The writer accepts sizes of four bytes and writes the three lowest, so the reader
finds all clauses exactly if the size has three bytes (`encode_clauses`): up to 699050
regions.
-/

import Mathlib
import HookImage.Proofs.Cil.Encodable

namespace HookImage

open Bytes Layout

/-! ### Sections -/

/-- A clause as it stands in a section. -/
structure Clause where
  flags : Nat
  tryStart : Nat
  tryLength : Nat
  handlerStart : Nat
  handlerLength : Nat
  /-- Where the filter begins, the token of what is caught, or zero. -/
  extra : Nat

namespace Clause

/-- The words of a clause in their order. -/
def words (c : Clause) : List Nat :=
  [c.flags, c.tryStart, c.tryLength, c.handlerStart, c.handlerLength, c.extra]

/-- A clause of six words. -/
def read? (bytes : Bytes) : Option (Clause × Bytes) := do
  let (flags, bytes) ← word? 4 bytes
  let (tryStart, bytes) ← word? 4 bytes
  let (tryLength, bytes) ← word? 4 bytes
  let (handlerStart, bytes) ← word? 4 bytes
  let (handlerLength, bytes) ← word? 4 bytes
  let (extra, bytes) ← word? 4 bytes
  return (⟨flags, tryStart, tryLength, handlerStart, handlerLength, extra⟩, bytes)

/-- As many clauses as there are to be. -/
def readMany? : Nat → Bytes → Option (List Clause × Bytes)
  | 0, bytes => some ([], bytes)
  | n + 1, bytes => do
    let (c, bytes) ← read? bytes
    let (cs, bytes) ← readMany? n bytes
    return (c :: cs, bytes)

/-- A section of clauses.  Its kind is `0x41`, and its size counts the four bytes of its
header. -/
def readSection? : Bytes → Option (List Clause × Bytes)
  | [] => none
  | kind :: bytes =>
    if kind = 0x41 then do
      let (size, bytes) ← word? 3 bytes
      readMany? ((size - 4) / 24) bytes
    else none

/-- Where a range ends, `start` telling the offsets of instructions.  One without an end reaches
to the end of the code. -/
def stopAt (start : InstrId → Option Nat) (codeSize : Nat) : Option InstrId → Option Nat
  | some id => start id
  | none => some codeSize

/-- What a clause says of its region. -/
structure Describes (start : InstrId → Option Nat) (codeSize : Nat) (c : Clause) (r : Region) :
    Prop where
  flags : c.flags = r.flags.toNat
  tryStart : start r.tryStart = some c.tryStart
  tryEnd : stopAt start codeSize r.tryEnd = some (c.tryStart + c.tryLength)
  handlerStart : start r.handlerStart = some c.handlerStart
  handlerEnd : stopAt start codeSize r.handlerEnd = some (c.handlerStart + c.handlerLength)
  filter : r.isFilter → r.filterStart.bind start = some c.extra
  caught : r.isCatch →
    (r.catchType.bind Region.catchToken?).map (·.word.toNat) = some c.extra
  other : ¬r.isFilter → ¬r.isCatch → c.extra = 0

/-- A clause goes on describing its region where more instructions have an offset. -/
theorem Describes.mono {start start' : InstrId → Option Nat} {codeSize : Nat} {c : Clause}
    {r : Region} (h : c.Describes start codeSize r)
    (more : ∀ id target, start id = some target → start' id = some target) :
    c.Describes start' codeSize r := by
  have stops {stop : Option InstrId} {offset : Nat}
      (hstop : stopAt start codeSize stop = some offset) :
      stopAt start' codeSize stop = some offset := by
    cases stop with
    | none => exact hstop
    | some id => exact more _ _ hstop
  exact {
    flags := h.flags
    tryStart := more _ _ h.tryStart
    tryEnd := stops h.tryEnd
    handlerStart := more _ _ h.handlerStart
    handlerEnd := stops h.handlerEnd
    filter := fun filter => by
      obtain ⟨id, hid, found⟩ := Option.bind_eq_some_iff.1 (h.filter filter)
      exact Option.bind_eq_some_iff.2 ⟨id, hid, more _ _ found⟩
    caught := h.caught
    other := h.other }

end Clause

namespace Encode

open Clause

variable {σ : Type} {b : MethodBody}

/-- The end of a region is the offset of the instruction behind it, or the end of the code. -/
theorem boundary_eq_ok {labels : Labels} {codeSize offset : Nat} {stop : Option InstrId} :
    boundary labels codeSize stop = .ok offset ↔
      stopAt (labels[·]?) codeSize stop = some offset := by
  cases stop with
  | none => exact ⟨fun h => congrArg some (Except.ok.inj h), fun h => congrArg _ (Option.some.inj h)⟩
  | some id => exact offsetOf_eq_ok

/-- A region that catches a type has no filter. -/
theorem not_isFilter_of_isCatch {r : Region} (h : r.isCatch) : ¬r.isFilter := by
  have none : r.flags = 0 := eq_of_beq h
  rw [Region.isFilter, none]
  decide

/-- Six words that have four bytes each are read as a clause. -/
theorem read?_words {c : Clause} (fits : ∀ n ∈ c.words, n < 0x100000000) (rest : Bytes) :
    read? (c.words.flatMap (littleEndian 4) ++ rest) = some (c, rest) := by
  have word {n : Nat} (hn : n < 0x100000000) (rest : Bytes) :
      word? 4 (littleEndian 4 n ++ rest) = some (n, rest) := word?_littleEndian hn rest
  simp only [words, List.forall_mem_cons] at fits
  obtain ⟨h₁, h₂, h₃, h₄, h₅, h₆, -⟩ := fits
  simp [read?, words, word h₁, word h₂, word h₃, word h₄, word h₅, word h₆]

/-- What stands in the last field of a clause. -/
theorem clauseExtra_eq_ok {labels : Labels} {r : Region} {extra : Nat}
    (h : clauseExtra labels r = .ok extra) :
    (r.isFilter ∧ ∃ id, r.filterStart = some id ∧ labels[id]? = some extra) ∨
      (¬r.isFilter ∧ r.isCatch ∧ ∃ token, r.catchType.bind Region.catchToken? = some token ∧
        extra = token.word.toNat) ∨
      (¬r.isFilter ∧ ¬r.isCatch ∧ extra = 0) := by
  unfold clauseExtra at h
  split at h
  · rename_i filter
    split at h
    · rename_i id hid
      exact .inl ⟨filter, id, hid, offsetOf_eq_ok.1 h⟩
    · cases h
  · rename_i filter
    split at h
    · rename_i typed
      split at h
      · rename_i type htype
        split at h
        · rename_i token htoken
          cases h
          exact .inr (.inl ⟨filter, typed, token, by rw [htype]; exact htoken, rfl⟩)
        · cases h
      · cases h
    · rename_i typed
      cases h
      exact .inr (.inr ⟨filter, typed, rfl⟩)

/-- A clause whose last field is what stands there describes its region. -/
theorem describes_of_clauseExtra {labels : Labels} {codeSize tryStop handlerStop : Nat}
    {r : Region} {c : Clause} (flags : c.flags = r.flags.toNat)
    (tryStart : labels[r.tryStart]? = some c.tryStart)
    (tryEnd : stopAt (labels[·]?) codeSize r.tryEnd = some tryStop)
    (handlerStart : labels[r.handlerStart]? = some c.handlerStart)
    (handlerEnd : stopAt (labels[·]?) codeSize r.handlerEnd = some handlerStop)
    (tryLength : c.tryStart + c.tryLength = tryStop)
    (handlerLength : c.handlerStart + c.handlerLength = handlerStop)
    (extra : clauseExtra labels r = .ok c.extra) : c.Describes (labels[·]?) codeSize r := by
  have extras := clauseExtra_eq_ok extra
  exact {
    flags, tryStart, handlerStart
    tryEnd := tryLength ▸ tryEnd
    handlerEnd := handlerLength ▸ handlerEnd
    filter := fun filter => by
      rcases extras with ⟨_, id, hid, found⟩ | ⟨other, _⟩ | ⟨other, _⟩
      · rw [hid]
        exact found
      · exact absurd filter other
      · exact absurd filter other
    caught := fun typed => by
      rcases extras with ⟨filter, _⟩ | ⟨_, _, token, htoken, word⟩ | ⟨_, untyped, _⟩
      · exact absurd filter (not_isFilter_of_isCatch typed)
      · rw [htoken, word]
        rfl
      · exact absurd typed untyped
    other := fun noFilter untyped => by
      rcases extras with ⟨filter, _⟩ | ⟨_, typed, _⟩ | ⟨_, _, zero⟩
      · exact absurd filter noFilter
      · exact absurd typed untyped
      · exact zero }

/-- The last field of a clause has 32 bits. -/
theorem clauseExtra_lt {labels : Labels} {r : Region} {extra : Nat}
    (small : ∀ (id : InstrId) (offset : Nat), labels[id]? = some offset → offset < 0x100000000)
    (h : clauseExtra labels r = .ok extra) : extra < 0x100000000 := by
  rcases clauseExtra_eq_ok h with ⟨_, id, _, found⟩ | ⟨_, _, token, _, rfl⟩ | ⟨_, _, rfl⟩
  · exact small id extra found
  · exact token.word.toNat_lt
  · decide

/-- A clause is six words, which describe its region. -/
theorem clause_words {labels : Labels} {codeSize : Nat} {r : Region} {bytes : Bytes}
    (small : codeSize < 0x100000000)
    (inside : ∀ (id : InstrId) (offset : Nat), labels[id]? = some offset → offset ≤ codeSize)
    (h : clause labels codeSize r = .ok bytes) :
    ∃ c : Clause, c.Describes (labels[·]?) codeSize r ∧ c.words.flatMap (littleEndian 4) = bytes ∧
      ∀ n ∈ c.words, n < 0x100000000 := by
  obtain ⟨tryFirst, hts, h⟩ := bind_eq_ok.1 h
  obtain ⟨tryLast, hte, h⟩ := bind_eq_ok.1 h
  obtain ⟨handlerFirst, hhs, h⟩ := bind_eq_ok.1 h
  obtain ⟨handlerLast, hhe, h⟩ := bind_eq_ok.1 h
  split at h
  · cases h
  rename_i forward
  rw [Bool.or_eq_true, decide_eq_true_eq, decide_eq_true_eq, not_or, Nat.not_lt, Nat.not_lt]
    at forward
  obtain ⟨extra, hextra, h⟩ := bind_eq_ok.1 h
  have hts := offsetOf_eq_ok.1 hts
  have hhs := offsetOf_eq_ok.1 hhs
  have hte := boundary_eq_ok.1 hte
  have hhe := boundary_eq_ok.1 hhe
  have stops {stop : Option InstrId} {offset : Nat}
      (hstop : stopAt (labels[·]?) codeSize stop = some offset) : offset < 0x100000000 := by
    cases stop with
    | none => exact Option.some.inj hstop ▸ small
    | some id => exact Nat.lt_of_le_of_lt (inside id offset hstop) small
  have lt_extra := clauseExtra_lt
    (fun id offset found => Nat.lt_of_le_of_lt (inside id offset found) small) hextra
  refine ⟨⟨r.flags.toNat, tryFirst, tryLast - tryFirst, handlerFirst, handlerLast - handlerFirst,
    extra⟩, ?_, Except.ok.inj h, ?_⟩
  · exact describes_of_clauseExtra rfl hts hte hhs hhe (Nat.add_sub_of_le forward.1)
      (Nat.add_sub_of_le forward.2) hextra
  · simp only [words, List.forall_mem_cons]
    exact ⟨Nat.lt_trans r.flags.toNat_lt (by decide), Nat.lt_of_le_of_lt forward.1 (stops hte),
      Nat.lt_of_le_of_lt (Nat.sub_le ..) (stops hte), Nat.lt_of_le_of_lt forward.2 (stops hhe),
      Nat.lt_of_le_of_lt (Nat.sub_le ..) (stops hhe), lt_extra,
      fun _ h => nomatch h⟩

/-- **A clause is read back**, as far as offsets have four bytes. -/
theorem clause_read {labels : Labels} {codeSize : Nat} {r : Region} {bytes : Bytes}
    (small : codeSize < 0x100000000)
    (inside : ∀ (id : InstrId) (offset : Nat), labels[id]? = some offset → offset ≤ codeSize)
    (h : clause labels codeSize r = .ok bytes) :
    ∃ c : Clause, c.Describes (labels[·]?) codeSize r ∧
      ∀ rest, read? (bytes ++ rest) = some (c, rest) := by
  obtain ⟨c, describes, rfl, fits⟩ := clause_words small inside h
  exact ⟨c, describes, read?_words fits⟩

/-- **Clauses are read back** one behind the other, as many as one asks for. -/
theorem clauses_read {labels : Labels} {codeSize : Nat} {rs : List Region} {parts : List Bytes}
    (small : codeSize < 0x100000000)
    (inside : ∀ (id : InstrId) (offset : Nat), labels[id]? = some offset → offset ≤ codeSize)
    (h : List.Forall₂ (fun r bytes => clause labels codeSize r = .ok bytes) rs parts) :
    ∃ cs : List Clause,
      List.Forall₂ (fun (c : Clause) r => c.Describes (labels[·]?) codeSize r) cs rs ∧
      ∀ n ≤ rs.length, readMany? n parts.flatten = some (cs.take n, (parts.drop n).flatten) := by
  induction h with
  | nil => exact ⟨[], .nil, fun n hn => by rw [Nat.le_zero.1 hn]; rfl⟩
  | cons first _ ih =>
    obtain ⟨c, describes, read⟩ := clause_read small inside first
    obtain ⟨cs, describe, reads⟩ := ih
    refine ⟨c :: cs, .cons describes describe, fun n hn => ?_⟩
    cases n with
    | zero => rfl
    | succ n =>
      rw [List.flatten_cons, readMany?, read]
      show (readMany? n _).bind _ = _
      rw [reads n (Nat.le_of_succ_le_succ hn)]
      rfl

/-- How many clauses a reader learns of from the three bytes of the size. -/
def told (count : Nat) : Nat := ((count * 24 + 4) % 0x1000000 - 4) / 24

/-- A section tells of no more clauses than it has. -/
theorem told_le (count : Nat) : told count ≤ count := by
  unfold told
  omega

/-- A section tells of all its clauses exactly if its size fits in three bytes. -/
theorem le_told_iff {count : Nat} : count ≤ told count ↔ count * 24 + 4 < 0x1000000 := by
  unfold told
  omega

/-- A reader of sections goes by the low three bytes of the size. -/
theorem readSection?_size (size : Nat) (bytes : Bytes) :
    readSection? (0x41 :: littleEndian 3 size ++ bytes) =
      readMany? ((size % 0x1000000 - 4) / 24) bytes := by
  rw [List.cons_append, readSection?, if_pos rfl, word?_littleEndian_mod]
  rfl

/-- **A section is read back**: all clauses stand in it, and its size tells of all of them
exactly if it has three bytes. -/
theorem section_read {labels : Labels} {codeSize : Nat} {rs : List Region} {bytes : Bytes}
    (small : codeSize < 0x100000000)
    (inside : ∀ (id : InstrId) (offset : Nat), labels[id]? = some offset → offset ≤ codeSize)
    (h : regions labels codeSize rs = .ok bytes) :
    ∃ cs : List Clause,
      List.Forall₂ (fun (c : Clause) r => c.Describes (labels[·]?) codeSize r) cs rs ∧
      bytes.head? = some 0x41 ∧
      readMany? rs.length (bytes.drop 4) = some (cs, []) ∧
      (readSection? bytes = some (cs, []) ↔ rs.length * 24 + 4 < 0x1000000) := by
  unfold regions at h
  dsimp only at h
  split at h
  case isFalse => cases h
  obtain ⟨parts, hparts, h⟩ := bind_eq_ok.1 h
  obtain rfl := Except.ok.inj h
  have clauses := mapM_eq_ok.1 hparts
  obtain ⟨cs, describe, reads⟩ := clauses_read small inside clauses
  have whole : rs.length = cs.length ∧ rs.length = parts.length :=
    ⟨describe.length_eq.symm, clauses.length_eq⟩
  have header : (0x41 :: littleEndian 3 (rs.length * 24 + 4) : Bytes).length = 4 := by
    simp
  refine ⟨cs, describe, rfl, ?_, ?_⟩
  · rw [List.drop_left' header, reads _ (Nat.le_refl _)]
    rw [List.take_of_length_le (Nat.le_of_eq whole.1.symm),
      List.drop_of_length_le (Nat.le_of_eq whole.2.symm)]
    rfl
  · have told : readSection? (0x41 :: littleEndian 3 (rs.length * 24 + 4) ++ parts.flatten) =
        some (cs.take (told rs.length), (parts.drop (told rs.length)).flatten) :=
      (readSection?_size _ _).trans (reads _ (told_le _))
    rw [told, ← le_told_iff, Option.some.injEq, Prod.mk.injEq]
    constructor
    · intro ⟨all, _⟩
      rw [whole.1]
      exact List.take_eq_self_iff _ |>.1 (whole.1 ▸ all)
    · intro all
      rw [List.take_of_length_le (whole.1 ▸ all), List.drop_of_length_le (whole.2 ▸ all)]
      exact ⟨rfl, rfl⟩

/-- The header of a body with regions says that sections follow. -/
theorem testBit_header (guarded : b.regions ≠ []) (codeSize : Nat) (localSig : Option Token)
    (rest : Bytes) :
    (value ((header b codeSize localSig ++ rest).take 2)).testBit 3 = true := by
  have none : b.regions.isEmpty = false := by simpa using guarded
  unfold header
  rw [none]
  simp only [List.append_assoc]
  rw [List.take_left' (length_littleEndian ..), value_littleEndian_mod]
  split <;> decide

end Encode

/-- **The section of regions is read back.**  The header says that sections follow, zeros fill
the code up to a multiple of four, and behind them stand a clause for each region in turn,
which says where its boundaries lie in the code.  The size of the section tells a reader of all
of them exactly if it has three bytes; the writer does not refuse longer ones. -/
theorem MethodBody.encode_clauses {σ : Type} {b : MethodBody}
    {intern : String → StateM σ Nat} {localSig : Option Token} {e : EncodedBody} {s s' : σ}
    (distinct : (b.instructions.map (·.id)).Nodup) (guarded : b.regions ≠ [])
    (h : (b.encode intern localSig).run.run s = (.ok e, s')) :
    (value (e.bytes.take 2)).testBit 3 = true ∧
      ∃ (fill : Nat) (tail : Bytes) (lines : List CodeLine) (clauses : List Clause),
        e.bytes.drop (12 + e.codeSize) = List.replicate fill 0 ++ tail ∧
        fill < 4 ∧ 4 ∣ 12 + e.codeSize + fill ∧
        CodeReader.code? 0 e.code = some lines ∧
        List.Forall₂ (fun (c : Clause) r =>
          c.Describes (CodeReader.startOf b.instructions lines) e.codeSize r)
          clauses b.regions ∧
        tail.head? = some 0x41 ∧
        Clause.readMany? b.regions.length (tail.drop 4) = some (clauses, []) ∧
        (Clause.readSection? tail = some (clauses, []) ↔ b.regions.length * 24 + 4 < 0x1000000) := by
  obtain ⟨-, lines, _, reading, -, places, -⟩ := Encode.exists_reads h
  obtain ⟨layout, bytes, hlayout, hcode, ⟨none, -⟩ | ⟨-, tail, htail, rfl⟩⟩ :=
    Encode.encode_eq_ok.1 h
  · exact absurd none guarded
  obtain ⟨-, small, rfl⟩ := ofBody_eq_ok.1 hlayout
  obtain ⟨clauses, describe, kind, all, told⟩ :=
    Encode.section_read small (fun _ _ => Encode.bodyLabel_le) htail
  have plain : (Encode.header b b.codeSize localSig ++ bytes).length = 12 + b.codeSize := by
    simp [(Encode.code_read small hcode).1, MethodBody.codeSize]
  refine ⟨?_, padding 4 (12 + b.codeSize), tail, lines, clauses, ?_, ?_, ?_, reading, ?_, kind,
    all, told⟩
  · simp only [aligned, List.append_assoc]
    exact Encode.testBit_header guarded ..
  · show (aligned 4 (Encode.header b b.codeSize localSig ++ bytes) ++ tail).drop
      (12 + b.codeSize) = _
    rw [aligned, plain, List.append_assoc, List.drop_left' plain]
  · unfold padding
    omega
  · show 4 ∣ 12 + b.codeSize + padding 4 (12 + b.codeSize)
    unfold padding
    omega
  · exact describe.imp fun c r describes => describes.mono fun id target label =>
      Encode.startOf_of_settle distinct places label

/-- A return from under a handler that always runs. -/
def MethodBody.guardedReturn : MethodBody :=
  { MethodBody.ofCode [(.leaveS, .target ⟨2⟩), (.endfinally, .none), (.ret, .none)] with
    regions := [.finalizing ⟨0⟩ (some ⟨1⟩) ⟨1⟩ (some ⟨2⟩)] }

set_option maxRecDepth 20000 in
/-- The bytes of the guarded return: header, code, padding, and a section with one clause. -/
theorem MethodBody.encode_guardedReturn :
    (guardedReturn.encode countLiterals none).run.run 0 = (.ok ⟨
      Encode.header guardedReturn 4 none ++ [0xDE, 1, 0xDC, 0x2A] ++ [0x41, 28, 0, 0,
        2, 0, 0, 0, 0, 0, 0, 0, 2, 0, 0, 0, 2, 0, 0, 0, 1, 0, 0, 0, 0, 0, 0, 0], 4⟩, 0) := by
  cbv

/-- The hypotheses are satisfiable: one clause, and its section is read to its end. -/
theorem MethodBody.encode_clauses_guardedReturn :
    ∃ (e : EncodedBody) (fill : Nat) (tail : Bytes) (clauses : List Clause),
      (guardedReturn.encode countLiterals none).run.run 0 = (.ok e, 0) ∧
      e.bytes.drop 16 = List.replicate fill 0 ++ tail ∧
      Clause.readSection? tail = some (clauses, []) := by
  obtain ⟨-, fill, tail, _, clauses, bytes, _, _, _, _, _, _, told⟩ :=
    encode_clauses (by decide) (by decide) encode_guardedReturn
  exact ⟨_, fill, tail, clauses, encode_guardedReturn, bytes, told.2 (by decide)⟩

end HookImage
