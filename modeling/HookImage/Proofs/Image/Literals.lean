/-
# String literals

Code names a string literal by the offset of its entry in the heap of literals.  Bodies are written
one after the other against one heap that only grows, so an entry lies in the finished heap where it
lay when its offset was given out (`LiteralHeap.handOut_spec`), and every line of a literal holds the
token of such an offset (`MethodBody.encode_literals`).

Two things can go wrong, and neither is reported.  A token has room for 24 bits of an offset, so the
row of a token is the offset only below `2 ^ 24`.  The length in front of an entry has no compressed
form from `2 ^ 29` on, so only shorter entries are read back (`LiteralHeap.literal?_iff`).  Within
both limits a literal is what its token leads to (`MethodBody.encodeAll_literals`).

| part of an entry | read as |
| --- | --- |
| compressed length | how many bytes follow |
| two bytes for each unit | text in UTF-16, surrogates in pairs |
| last byte | whether some unit is unusual |
-/

import Mathlib
import HookImage.Proofs.Bytes.Compressed
import HookImage.Proofs.Cil.Encodable
import HookImage.Proofs.Image.Settled

namespace HookImage

open Bytes (LiesAt)

namespace LiteralHeap

/-! ### Reading an entry -/

/-- The characters of units in UTF-16, if every surrogate is one of a pair. -/
def chars? : List Nat → Option (List Char)
  | [] => some []
  | unit :: us =>
    if unit < 0xD800 || 0xDFFF < unit then (chars? us).map (Char.ofNat unit :: ·)
    else
      match us with
      | [] => none
      | low :: us =>
        if unit < 0xDC00 && 0xDC00 ≤ low && low ≤ 0xDFFF then
          (chars? us).map
            (Char.ofNat (0x10000 + (unit - 0xD800) * 0x400 + (low - 0xDC00)) :: ·)
        else none

/-- The units of a run of bytes, two bytes for each, the lower one first. -/
def units? : Bytes → Option (List Nat)
  | [] => some []
  | [_] => none
  | low :: high :: rest => (units? rest).map ((low.toNat + 256 * high.toNat) :: ·)

/-- The literal whose entry is at an offset, and the byte behind it. -/
def literal? (heap : Bytes) (offset : Nat) : Option (String × UInt8) := do
  let (length, rest) ← Bytes.compressed? (heap.drop offset)
  let (bytes, _) ← Bytes.split? length rest
  let mark ← bytes.getLast?
  let us ← units? bytes.dropLast
  let cs ← chars? us
  return (String.ofList cs, mark)

/-- The byte behind a literal: whether some unit of it is unusual. -/
def mark (s : String) : UInt8 := if (units s).any isUnusual then 1 else 0

/-- A literal is its units in two bytes each, and the mark. -/
theorem content_eq (s : String) : content s = (units s).flatMap (Bytes.littleEndian 2) ++ [mark s] :=
  rfl

/-- A character is one unit, or a surrogate pair. -/
theorem unitsOfChar_eq (c : Char) : unitsOfChar c = if c.toNat < 0x10000 then [c.toNat]
    else [0xD800 + (c.toNat - 0x10000) / 0x400, 0xDC00 + (c.toNat - 0x10000) % 0x400] := rfl

/-- Every unit of a character has 16 bits. -/
theorem unitsOfChar_lt {c : Char} {unit : Nat} (h : unit ∈ unitsOfChar c) : unit < 0x10000 := by
  have valid : c.toNat < 0xD800 ∨ 0xDFFF < c.toNat ∧ c.toNat < 0x110000 := c.valid
  rw [unitsOfChar_eq] at h
  split at h
  · rw [List.mem_singleton] at h
    omega
  · simp only [List.mem_cons, List.not_mem_nil, or_false] at h
    omega

/-- Units of 16 bits are read back. -/
theorem units?_flatMap {us : List Nat} (small : ∀ unit ∈ us, unit < 0x10000) :
    units? (us.flatMap (Bytes.littleEndian 2)) = some us := by
  induction us with
  | nil => rfl
  | cons unit us ih =>
    have bytes : (unit :: us).flatMap (Bytes.littleEndian 2) =
        UInt8.ofNat unit :: UInt8.ofNat (unit / 256) :: us.flatMap (Bytes.littleEndian 2) := rfl
    have whole : (UInt8.ofNat unit).toNat + 256 * (UInt8.ofNat (unit / 256)).toNat = unit := by
      have := small unit List.mem_cons_self
      rw [UInt8.toNat_ofNat', UInt8.toNat_ofNat']
      omega
    rw [bytes, units?, ih fun u hu => small u (List.mem_cons_of_mem _ hu), whole]
    rfl

/-- A unit that is no surrogate is a character. -/
theorem chars?_plain {unit : Nat} (h : unit < 0xD800 ∨ 0xDFFF < unit) (us : List Nat) :
    chars? (unit :: us) = (chars? us).map (Char.ofNat unit :: ·) := by
  rw [chars?.eq_def]
  exact if_pos (by simpa using h)

/-- A high and a low surrogate are one character. -/
theorem chars?_pair {high low : Nat} (h : 0xD800 ≤ high ∧ high < 0xDC00)
    (h' : 0xDC00 ≤ low ∧ low ≤ 0xDFFF) (us : List Nat) : chars? (high :: low :: us) =
      (chars? us).map (Char.ofNat (0x10000 + (high - 0xD800) * 0x400 + (low - 0xDC00)) :: ·) := by
  rw [chars?.eq_def]
  refine (if_neg ?_).trans (if_pos ?_)
  · rw [Bool.or_eq_true, decide_eq_true_eq, decide_eq_true_eq]
    omega
  · rw [Bool.and_eq_true, Bool.and_eq_true, decide_eq_true_eq, decide_eq_true_eq,
      decide_eq_true_eq]
    omega

/-- A character is read from its one unit, or from its two surrogates. -/
theorem chars?_unitsOfChar (c : Char) (us : List Nat) :
    chars? (unitsOfChar c ++ us) = (chars? us).map (c :: ·) := by
  have valid : c.toNat < 0xD800 ∨ 0xDFFF < c.toNat ∧ c.toNat < 0x110000 := c.valid
  rw [unitsOfChar_eq]
  split
  · rw [List.singleton_append, chars?_plain (valid.imp_right And.left), Char.ofNat_toNat]
  · have joined : 0x10000 + (0xD800 + (c.toNat - 0x10000) / 0x400 - 0xD800) * 0x400 +
        (0xDC00 + (c.toNat - 0x10000) % 0x400 - 0xDC00) = c.toNat := by omega
    rw [List.cons_append, List.singleton_append, chars?_pair (by omega) (by omega), joined,
      Char.ofNat_toNat]

/-- **Characters are read back from their units.** -/
theorem chars?_flatMap (cs : List Char) : chars? (cs.flatMap unitsOfChar) = some cs := by
  induction cs with
  | nil => rfl
  | cons c cs ih => rw [List.flatMap_cons, chars?_unitsOfChar, ih]; rfl

/-- Every unit of a text has 16 bits. -/
theorem units_lt {s : String} {unit : Nat} (h : unit ∈ units s) : unit < 0x10000 := by
  obtain ⟨c, -, h⟩ := List.mem_flatMap.1 h
  exact unitsOfChar_lt h

/-- A literal takes two bytes for each unit and one for the mark. -/
@[simp] theorem length_content (s : String) : (content s).length = 2 * (units s).length + 1 := by
  have double (us : List Nat) : (us.flatMap (Bytes.littleEndian 2)).length = 2 * us.length := by
    induction us with
    | nil => rfl
    | cons unit us ih =>
      simp [ih]
      omega
  rw [content_eq, List.length_append, double, List.length_singleton]

/-- **A literal is read back at the offset of its entry**, if its length has a compressed form. -/
theorem literal?_of_liesAt {heap : Bytes} {offset : Nat} {s : String}
    (lies : LiesAt heap offset (entry s)) (short : (content s).length < 0x20000000) :
    literal? heap offset = some (s, mark s) := by
  obtain ⟨front, back, rfl, rfl⟩ := lies
  have length : Bytes.compressed? (entry s ++ back) =
      some ((content s).length, content s ++ back) := by
    have read := Bytes.compressed?_compressedLength short (content s ++ back)
    rwa [← List.append_assoc] at read
  have bytes : units? (content s).dropLast = some (units s) := by
    rw [content_eq, List.dropLast_concat]
    exact units?_flatMap fun _ => units_lt
  have marked : (content s).getLast? = some (mark s) := by rw [content_eq, List.getLast?_concat]
  have text : chars? (units s) = some s.toList := chars?_flatMap s.toList
  rw [literal?, List.append_assoc, List.drop_left]
  simp only [length, Bytes.split?_append rfl, marked, bytes, text, Option.bind_eq_bind,
    Option.bind_some, Option.pure_def, String.ofList_toList]

/-- An entry ends within the heap, and so does its content. -/
theorem add_content_le {heap : Bytes} {offset : Nat} {s : String}
    (lies : LiesAt heap offset (entry s)) : offset + (content s).length ≤ heap.length := by
  obtain ⟨front, back, rfl, rfl⟩ := lies
  have parts : (entry s).length =
      (Bytes.compressedLength (content s).length).length + (content s).length := List.length_append
  rw [List.length_append, List.length_append, parts]
  omega

/-! ### Entries that are too long -/

/-- Units that were read have 16 bits and took two bytes each. -/
theorem units?_lt {bytes : Bytes} {us : List Nat} (h : units? bytes = some us) :
    bytes.length = 2 * us.length ∧ ∀ unit ∈ us, unit < 0x10000 := by
  induction bytes using units?.induct generalizing us with
  | case1 =>
    cases h
    exact ⟨rfl, fun _ h => absurd h List.not_mem_nil⟩
  | case2 => cases h
  | case3 low high rest ih =>
    obtain ⟨us, read, rfl⟩ := Option.map_eq_some_iff.1 h
    obtain ⟨length, small⟩ := ih read
    refine ⟨by simp only [List.length_cons, length]; omega, List.forall_mem_cons.2 ⟨?_, small⟩⟩
    have := low.toNat_lt
    have := high.toNat_lt
    omega

/-- Read characters take as many units as there were. -/
theorem length_units_of_chars? {us : List Nat} (small : ∀ unit ∈ us, unit < 0x10000)
    {cs : List Char} (h : chars? us = some cs) : (cs.flatMap unitsOfChar).length = us.length := by
  have number {n : Nat} (valid : n < 0xD800 ∨ 0xDFFF < n ∧ n < 0x110000) :
      (Char.ofNat n).toNat = n := by rw [Char.toNat_ofNat, if_pos valid]
  induction us using chars?.induct generalizing cs with
  | case1 =>
    cases h
    rfl
  | case2 unit us plain ih =>
    rw [Bool.or_eq_true, decide_eq_true_eq, decide_eq_true_eq] at plain
    obtain ⟨first, rest⟩ := List.forall_mem_cons.1 small
    rw [chars?_plain plain] at h
    obtain ⟨cs, read, rfl⟩ := Option.map_eq_some_iff.1 h
    have one : unitsOfChar (Char.ofNat unit) = [unit] := by
      rw [unitsOfChar_eq, number (by omega), if_pos first]
    rw [List.flatMap_cons, one, List.length_append, ih rest read, List.length_cons, Nat.add_comm]
    rfl
  | case3 unit surrogate =>
    rw [chars?.eq_def] at h
    cases (if_neg surrogate).symm.trans h
  | case4 high surrogate low us pair ih =>
    rw [Bool.or_eq_true, decide_eq_true_eq, decide_eq_true_eq] at surrogate
    rw [Bool.and_eq_true, Bool.and_eq_true, decide_eq_true_eq, decide_eq_true_eq,
      decide_eq_true_eq] at pair
    obtain ⟨-, small⟩ := List.forall_mem_cons.1 small
    obtain ⟨-, small⟩ := List.forall_mem_cons.1 small
    rw [chars?_pair (by omega) (by omega)] at h
    obtain ⟨cs, read, rfl⟩ := Option.map_eq_some_iff.1 h
    have two (n : Nat) (large : 0x10000 ≤ n) (valid : n < 0x110000) :
        (unitsOfChar (Char.ofNat n)).length = 2 := by
      rw [unitsOfChar_eq, number (by omega), if_neg (by omega)]
      rfl
    rw [List.flatMap_cons, List.length_append, two _ (by omega) (by omega), ih small read,
      List.length_cons, List.length_cons, Nat.add_comm]
  | case5 high surrogate low us single =>
    rw [chars?.eq_def] at h
    cases ((if_neg surrogate).trans (if_neg single)).symm.trans h

/-- No literal that is read is longer than what a compressed length tells. -/
theorem length_of_literal? {heap : Bytes} {offset : Nat} {s : String} {flag : UInt8}
    (h : literal? heap offset = some (s, flag)) : (content s).length < 0x20000000 := by
  obtain ⟨⟨n, rest⟩, length, h⟩ := Option.bind_eq_some_iff.1 h
  obtain ⟨p, taken, h⟩ := Option.bind_eq_some_iff.1 h
  obtain ⟨b, last, h⟩ := Option.bind_eq_some_iff.1 h
  obtain ⟨us, wide, h⟩ := Option.bind_eq_some_iff.1 h
  obtain ⟨cs, read, h⟩ := Option.bind_eq_some_iff.1 h
  cases h
  obtain ⟨double, small⟩ := units?_lt wide
  have total := Bytes.length_of_split? taken
  have nonempty : p.1 ≠ [] := by
    intro empty
    rw [empty] at last
    cases last
  have positive := List.length_pos_iff.2 nonempty
  have bound := Bytes.compressed?_lt length
  rw [List.length_dropLast] at double
  rw [length_content, units, String.toList_ofList, length_units_of_chars? small read]
  omega

/-- **Exactly the literals with a compressed length are read back.** -/
theorem literal?_iff {heap : Bytes} {offset : Nat} {s : String} (lies : LiesAt heap offset (entry s)) :
    literal? heap offset = some (s, mark s) ↔ (content s).length < 0x20000000 :=
  ⟨length_of_literal?, literal?_of_liesAt lies⟩

/-! ### A heap that hands out offsets -/

/-- The offset of a literal in a heap that keeps it. -/
def handOut (s : String) : StateM LiteralHeap Nat := fun heap => heap.add s

/-- Whether a heap is what became of another one that took at most as many bytes. -/
structure Takes (heap : LiteralHeap) (size : Nat) (heap' : LiteralHeap) : Prop where
  holds : heap'.Holds entry
  grows : heap.data.toList <+: heap'.data.toList
  bounded : heap'.data.size ≤ heap.data.size + size

variable {heap heap' heap'' : LiteralHeap} {n m : Nat}

/-- A heap takes nothing to be itself. -/
theorem Takes.refl (h : heap.Holds entry) : heap.Takes 0 heap := ⟨h, List.prefix_rfl, le_rfl⟩

/-- What is taken in two steps is the sum of both. -/
theorem Takes.trans (h : heap.Takes n heap') (h' : heap'.Takes m heap'') :
    heap.Takes (n + m) heap'' where
  holds := h'.holds
  grows := h.grows.trans h'.grows
  bounded := by
    have := h.bounded
    have := h'.bounded
    omega

/-- A literal takes at most the bytes of its entry. -/
theorem size_add_le (heap : LiteralHeap) (s : String) :
    (heap.add s).2.data.size ≤ heap.data.size + (entry s).length := by
  obtain ⟨data, index⟩ := heap
  rcases known : index[s]? with _ | offset
  · simp only [add, Heap.intern, known]
    rw [← Array.length_toList, Array.toList_appendList, List.length_append, Array.length_toList]
  · simp only [add, Heap.intern, known]
    exact Nat.le_add_right _ _

/-- A literal lies where its offset says, and takes no more than its entry. -/
theorem handOut_spec (h : heap.Holds entry) {s : String} {offset : Nat}
    (run : (handOut s).run heap = (offset, heap')) :
    heap.Takes (entry s).length heap' ∧ LiesAt heap'.data.toList offset (entry s) := by
  have adds : heap.Adds entry s (heap.add s) := h.intern s
  have size := size_add_le heap s
  have same : heap.add s = (offset, heap') := run
  rw [same] at adds size
  exact ⟨⟨adds.holds, adds.grows, size⟩, adds.lies⟩

end LiteralHeap

open LiteralHeap (handOut literal? mark content)

/-- How many bytes of the heap an operand may take. -/
def Operand.literalSize : Operand → Nat
  | .string s => (LiteralHeap.entry s).length
  | _ => 0

/-- Whether a written operand is the token of the entry of a literal, if it was written for one. -/
def Operand.Names (heap : LiteralHeap) (operand written : Operand) : Prop :=
  ∀ s, operand = .string s → ∃ offset, written = .token (.ofRow .userString offset) ∧
    LiesAt heap.data.toList offset (LiteralHeap.entry s)

variable {heap heap' : LiteralHeap}

/-- What a written operand names it names in a longer heap. -/
theorem Operand.Names.mono {operand written : Operand} (h : operand.Names heap written)
    (grows : heap.data.toList <+: heap'.data.toList) : operand.Names heap' written := by
  intro s literal
  obtain ⟨offset, token, lies⟩ := h s literal
  exact ⟨offset, token, lies.mono grows⟩

/-- A literal operand is written as the token of its entry, and takes at most the bytes of that. -/
theorem Operand.interned_names (h : heap.Holds LiteralHeap.entry) {operand written : Operand}
    (run : (operand.interned handOut).run heap = (written, heap')) :
    heap.Takes operand.literalSize heap' ∧ operand.Names heap' written := by
  by_cases literal : ∃ s, operand = .string s
  · obtain ⟨s, rfl⟩ := literal
    obtain ⟨offset, heap₁, handed, rest⟩ := exists_of_run_bind run
    cases rest
    obtain ⟨takes, lies⟩ := LiteralHeap.handOut_spec h handed
    refine ⟨takes, fun s' same => ?_⟩
    cases same
    exact ⟨offset, rfl, lies⟩
  · rw [Operand.interned_eq_pure fun s same => literal ⟨s, same⟩] at run
    cases run
    have none : operand.literalSize = 0 := by
      cases operand with
      | string s => exact absurd ⟨s, rfl⟩ literal
      | _ => rfl
    exact ⟨none ▸ .refl h, fun s same => absurd ⟨s, same⟩ literal⟩

/-- The operands of lines are interned from the first to the last, and what the first ones name
stays where it is. -/
theorem Layout.mapM_interned_names (h : heap.Holds LiteralHeap.entry) {lines : List Line}
    {operands : List Operand}
    (run : (lines.mapM fun l : Line => l.instr.operand.interned handOut).run heap =
      (operands, heap')) :
    heap.Takes (lines.map (·.instr.operand.literalSize)).sum heap' ∧
      List.Forall₂ (fun (l : Line) o => l.instr.operand.Names heap' o) lines operands := by
  induction lines generalizing heap operands with
  | nil =>
    cases run
    exact ⟨.refl h, .nil⟩
  | cons l lines ih =>
    rw [List.mapM_cons] at run
    obtain ⟨first, heap₁, interned, run⟩ := exists_of_run_bind run
    obtain ⟨others, heap₂, interneds, run⟩ := exists_of_run_bind run
    cases run
    obtain ⟨takes, names⟩ := Operand.interned_names h interned
    obtain ⟨takes', names'⟩ := ih takes.holds interneds
    exact ⟨takes.trans takes', .cons (names.mono takes'.grows) names'⟩

namespace Encode

variable {σ : Type}

/-- Lines that are written have operands of the layout that their operations tell. -/
theorem fits_of_code {intern : String → StateM σ Nat} {labels : Labels} {ps : List PlacedLine}
    {bytes : Bytes} {s s' : σ} (h : (code intern labels ps).run.run s = (.ok bytes, s')) :
    ∀ p ∈ ps, p.instr.operand.fits p.op.operandKind := by
  induction ps generalizing s s' bytes with
  | nil => exact fun _ hp => absurd hp List.not_mem_nil
  | cons p ps ih =>
    obtain ⟨first, s₁, hfirst, h⟩ := run_bind_eq_ok.1 h
    obtain ⟨rest, s₂, hrest, -⟩ := run_bind_eq_ok.1 h
    refine List.forall_mem_cons.2 ⟨?_, ih hrest⟩
    unfold line at hfirst
    split at hfirst
    · assumption
    · cases hfirst

end Encode

namespace MethodBody

/-- Whether a line that was read holds the token of an entry of the literal that an instruction
loads. -/
def LoadsLiteral (heap : LiteralHeap) (i : Instruction) (l : CodeLine) : Prop :=
  i.opcode = .ldstr → l.op = .ldstr ∧ ∃ s offset, i.operand = .string s ∧
    l.operand = .token (.ofRow .userString offset) ∧
    LiesAt heap.data.toList offset (LiteralHeap.entry s)

/-- A line that loads a literal does so in a longer heap. -/
theorem LoadsLiteral.mono {i : Instruction} {l : CodeLine} (h : LoadsLiteral heap i l)
    (grows : heap.data.toList <+: heap'.data.toList) : LoadsLiteral heap' i l := by
  intro literal
  obtain ⟨op, s, offset, operand, token, lies⟩ := h literal
  exact ⟨op, s, offset, operand, token, lies.mono grows⟩

/-- Loads of literals have no long form, so the line of one has the operation of the instruction,
and its operand is the literal. -/
theorem loadsLiteral_of_line {i : Instruction} {l : Line} {r : CodeLine}
    {start : InstrId → Option Nat} {o : Operand} (grown : Line.Grown ⟨i.opcode, i⟩ l)
    (fit : l.instr.operand.fits l.op.operandKind) (op : r.op = l.op)
    (named : l.instr.operand.Names heap o) (stands : r.operand.StandsFor start r.next o) :
    LoadsLiteral heap i r := by
  intro literal
  have same : l.instr = i := grown.instr_eq
  have kind : l.op = .ldstr := by
    rcases grown.op_eq with op | op
    · exact op.trans literal
    · rw [op, literal]
      rfl
  rw [same, kind] at fit
  cases operand : i.operand with
  | string s =>
    rw [same] at named
    obtain ⟨offset, rfl, lies⟩ := named s operand
    generalize read : r.operand = o at stands
    cases stands with
    | token => exact ⟨op.trans kind, s, offset, rfl, rfl, lies⟩
  | _ =>
    rw [operand] at fit
    cases fit

/-- **The lines of a written body name its literals** in the heap that the writer leaves. -/
theorem encode_literals {b : MethodBody} {localSig : Option Token} {e : EncodedBody}
    (holds : heap.Holds LiteralHeap.entry)
    (h : (b.encode handOut localSig).run.run heap = (.ok e, heap')) :
    heap.Takes (b.instructions.map (·.operand.literalSize)).sum heap' ∧
      ∃ lines, CodeReader.code? 0 e.code = some lines ∧
        List.Forall₂ (LoadsLiteral heap') b.instructions lines := by
  obtain ⟨bytes, tail, hbytes, layout, hlayout, hsize, hcode⟩ := Encode.code_of_encode h
  obtain ⟨_, small, rfl⟩ := Layout.ofBody_eq_ok.1 hlayout
  obtain ⟨length, reads, operands, reading, interned, places, agree⟩ :=
    Encode.code_read small hcode
  have code : e.code = bytes := by
    rw [EncodedBody.code, hbytes, List.drop_left' (Encode.length_header ..), hsize,
      List.take_left' length]
  obtain ⟨takes, names⟩ := Layout.mapM_interned_names holds interned
  refine ⟨?_, reads, by rw [code, reading], ?_⟩
  · rw [← Layout.map_instr_settle_draft b, List.map_map]
    exact takes
  · have whole := Layout.map_toLine_placeFrom 0 (Layout.settle (Layout.draft b))
    have fits : ∀ l ∈ Layout.settle (Layout.draft b),
        l.instr.operand.fits l.op.operandKind := by
      rw [← whole, List.forall_mem_map]
      exact Encode.fits_of_code hcode
    have ops : List.Forall₂ (fun (l : Line) (r : CodeLine) => r.op = l.op)
        (Layout.settle (Layout.draft b)) reads := by
      rw [← whole, List.forall₂_map_left_iff]
      exact places.imp fun _ _ same => same.2
    have tokens := forall₂_trans (u := fun (l : Line) (r : CodeLine) => ∃ o,
      l.instr.operand.Names heap' o ∧ r.operand.StandsFor _ r.next o)
      (fun _ o _ named stands => ⟨o, named, stands⟩) names agree
    have lines := (List.forall₂_and_left _ _).2 ⟨fits, ops.mp (fun _ _ => And.intro) tokens⟩
    refine forall₂_trans ?_ (Layout.settle_draft b) lines
    rintro i l r grown ⟨fit, op, o, named, stands⟩
    exact loadsLiteral_of_line grown fit op named stands

/-- Bodies with the signatures of their local variables, written one after the other against one
heap of literals. -/
def encodeAll (bodies : List (MethodBody × Option Token)) :
    ExceptT Malformation (StateM LiteralHeap) (List EncodedBody) :=
  bodies.mapM fun p => p.1.encode handOut p.2

/-- How many bytes of the heap the literals of bodies may take. -/
def literalSize (bodies : List (MethodBody × Option Token)) : Nat :=
  (bodies.map fun p => (p.1.instructions.map (·.operand.literalSize)).sum).sum

/-- Bodies that are encoded one after the other load their literals from the heap that all of them
leave. -/
theorem encodeAll_spec {bodies : List (MethodBody × Option Token)} {written : List EncodedBody}
    (holds : heap.Holds LiteralHeap.entry)
    (h : (encodeAll bodies).run.run heap = (.ok written, heap')) :
    heap.Takes (literalSize bodies) heap' ∧
      List.Forall₂ (fun p (e : EncodedBody) => ∃ lines, CodeReader.code? 0 e.code = some lines ∧
        List.Forall₂ (LoadsLiteral heap') (Prod.fst p).instructions lines) bodies written := by
  induction bodies generalizing heap written with
  | nil =>
    obtain ⟨rfl, rfl⟩ := run_pure_eq_ok.1 h
    exact ⟨.refl holds, .nil⟩
  | cons p bodies ih =>
    rw [encodeAll, List.mapM_cons] at h
    obtain ⟨e, heap₁, first, h⟩ := run_bind_eq_ok.1 h
    obtain ⟨es, heap₂, others, h⟩ := run_bind_eq_ok.1 h
    obtain ⟨rfl, rfl⟩ := run_pure_eq_ok.1 h
    obtain ⟨takes, lines, read, loads⟩ := encode_literals holds first
    obtain ⟨takes', all⟩ := ih takes.holds others
    have kept := loads.imp fun _ _ load => load.mono takes'.grows
    exact ⟨takes.trans takes', .cons ⟨lines, read, kept⟩ all⟩

/-- **String literals survive within two limits.**  When bodies are written one after the other
against one heap, every line that loads a literal holds a token of the heap of literals, and the
entry of the literal lies in the finished heap at an offset of which the row of the token has the
low 24 bits: it is that offset exactly below `2 ^ 24`.  The literal is read back at the offset
exactly if its length has a compressed form.  So every literal is what its token leads to, as long
as the heap has no more than `2 ^ 24` bytes, and it never has more than the entries of all literals
take. -/
theorem encodeAll_literals {bodies : List (MethodBody × Option Token)}
    {written : List EncodedBody} {heap : LiteralHeap}
    (h : (encodeAll bodies).run.run {} = (.ok written, heap)) :
    heap.data.size ≤ 1 + literalSize bodies ∧
      List.Forall₂ (fun p (e : EncodedBody) => ∃ lines, CodeReader.code? 0 e.code = some lines ∧
        List.Forall₂ (fun (i : Instruction) (l : CodeLine) => i.opcode = .ldstr → l.op = .ldstr ∧
          ∃ s t offset, i.operand = .string s ∧ l.operand = .token t ∧ t.tableNumber = 0x70 ∧
            t.row = offset % 0x1000000 ∧ (t.row = offset ↔ offset < 0x1000000) ∧
            LiesAt heap.data.toList offset (LiteralHeap.entry s) ∧
            (literal? heap.data.toList offset = some (s, mark s) ↔
              (content s).length < 0x20000000) ∧
            (heap.data.size ≤ 0x1000000 → literal? heap.data.toList t.row = some (s, mark s)))
          (Prod.fst p).instructions lines) bodies written := by
  obtain ⟨takes, all⟩ := encodeAll_spec (Heap.holds_empty _) h
  refine ⟨takes.bounded, all.imp fun p e ⟨lines, read, loads⟩ => ⟨lines, read, ?_⟩⟩
  refine loads.imp fun i l load literal => ?_
  obtain ⟨op, s, offset, operand, token, lies⟩ := load literal
  have row : (Token.ofRow .userString offset).row = offset % 0x1000000 := Token.row_ofRow ..
  refine ⟨op, s, _, offset, operand, token, Token.tableNumber_ofRow .., row, ?_, lies,
    LiteralHeap.literal?_iff lies, fun small => ?_⟩
  · rw [row]
    omega
  · have inside := LiteralHeap.add_content_le lies
    have positive := LiteralHeap.length_content s
    have size : heap.data.toList.length = heap.data.size := Array.length_toList
    rw [row, Nat.mod_eq_of_lt (by omega)]
    exact LiteralHeap.literal?_of_liesAt lies (by omega)

/-- A body that loads a literal. -/
def announce (s : String) : MethodBody :=
  .ofCode [(.ldstr, .string s), (.pop, .none), (.ret, .none)]

/-- A body that loads a text and returns is encodable. -/
theorem encodable_announce (s : String) : (announce s).Encodable := by
  have each {p : Instruction → Prop} (load : p ⟨⟨0⟩, .ldstr, .string s⟩)
      (pop : p ⟨⟨1⟩, .pop, .none⟩) (ret : p ⟨⟨2⟩, .ret, .none⟩) :
      ∀ i ∈ (announce s).instructions, p i :=
    List.forall_mem_cons.2 ⟨load, List.forall_mem_cons.2 ⟨pop, List.forall_mem_singleton.2 ret⟩⟩
  have none {p : InstrId → Prop} : ∀ id ∈ ([] : List InstrId), p id :=
    fun _ h => absurd h List.not_mem_nil
  exact {
    fits := each rfl rfl rfl
    imported := each Bool.false_ne_true Bool.false_ne_true Bool.false_ne_true
    targets := each none none none
    anchors := fun _ h => absurd h List.not_mem_nil
    filters := fun _ h => absurd h List.not_mem_nil
    catches := fun _ h => absurd h List.not_mem_nil }

/-- A body that loads a text and returns has seven bytes of code. -/
theorem codeSize_announce (s : String) : (announce s).codeSize = 7 := by
  cbv

/-- The hypothesis is satisfiable: of two bodies the second one loads a clef, which takes two
surrogates, and its token leads to the clef. -/
theorem encodeAll_literals_clef : ∃ written heap,
    (encodeAll [(announce "skipped", none), (announce "𝄞", none)]).run.run {} =
      (.ok written, heap) ∧
    ∃ e ∈ written, ∃ lines, CodeReader.code? 0 e.code = some lines ∧ ∃ l ∈ lines, ∃ t,
      l.operand = .token t ∧ literal? heap.data.toList t.row = some ("𝄞", 1) := by
  have encoded (s : String) (heap : LiteralHeap) : ∃ e heap',
      ((announce s).encode handOut none).run.run heap = (.ok e, heap') :=
    (Encode.exists_encode_eq_ok (encodable_announce s) (by rw [codeSize_announce]; decide)
      (show 0 * 24 + 4 < 0x100000000 by decide) handOut none heap).2
      fun _ h => absurd h List.not_mem_nil
  obtain ⟨e, heap₁, first⟩ := encoded "skipped" {}
  obtain ⟨e', heap, second⟩ := encoded "𝄞" heap₁
  have written : (encodeAll [(announce "skipped", none), (announce "𝄞", none)]).run.run {} =
      (.ok [e, e'], heap) := by
    rw [encodeAll, List.mapM_cons]
    exact run_bind_eq_ok.2 ⟨e, heap₁, first, run_bind_eq_ok.2 ⟨[e'], heap,
      run_bind_eq_ok.2 ⟨e', heap, second, rfl⟩, rfl⟩⟩
  obtain ⟨size, all⟩ := encodeAll_literals written
  have small : literalSize [(announce "skipped", none), (announce "𝄞", none)] = 22 := by
    decide
  cases all with
  | cons _ rest =>
    cases rest with
    | cons last _ =>
      obtain ⟨lines, read, loads⟩ := last
      cases loads with
      | cons load _ =>
        obtain ⟨-, s, t, offset, operand, token, -, -, -, -, -, leads⟩ := load rfl
        cases operand
        exact ⟨_, _, written, e', by simp, _, read, _, List.mem_cons_self, t, token,
          leads (by omega)⟩

end MethodBody

end HookImage
