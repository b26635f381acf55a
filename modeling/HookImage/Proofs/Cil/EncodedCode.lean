/-
# Written code is read back

What the writer of bodies and the reader of code agree on.  The writer predicts where every
line lands before it writes any, from sizes alone (`Line.size`), and each line then takes
exactly the bytes that were predicted (`line_read`), so the lines that are read begin where
the written ones were placed (`code_read`).  Branches hold distances, counted from the line
behind the branch, and lead to the line of the instruction that they name
(`encode_readable`).
-/

import Mathlib
import HookImage.Cil.Encode
import HookImage.Proofs.Cil.CodeReader
import HookImage.Proofs.Cil.Placement
import HookImage.Proofs.Success

namespace HookImage

/-- What an operand that was read says about an operand of a body, where `start` tells the
offsets of instructions and the line behind begins at `next`. -/
inductive CodeOperand.StandsFor (start : InstrId → Option Nat) (next : Nat) :
    CodeOperand → Operand → Prop where
  | none : StandsFor start next .none .none
  | immediate (v : Immediate) : StandsFor start next (.immediate v) (.immediate v)
  | argument (i : UInt16) : StandsFor start next (.argument i) (.argument i)
  | slot (i : UInt16) : StandsFor start next (.slot i) (.slot i)
  | distance {d : Int} {id : InstrId} {target : Nat} (found : start id = some target)
      (reaches : next + d = target) : StandsFor start next (.distance d) (.target id)
  | distances {ds : List Int} {ids : List InstrId}
      (reach : List.Forall₂
        (fun d id => ∃ target : Nat, start id = some target ∧ next + d = (target : Int)) ds ids) :
      StandsFor start next (.distances ds) (.targets ids)
  | token (t : Token) : StandsFor start next (.token t) (.token t)

/-- An operand goes on standing for what was written where more instructions have an offset. -/
theorem CodeOperand.StandsFor.mono {start start' : InstrId → Option Nat} {next : Nat}
    {o : CodeOperand} {operand : Operand} (h : o.StandsFor start next operand)
    (more : ∀ id target, start id = some target → start' id = some target) :
    o.StandsFor start' next operand := by
  cases h with
  | none => exact .none
  | immediate v => exact .immediate v
  | argument i => exact .argument i
  | slot i => exact .slot i
  | distance found reaches => exact .distance (more _ _ found) reaches
  | distances reach =>
    exact .distances (reach.imp fun _ _ ⟨target, found, h⟩ => ⟨target, more _ _ found, h⟩)
  | token t => exact .token t

variable {σ : Type}

/-- An operand of a body as code holds it: a string literal is a token with the offset that
`intern` gives it. -/
def Operand.interned (intern : String → StateM σ Nat) : Operand → StateM σ Operand
  | .string s => do return .token (.ofRow .userString (← intern s))
  | operand => return operand

/-- An operand that is no literal is not changed when literals are added. -/
theorem Operand.interned_eq_pure {intern : String → StateM σ Nat} {operand : Operand}
    (h : ∀ s, operand = .string s → False) : operand.interned intern = pure operand := by
  cases operand with
  | string s => exact absurd rfl (h s)
  | _ => rfl

/-- The code of a written body. -/
def EncodedBody.code (e : EncodedBody) : Bytes := (e.bytes.drop 12).take e.codeSize

/-- Where the line of an instruction begins, the lines being those of all instructions in
turn. -/
def CodeReader.startOf (is : List Instruction) (lines : List CodeLine) (id : InstrId) :
    Option Nat :=
  ((is.zip lines).find? (·.1.id == id)).map (·.2.offset)

namespace Encode

open CodeReader Bytes Layout

/-! ### Operations -/

/-- An operation is read back, whatever follows. -/
@[simp] theorem opcode?_operation (op : Opcode) (rest : Bytes) :
    opcode? (operation op ++ rest) = some (op, rest) := by
  have found := op.ofEncoding?_page_code
  rcases op.page_cases with ⟨page, code⟩ | page
  · have short : operation op = [op.code] := by rw [operation, page]; rfl
    rw [page] at found
    rw [short]
    show (if op.code = 0xFE then _ else (Opcode.ofEncoding? 0 op.code).map (·, rest)) = _
    rw [if_neg code, found]
    rfl
  · have long : operation op = [0xFE, op.code] := by rw [operation, page]; rfl
    rw [page] at found
    rw [long]
    show (Opcode.ofEncoding? 0xFE op.code).map (·, rest) = _
    rw [found]
    rfl

/-- An operation takes as many bytes as its size says. -/
@[simp] theorem length_operation (op : Opcode) : (operation op).length = op.size := by
  rcases op.page_cases with ⟨page, _⟩ | page
  · rw [operation, Opcode.size, page]
    rfl
  · rw [operation, Opcode.size, page]
    rfl

/-! ### Operands -/

/-- An unsigned operand that fits is read back, whatever follows. -/
theorem natural?_littleEndian {width n : Nat} (f : Nat → CodeOperand) (h : n < Nat.pow 256 width)
    (rest : Bytes) : natural? width f (littleEndian width n ++ rest) = some (f n, rest) := by
  rw [natural?, word?_littleEndian h]
  rfl

/-- A signed operand that fits is read back, whatever follows. -/
theorem integer?_signed {width : Nat} (f : Int → CodeOperand) (hw : 0 < width) {d : Int}
    (lower : -(Nat.pow 2 (8 * width - 1) : Nat) ≤ d) (upper : d < (Nat.pow 2 (8 * width - 1) : Nat))
    (rest : Bytes) : integer? width f (signed width d ++ rest) = some (f d, rest) := by
  rw [integer?, int?_signed hw lower upper]
  rfl

/-- An operand that is written as `bytes` is read back whatever follows, and takes as many
bytes as its layout says. -/
def ReadsAs (kind : OperandKind) (operand : Operand) (bytes : Bytes) (o : CodeOperand) : Prop :=
  bytes.length = kind.size operand ∧ ∀ rest, operand? kind (bytes ++ rest) = some (o, rest)

/-- A constant is read back. -/
theorem immediate_read {kind : OperandKind} {v : Immediate}
    (fits : (Operand.immediate v).fits kind) :
    ReadsAs kind (.immediate v) (immediate v) (.immediate v) := by
  cases v with
  | int8 v =>
    obtain rfl : kind = .int8 := by cases kind <;> first | rfl | cases fits
    refine ⟨length_signed 1 _, fun rest => ?_⟩
    rw [immediate, operand?, integer?_signed _ Nat.one_pos v.le_toInt v.toInt_lt,
      Int8.ofInt_toInt]
  | int32 v =>
    obtain rfl : kind = .int32 := by cases kind <;> first | rfl | cases fits
    refine ⟨length_signed 4 _, fun rest => ?_⟩
    rw [immediate, operand?, integer?_signed _ (by decide) v.le_toInt v.toInt_lt,
      Int32.ofInt_toInt]
  | int64 v =>
    obtain rfl : kind = .int64 := by cases kind <;> first | rfl | cases fits
    refine ⟨length_signed 8 _, fun rest => ?_⟩
    rw [immediate, operand?, integer?_signed _ (by decide) v.le_toInt v.toInt_lt,
      Int64.ofInt_toInt]
  | float32 bits =>
    obtain rfl : kind = .float32 := by cases kind <;> first | rfl | cases fits
    refine ⟨length_littleEndian 4 _, fun rest => ?_⟩
    rw [immediate, operand?, natural?_littleEndian _ bits.toNat_lt, UInt32.ofNat_toNat]
  | float64 bits =>
    obtain rfl : kind = .float64 := by cases kind <;> first | rfl | cases fits
    refine ⟨length_littleEndian 8 _, fun rest => ?_⟩
    rw [immediate, operand?, natural?_littleEndian _ bits.toNat_lt, UInt64.ofNat_toNat]

/-- The number of an argument is read back. -/
theorem argument_read {kind : OperandKind} {i : UInt16} (fits : (Operand.argument i).fits kind) :
    ReadsAs kind (.argument i) (slot kind i) (.argument i) := by
  cases kind with
  | shortArgument =>
    have small : i.toNat < 256 := of_decide_eq_true fits
    refine ⟨length_littleEndian 1 _, fun rest => ?_⟩
    rw [slot, operand?, natural?_littleEndian _ small, UInt16.ofNat_toNat]
  | argument =>
    refine ⟨length_littleEndian 2 _, fun rest => ?_⟩
    rw [slot, operand?, natural?_littleEndian _ i.toNat_lt, UInt16.ofNat_toNat]
    all_goals exact fun h => by cases h
  | _ => cases fits

/-- The number of a local variable is read back. -/
theorem slot_read {kind : OperandKind} {i : UInt16} (fits : (Operand.slot i).fits kind) :
    ReadsAs kind (.slot i) (slot kind i) (.slot i) := by
  cases kind with
  | shortLocal =>
    have small : i.toNat < 256 := of_decide_eq_true fits
    refine ⟨length_littleEndian 1 _, fun rest => ?_⟩
    rw [slot, operand?, natural?_littleEndian _ small, UInt16.ofNat_toNat]
  | localSlot =>
    refine ⟨length_littleEndian 2 _, fun rest => ?_⟩
    rw [slot, operand?, natural?_littleEndian _ i.toNat_lt, UInt16.ofNat_toNat]
    all_goals exact fun h => by cases h
  | _ => cases fits

/-- Tokens are written alike for every kind of metadata, string literals included. -/
theorem token_read {kind : OperandKind} (operand : Operand) (t : Token)
    (fits : (Operand.token t).fits kind ∨ kind = .string) :
    ReadsAs kind operand (token t) (.token t) := by
  have read (rest : Bytes) :
      natural? 4 (fun n => .token ⟨UInt32.ofNat n⟩) (token t ++ rest) = some (.token t, rest) := by
    rw [token, natural?_littleEndian _ t.word.toNat_lt, UInt32.ofNat_toNat]
  cases kind with
  | string | type | method | field | token | signature =>
    refine ⟨length_littleEndian 4 _, fun rest => ?_⟩
    rw [operand?]
    exact read rest
  | _ => rcases fits with h | h <;> cases h

/-! ### Distances -/

/-- A distance is written exactly if its target has an offset and it fits in its width. -/
theorem distance_eq_ok {labels : Labels} {next width : Nat} {fault : Malformation} {id : InstrId}
    {bytes : Bytes} : distance labels next width fault id = .ok bytes ↔
      ∃ target, labels[id]? = some target ∧
        -(Nat.pow 2 (8 * width - 1) : Nat) ≤ (target - next : Int) ∧
        (target - next : Int) < (Nat.pow 2 (8 * width - 1) : Nat) ∧
        bytes = signed width (target - next) := by
  rw [distance, bind_eq_ok]
  constructor
  · rintro ⟨target, found, h⟩
    unfold offsetOf at found
    split at found
    · rename_i offset label
      cases found
      dsimp only at h
      split at h
      · rename_i near
        rw [Bool.and_eq_true, decide_eq_true_eq, decide_eq_true_eq] at near
        exact ⟨target, label, near.1, near.2, (pure_eq_ok.1 h).symm⟩
      · exact nomatch h
    · exact nomatch found
  · rintro ⟨target, label, lower, upper, rfl⟩
    refine ⟨target, by rw [offsetOf, label], ?_⟩
    dsimp only
    rw [if_pos]
    · rfl
    · rw [Bool.and_eq_true, decide_eq_true_eq, decide_eq_true_eq]
      exact ⟨lower, upper⟩

/-- The distances of a switch are read back, each leading to its target. -/
theorem words?_distances {labels : Labels} {next : Nat} {ids : List InstrId}
    {entries : List Bytes}
    (h : List.Forall₂ (fun id entry => distance labels next 4 .switchTooFar id = .ok entry)
      ids entries) :
    entries.flatten.length = 4 * ids.length ∧ ∃ ds,
      List.Forall₂
        (fun d id => ∃ target : Nat, labels[id]? = some target ∧ next + d = (target : Int))
        ds ids ∧
      ∀ rest, words? ids.length (entries.flatten ++ rest) = some (ds, rest) := by
  induction h with
  | nil => exact ⟨rfl, [], .nil, fun rest => rfl⟩
  | @cons id entry ids entries first _ ih =>
    obtain ⟨length, ds, reach, read⟩ := ih
    obtain ⟨target, label, lower, upper, rfl⟩ := distance_eq_ok.1 first
    refine ⟨?_, (target - next : Int) :: ds, .cons ⟨target, label, by omega⟩ reach,
      fun rest => ?_⟩
    · simp [length]
      omega
    · rw [List.flatten_cons, List.append_assoc, List.length_cons, words?,
        int?_signed (by decide) lower upper]
      show (words? ids.length (entries.flatten ++ rest)).bind _ = _
      rw [read]
      rfl

/-- What is written of a branch is the distance to its target, in one byte or four. -/
theorem target_read {labels : Labels} {p : PlacedLine} {id : InstrId} {bytes : Bytes}
    (fits : (Operand.target id).fits p.op.operandKind)
    (h : (if p.isShort then distance labels p.next 1 .shortBranchTooFar id
      else distance labels p.next 4 .branchTooFar id) = .ok bytes) :
    ∃ o, ReadsAs p.op.operandKind (.target id) bytes o ∧
      o.StandsFor (labels[·]?) p.next (.target id) := by
  cases kind : p.op.operandKind with
  | shortBranch =>
    rw [if_pos (show p.isShort by rw [Line.isShort, kind]; rfl)] at h
    obtain ⟨target, label, lower, upper, rfl⟩ := distance_eq_ok.1 h
    refine ⟨.distance (target - p.next), ⟨length_signed 1 _, fun rest => ?_⟩,
      .distance label (by omega)⟩
    rw [operand?, integer?_signed _ Nat.one_pos lower upper]
  | branch =>
    rw [if_neg (show ¬p.isShort by rw [Line.isShort, kind]; decide)] at h
    obtain ⟨target, label, lower, upper, rfl⟩ := distance_eq_ok.1 h
    refine ⟨.distance (target - p.next), ⟨length_signed 4 _, fun rest => ?_⟩,
      .distance label (by omega)⟩
    rw [operand?, integer?_signed _ (by decide) lower upper]
  | _ =>
    rw [kind] at fits
    cases fits

/-- What is written of a switch are the number of its targets and the distances to them. -/
theorem targets_read {labels : Labels} {kind : OperandKind} {next : Nat} {ids : List InstrId}
    {bytes : Bytes} (fits : (Operand.targets ids).fits kind)
    (small : kind.size (.targets ids) < 0x100000000)
    (h : (do
      let entries ← ids.mapM (distance labels next 4 .switchTooFar)
      return littleEndian 4 ids.length ++ entries.flatten) = .ok bytes) :
    ∃ o, ReadsAs kind (.targets ids) bytes o ∧
      o.StandsFor (labels[·]?) next (.targets ids) := by
  cases kind with
  | switch =>
    have count : ids.length < Nat.pow 256 4 := by
      have size : OperandKind.switch.size (.targets ids) = 4 + 4 * ids.length := rfl
      show ids.length < 0x100000000
      omega
    obtain ⟨entries, hentries, h⟩ := bind_eq_ok.1 h
    cases h
    obtain ⟨length, ds, reach, read⟩ := words?_distances (mapM_eq_ok.1 hentries)
    refine ⟨.distances ds, ⟨?_, fun rest => ?_⟩, .distances reach⟩
    · simp [OperandKind.size, length]
    · rw [List.append_assoc, operand?, word?_littleEndian count]
      show (words? ids.length (entries.flatten ++ rest)).bind _ = _
      rw [read]
      rfl
  | _ => cases fits

/-- **An operand of a line is read back**, literals apart. -/
theorem operand_read {labels : Labels} {p : PlacedLine} {bytes : Bytes}
    (fits : p.instr.operand.fits p.op.operandKind) (small : p.size < 0x100000000)
    (h : operand labels p = .ok bytes) :
    ∃ o, ReadsAs p.op.operandKind p.instr.operand bytes o ∧
      o.StandsFor (labels[·]?) p.next p.instr.operand := by
  unfold operand at h
  unfold Line.size at small
  generalize p.instr.operand = operand at *
  cases operand with
  | none =>
    cases h
    generalize p.op.operandKind = kind at *
    cases kind with
    | none => exact ⟨.none, ⟨rfl, fun _ => rfl⟩, .none⟩
    | _ => cases fits
  | immediate v =>
    cases h
    exact ⟨_, immediate_read fits, .immediate v⟩
  | argument i =>
    cases h
    exact ⟨_, argument_read fits, .argument i⟩
  | slot i =>
    cases h
    exact ⟨_, slot_read fits, .slot i⟩
  | target id => exact target_read fits h
  | targets ids => exact targets_read fits (Nat.lt_of_le_of_lt (Nat.le_add_left _ _) small) h
  | token t =>
    cases h
    exact ⟨_, token_read _ t (.inl fits), .token t⟩
  | string | type | method | field | callSite => cases h

/-! ### Lines -/

/-- A line is read back from its operation and its operand, and takes the bytes that its size
says. -/
theorem line?_append {p : PlacedLine} {bytes : Bytes} {o : CodeOperand}
    (h : ReadsAs p.op.operandKind p.instr.operand bytes o) (rest : Bytes) :
    (operation p.op ++ bytes).length = p.size ∧
      line? p.offset (operation p.op ++ bytes ++ rest) =
        some (⟨p.offset, p.op, o, p.next⟩, rest) := by
  obtain ⟨length, read⟩ := h
  have whole : (operation p.op ++ bytes).length = p.size := by
    simp [length, Line.size]
  refine ⟨whole, ?_⟩
  have taken : (operation p.op ++ bytes ++ rest).length - rest.length = p.size := by
    rw [List.length_append, whole, Nat.add_sub_cancel]
  rw [List.append_assoc] at taken ⊢
  rw [line?, opcode?_operation]
  show (operand? p.op.operandKind (bytes ++ rest)).bind _ = _
  rw [read]
  show some (CodeLine.mk p.offset p.op o (p.offset + (_ - rest.length)), rest) = _
  rw [taken]
  rfl

/-- **A line is read back** with as many bytes as were predicted for it, and a literal in it
as the token that `intern` gives. -/
theorem line_read {intern : String → StateM σ Nat} {labels : Labels} {p : PlacedLine}
    {bytes : Bytes} {s s' : σ} (small : p.size < 0x100000000)
    (h : (line intern labels p).run.run s = (.ok bytes, s')) :
    bytes.length = p.size ∧ ∃ o operand,
      (p.instr.operand.interned intern).run s = (operand, s') ∧
      o.StandsFor (labels[·]?) p.next operand ∧
      ∀ rest, line? p.offset (bytes ++ rest) = some (⟨p.offset, p.op, o, p.next⟩, rest) := by
  unfold line at h
  split at h
  · rename_i fits
    split at h
    · rename_i literal hliteral
      obtain ⟨offset, s₁, hoffset, h⟩ := run_bind_eq_ok.1 h
      obtain ⟨rfl, rfl⟩ := run_pure_eq_ok.1 h
      have kind : p.op.operandKind = .string := by
        rw [hliteral] at fits
        cases hkind : p.op.operandKind <;> rw [hkind] at fits <;>
          first | rfl | cases fits
      have read := token_read p.instr.operand (.ofRow .userString offset)
        (.inr kind)
      refine ⟨(line?_append read []).1, _, .token (.ofRow .userString offset), ?_, .token _,
        fun rest => (line?_append read rest).2⟩
      rw [hliteral]
      exact run_bind_eq (run_liftM_eq_ok.1 hoffset) rfl
    · rename_i nonliteral
      obtain ⟨operandBytes, s₁, hbytes, h⟩ := run_bind_eq_ok.1 h
      obtain ⟨rfl, rfl⟩ := run_pure_eq_ok.1 h
      obtain ⟨hoperand, rfl⟩ := run_lift_eq_ok.1 hbytes
      obtain ⟨o, read, agrees⟩ := operand_read fits small hoperand
      refine ⟨(line?_append read []).1, o, p.instr.operand, ?_, agrees,
        fun rest => (line?_append read rest).2⟩
      rw [Operand.interned_eq_pure nonliteral]
      rfl
  · exact nomatch h

/-- **Lines are read back one behind the other**, each from where it was placed. -/
theorem code_read {intern : String → StateM σ Nat} {labels : Labels} {offset : Nat}
    {lines : List Line} {bytes : Bytes} {s s' : σ} (small : total lines < 0x100000000)
    (h : (code intern labels (placeFrom offset lines)).run.run s = (.ok bytes, s')) :
    bytes.length = total lines ∧ ∃ reads operands,
      code? offset bytes = some reads ∧
      (lines.mapM fun l : Line => l.instr.operand.interned intern).run s = (operands, s') ∧
      List.Forall₂ (fun (p : PlacedLine) (l : CodeLine) => l.offset = p.offset ∧ l.op = p.op)
        (placeFrom offset lines) reads ∧
      List.Forall₂ (fun operand (l : CodeLine) => l.operand.StandsFor (labels[·]?) l.next operand)
        operands reads := by
  induction lines generalizing offset bytes s with
  | nil =>
    obtain ⟨rfl, rfl⟩ := run_pure_eq_ok.1 h
    exact ⟨rfl, [], [], code?_nil offset, rfl, .nil, .nil⟩
  | cons l ls ih =>
    rw [total_cons] at small
    obtain ⟨first, s₁, hfirst, h⟩ := run_bind_eq_ok.1 h
    obtain ⟨rest, s₂, hrest, h⟩ := run_bind_eq_ok.1 h
    obtain ⟨rfl, rfl⟩ := run_pure_eq_ok.1 h
    have fits : l.size < 0x100000000 := by omega
    obtain ⟨length, o, operand, interned, agrees, read⟩ :=
      line_read (p := ⟨l, offset⟩) fits hfirst
    obtain ⟨lengths, reads, operands, reading, interneds, places, agree⟩ :=
      ih (by omega) hrest
    refine ⟨by simp [length, lengths],
      ⟨offset, l.op, o, offset + l.size⟩ :: reads, operand :: operands, ?_, ?_,
      .cons ⟨rfl, rfl⟩ places, .cons agrees agree⟩
    · rw [code?_of_line? (read rest)]
      show (code? (offset + l.size) rest).map _ = _
      rw [reading]
      rfl
    · rw [List.mapM_cons]
      exact run_bind_eq interned (run_bind_eq interneds rfl)

/-! ### Bodies -/

/-- The header of a body takes twelve bytes. -/
@[simp] theorem length_header (b : MethodBody) (codeSize : Nat) (localSig : Option Token) :
    (header b codeSize localSig).length = 12 := by
  unfold header
  cases localSig with
  | none => simp
  | some t => simp [token]

/-- A written body is a header, the code of its layout, and maybe a section of regions. -/
theorem encode_eq_ok {b : MethodBody} {intern : String → StateM σ Nat} {localSig : Option Token}
    {e : EncodedBody} {s s' : σ} : (b.encode intern localSig).run.run s = (.ok e, s') ↔
      ∃ layout bytes, ofBody b = .ok layout ∧
        (code intern (labels layout.lines) layout.lines).run.run s = (.ok bytes, s') ∧
        (b.regions = [] ∧ e = ⟨header b layout.size localSig ++ bytes, layout.size⟩ ∨
          b.regions ≠ [] ∧ ∃ clauses,
            regions (labels layout.lines) layout.size b.regions = .ok clauses ∧
            e = ⟨aligned 4 (header b layout.size localSig ++ bytes) ++ clauses, layout.size⟩) := by
  unfold MethodBody.encode
  rw [run_bind_eq_ok]
  constructor
  · rintro ⟨layout, s₁, first, h⟩
    obtain ⟨hlayout, rfl⟩ := run_lift_eq_ok.1 first
    obtain ⟨bytes, s₂, hbytes, h⟩ := run_bind_eq_ok.1 h
    refine ⟨layout, bytes, hlayout, ?_⟩
    split at h
    · rename_i empty
      obtain ⟨rfl, rfl⟩ := run_pure_eq_ok.1 h
      exact ⟨hbytes, .inl ⟨List.isEmpty_iff.1 empty, rfl⟩⟩
    · rename_i nonempty
      obtain ⟨clauses, s₃, last, h⟩ := run_bind_eq_ok.1 h
      obtain ⟨hclauses, rfl⟩ := run_lift_eq_ok.1 last
      obtain ⟨rfl, rfl⟩ := run_pure_eq_ok.1 h
      exact ⟨hbytes, .inr ⟨by simpa using nonempty, clauses, hclauses, rfl⟩⟩
  · rintro ⟨layout, bytes, hlayout, hbytes, h⟩
    refine ⟨layout, s, run_lift_eq_ok.2 ⟨hlayout, rfl⟩, run_bind_eq_ok.2 ⟨bytes, s', hbytes, ?_⟩⟩
    rcases h with ⟨empty, rfl⟩ | ⟨nonempty, clauses, hclauses, rfl⟩
    · rw [empty]
      rfl
    · rw [if_neg (by simpa using nonempty)]
      exact run_bind_eq_ok.2 ⟨clauses, s', run_lift_eq_ok.2 ⟨hclauses, rfl⟩, rfl⟩

/-- A written body has the code of its layout behind the header. -/
theorem code_of_encode {b : MethodBody} {intern : String → StateM σ Nat}
    {localSig : Option Token} {e : EncodedBody} {s s' : σ}
    (h : (b.encode intern localSig).run.run s = (.ok e, s')) :
    ∃ bytes tail, e.bytes = header b e.codeSize localSig ++ (bytes ++ tail) ∧
      ∃ layout, ofBody b = .ok layout ∧ e.codeSize = layout.size ∧
        (code intern (labels layout.lines) layout.lines).run.run s = (.ok bytes, s') := by
  obtain ⟨layout, bytes, hlayout, hbytes, ⟨_, rfl⟩ | ⟨_, clauses, _, rfl⟩⟩ := encode_eq_ok.1 h
  · exact ⟨bytes, [], by simp, layout, hlayout, rfl, hbytes⟩
  · obtain ⟨fill, hfill⟩ : ∃ fill, aligned 4 (header b layout.size localSig ++ bytes) =
        header b layout.size localSig ++ bytes ++ fill := ⟨_, rfl⟩
    refine ⟨bytes, fill ++ clauses, ?_, layout, hlayout, rfl, hbytes⟩
    simp only [hfill, List.append_assoc]

/-- The label of an instruction is the offset of the line that is read for it. -/
theorem startOf_of_labels {placed : List PlacedLine} {reads : List CodeLine} {id : InstrId}
    {offset : Nat} (distinct : (placed.map (·.instr.id)).Nodup)
    (places : List.Forall₂
      (fun (p : PlacedLine) (l : CodeLine) => l.offset = p.offset ∧ l.op = p.op) placed reads)
    (h : (labels placed)[id]? = some offset) :
    startOf (placed.map (·.instr)) reads id = some offset := by
  obtain ⟨p, hp, rfl, rfl⟩ := (getElem?_labels_eq_some distinct).1 h
  obtain ⟨l, hmem, same, _⟩ := exists_mem_zip places hp
  have nodup : ((placed.zip reads).map (·.1.instr.id)).Nodup := by
    have firsts : (placed.zip reads).map Prod.fst = placed :=
      List.map_fst_zip (Nat.le_of_eq places.length_eq)
    rw [← firsts, List.map_map] at distinct
    exact distinct
  rw [startOf, List.zip_map_left, List.find?_map]
  have found := find?_eq_some_of_nodup nodup hmem
  show ((((placed.zip reads).find? (·.1.instr.id == p.instr.id)).map _).map _) = _
  rw [found]
  exact congrArg some same

/-- The lines of a layout are the instructions of the body, in their order. -/
@[simp] theorem map_instr_place_settle (b : MethodBody) :
    (place (settle (draft b))).map (·.instr) = b.instructions := by
  rw [place, map_instr_placeFrom, map_instr_settle_draft]

/-- The code of a written body is read back line by line, each from where it was placed. -/
theorem exists_reads {b : MethodBody} {intern : String → StateM σ Nat} {localSig : Option Token}
    {e : EncodedBody} {s s' : σ} (h : (b.encode intern localSig).run.run s = (.ok e, s')) :
    e.code.length = e.codeSize ∧ ∃ reads operands, code? 0 e.code = some reads ∧
      (b.instructions.mapM fun i : Instruction => i.operand.interned intern).run s =
        (operands, s') ∧
      List.Forall₂ (fun (p : PlacedLine) (l : CodeLine) => l.offset = p.offset ∧ l.op = p.op)
        (place (settle (draft b))) reads ∧
      List.Forall₂ (fun operand (l : CodeLine) =>
        l.operand.StandsFor ((labels (place (settle (draft b))))[·]?) l.next operand)
        operands reads := by
  obtain ⟨bytes, tail, hbytes, layout, hlayout, hsize, hcode⟩ := code_of_encode h
  obtain ⟨_, small, rfl⟩ := ofBody_eq_ok.1 hlayout
  obtain ⟨length, reads, operands, reading, interned, places, agree⟩ := code_read small hcode
  have code : e.code = bytes := by
    rw [EncodedBody.code, hbytes, List.drop_left' (length_header ..), hsize,
      List.take_left' length]
  refine ⟨by rw [code, length, hsize], reads, operands, by rw [code, reading], ?_, places, agree⟩
  rw [← map_instr_settle_draft b, List.mapM_map]
  exact interned

/-- The offset of an instruction of a body is that of the line that is read for it. -/
theorem startOf_of_settle {b : MethodBody} {reads : List CodeLine} {id : InstrId} {offset : Nat}
    (distinct : (b.instructions.map (·.id)).Nodup)
    (places : List.Forall₂ (fun (p : PlacedLine) (l : CodeLine) => l.offset = p.offset ∧ l.op = p.op)
      (place (settle (draft b))) reads)
    (h : (labels (place (settle (draft b))))[id]? = some offset) :
    startOf b.instructions reads id = some offset := by
  rw [← map_instr_place_settle b] at distinct ⊢
  rw [List.map_map] at distinct
  exact startOf_of_labels distinct places h

end Encode

/-- **Written code is read back.**  Reading takes exactly the code, and gives a line for each
instruction in turn: with its operation or the long form of it, with its number, its slot or
its token, and for each instruction it names with a distance that leads there from the line
behind. -/
theorem MethodBody.encode_readable {b : MethodBody} {intern : String → StateM σ Nat}
    {localSig : Option Token} {e : EncodedBody} {s s' : σ}
    (distinct : (b.instructions.map (·.id)).Nodup)
    (h : (b.encode intern localSig).run.run s = (.ok e, s')) :
    e.code.length = e.codeSize ∧ ∃ lines operands,
      CodeReader.code? 0 e.code = some lines ∧
      (b.instructions.mapM fun i : Instruction => i.operand.interned intern).run s =
        (operands, s') ∧
      List.Forall₂ (fun (i : Instruction) (l : CodeLine) =>
        l.op = i.opcode ∨ l.op = i.opcode.longForm) b.instructions lines ∧
      List.Forall₂ (fun operand (l : CodeLine) =>
        l.operand.StandsFor (CodeReader.startOf b.instructions lines) l.next operand)
        operands lines := by
  obtain ⟨length, reads, operands, reading, interned, places, agree⟩ := Encode.exists_reads h
  refine ⟨length, reads, operands, reading, interned, ?_, ?_⟩
  · have grown := Layout.settle_draft b
    rw [← Layout.map_toLine_placeFrom 0 (Layout.settle _), List.forall₂_map_right_iff] at grown
    exact forall₂_trans (fun _ _ _ grown same => same.2 ▸ grown.op_eq) grown places
  · exact agree.imp fun operand l stands => stands.mono fun id target label =>
      Encode.startOf_of_settle distinct places label

/-- A short branch over a literal to the return. -/
def MethodBody.jumpOverLiteral : MethodBody :=
  .ofCode [(.brS, .target ⟨2⟩), (.ldstr, .string "skipped"), (.ret, .none)]

/-- A heap of literals that keeps how many there are. -/
def countLiterals (_ : String) : StateM Nat Nat := do
  let n ← get
  set (n + 1)
  return n

set_option maxRecDepth 20000 in
/-- The bytes of the jump over a literal. -/
theorem MethodBody.encode_jumpOverLiteral :
    (jumpOverLiteral.encode countLiterals none).run.run 5 =
      (.ok ⟨Encode.header jumpOverLiteral 8 none ++ [0x2B, 5, 0x72, 5, 0, 0, 0x70, 0x2A], 8⟩,
        6) := by
  cbv

/-- The hypotheses are satisfiable: the three lines of a branch over a literal. -/
theorem MethodBody.encode_readable_jumpOverLiteral :
    ∃ e, (jumpOverLiteral.encode countLiterals none).run.run 5 = (.ok e, 6) ∧
      e.code.length = 8 ∧ ∃ lines, CodeReader.code? 0 e.code = some lines := by
  have distinct : (jumpOverLiteral.instructions.map (·.id)).Nodup := by decide
  obtain ⟨length, lines, _, reading, _⟩ := encode_readable distinct encode_jumpOverLiteral
  exact ⟨_, encode_jumpOverLiteral, length, lines, reading⟩

end HookImage
