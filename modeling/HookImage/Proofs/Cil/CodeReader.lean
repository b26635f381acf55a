/-
# Reading code

Written code as a runtime reads it, one line behind the other: the operation in one byte,
or in two where the first is `0xFE`, and behind it an operand whose width the layout of the
operation tells.  Only a switch tells by its first word how many distances follow.  The
reader knows nothing of the body that was written, and it stops at the first byte that
belongs to no line.
-/

import HookImage.Cil.Instruction
import HookImage.Proofs.Bytes.Reading
import Mathlib.Data.List.Nodup

namespace HookImage

namespace Opcode

/-- The two bytes of an operation as one number. -/
def encoding (op : Opcode) : Nat := op.page.toNat * 256 + op.code.toNat

/-- The operations are listed by ascending encodings, so no two share one. -/
theorem ascending_all : (all.map encoding).IsChain (· < ·) := by
  decide +kernel

/-- No two operations are written the same way. -/
theorem encoding_inj {op op' : Opcode} (h : op.encoding = op'.encoding) : op = op' := by
  have nodup : (all.map encoding).Nodup :=
    (List.isChain_iff_pairwise.1 ascending_all).imp Nat.ne_of_lt
  exact List.inj_on_of_nodup_map nodup (mem_all op) (mem_all op') h

/-- **An operation is found by its two bytes.** -/
@[simp] theorem ofEncoding?_page_code (op : Opcode) : ofEncoding? op.page op.code = some op := by
  rcases found : ofEncoding? op.page op.code with _ | o
  · have := List.find?_eq_none.1 found op (mem_all op)
    simp at this
  · have same := List.find?_some found
    rw [Bool.and_eq_true, beq_iff_eq, beq_iff_eq] at same
    have : o.encoding = op.encoding := by rw [encoding, same.1, same.2, encoding]
    rw [encoding_inj this]

/-- An operation has one byte, or a second one behind 0xFE. -/
theorem page_cases (op : Opcode) : op.page = 0 ∧ op.code ≠ 0xFE ∨ op.page = 0xFE := by
  have every : ∀ op ∈ all, op.page = 0 ∧ op.code ≠ 0xFE ∨ op.page = 0xFE := by decide +kernel
  exact every op (mem_all op)

end Opcode

/-- An operand in written code, where branches are distances and all metadata is tokens. -/
inductive CodeOperand where
  | none
  | immediate (v : Immediate)
  | argument (index : UInt16)
  | slot (index : UInt16)
  | distance (d : Int)
  | distances (ds : List Int)
  | token (t : Token)

/-- A line of written code. -/
structure CodeLine where
  /-- Where the line begins. -/
  offset : Nat
  op : Opcode
  operand : CodeOperand
  /-- Where the line behind it begins. -/
  next : Nat

namespace CodeReader

open Bytes

/-- An operation. -/
def opcode? : Bytes → Option (Opcode × Bytes)
  | [] => none
  | b :: rest =>
    if b = 0xFE then
      match rest with
      | [] => none
      | code :: rest => (Opcode.ofEncoding? 0xFE code).map (·, rest)
    else (Opcode.ofEncoding? 0 b).map (·, rest)

/-- As many signed words as there are to be. -/
def words? : Nat → Bytes → Option (List Int × Bytes)
  | 0, bytes => some ([], bytes)
  | n + 1, bytes => do
    let (d, bytes) ← int? 4 bytes
    let (ds, bytes) ← words? n bytes
    return (d :: ds, bytes)

/-- An operand that a number of `width` bytes stands for. -/
def natural? (width : Nat) (f : Nat → CodeOperand) (bytes : Bytes) :
    Option (CodeOperand × Bytes) :=
  (word? width bytes).map fun p => (f p.1, p.2)

/-- An operand that a signed number of `width` bytes stands for. -/
def integer? (width : Nat) (f : Int → CodeOperand) (bytes : Bytes) :
    Option (CodeOperand × Bytes) :=
  (int? width bytes).map fun p => (f p.1, p.2)

/-- An operand of a given layout. -/
def operand? (kind : OperandKind) (bytes : Bytes) : Option (CodeOperand × Bytes) :=
  match kind with
  | .none => some (.none, bytes)
  | .int8 => integer? 1 (fun d => .immediate (.int8 (Int8.ofInt d))) bytes
  | .int32 => integer? 4 (fun d => .immediate (.int32 (Int32.ofInt d))) bytes
  | .int64 => integer? 8 (fun d => .immediate (.int64 (Int64.ofInt d))) bytes
  | .float32 => natural? 4 (fun n => .immediate (.float32 (UInt32.ofNat n))) bytes
  | .float64 => natural? 8 (fun n => .immediate (.float64 (UInt64.ofNat n))) bytes
  | .shortArgument => natural? 1 (fun n => .argument (UInt16.ofNat n)) bytes
  | .argument => natural? 2 (fun n => .argument (UInt16.ofNat n)) bytes
  | .shortLocal => natural? 1 (fun n => .slot (UInt16.ofNat n)) bytes
  | .localSlot => natural? 2 (fun n => .slot (UInt16.ofNat n)) bytes
  | .shortBranch => integer? 1 .distance bytes
  | .branch => integer? 4 .distance bytes
  | .switch => do
    let (n, bytes) ← word? 4 bytes
    let (ds, bytes) ← words? n bytes
    return (.distances ds, bytes)
  | .string | .type | .method | .field | .token | .signature =>
    natural? 4 (fun n => .token ⟨UInt32.ofNat n⟩) bytes

/-- The line at the front of code, which begins at `offset`. -/
def line? (offset : Nat) (bytes : Bytes) : Option (CodeLine × Bytes) := do
  let (op, behind) ← opcode? bytes
  let (operand, rest) ← operand? op.operandKind behind
  return (⟨offset, op, operand, offset + (bytes.length - rest.length)⟩, rest)

/-! ### What a reader takes -/

/-- Reading an operation takes at least one byte. -/
theorem opcode?_shorter {bytes rest : Bytes} {op : Opcode}
    (h : opcode? bytes = some (op, rest)) : rest.length < bytes.length := by
  unfold opcode? at h
  split at h
  · exact nomatch h
  · split at h
    · split at h
      · exact nomatch h
      · obtain ⟨_, _, same⟩ := Option.map_eq_some_iff.1 h
        cases same
        exact Nat.lt_succ_of_lt (Nat.lt_succ_self _)
    · obtain ⟨_, _, same⟩ := Option.map_eq_some_iff.1 h
      cases same
      exact Nat.lt_succ_self _

/-- Reading a number does not give bytes back. -/
theorem word?_shorter {width n : Nat} {bytes rest : Bytes}
    (h : word? width bytes = some (n, rest)) : rest.length ≤ bytes.length := by
  obtain ⟨p, hp, same⟩ := Option.map_eq_some_iff.1 h
  unfold split? at hp
  split at hp
  · cases hp
    cases same
    simp
  · exact nomatch hp

/-- Reading a signed number does not give bytes back. -/
theorem int?_shorter {width : Nat} {d : Int} {bytes rest : Bytes}
    (h : int? width bytes = some (d, rest)) : rest.length ≤ bytes.length := by
  obtain ⟨p, hp, same⟩ := Option.map_eq_some_iff.1 h
  cases same
  exact word?_shorter hp

/-- Reading numbers does not give bytes back. -/
theorem words?_shorter {n : Nat} {ds : List Int} {bytes rest : Bytes}
    (h : words? n bytes = some (ds, rest)) : rest.length ≤ bytes.length := by
  induction n generalizing bytes ds with
  | zero =>
    cases h
    exact Nat.le_refl _
  | succ n ih =>
    obtain ⟨⟨d, behind⟩, hd, h⟩ := Option.bind_eq_some_iff.1 h
    obtain ⟨⟨ds, last⟩, hds, h⟩ := Option.bind_eq_some_iff.1 h
    cases h
    exact Nat.le_trans (ih hds) (int?_shorter hd)

/-- Reading an operand does not give bytes back. -/
theorem operand?_shorter {kind : OperandKind} {o : CodeOperand} {bytes rest : Bytes}
    (h : operand? kind bytes = some (o, rest)) : rest.length ≤ bytes.length := by
  have natural {width : Nat} {f : Nat → CodeOperand}
      (h : natural? width f bytes = some (o, rest)) : rest.length ≤ bytes.length := by
    obtain ⟨p, hp, same⟩ := Option.map_eq_some_iff.1 h
    cases same
    exact word?_shorter hp
  have integer {width : Nat} {f : Int → CodeOperand}
      (h : integer? width f bytes = some (o, rest)) : rest.length ≤ bytes.length := by
    obtain ⟨p, hp, same⟩ := Option.map_eq_some_iff.1 h
    cases same
    exact int?_shorter hp
  cases kind with
  | none =>
    cases h
    exact Nat.le_refl _
  | switch =>
    obtain ⟨⟨n, behind⟩, hn, h⟩ := Option.bind_eq_some_iff.1 h
    obtain ⟨⟨ds, last⟩, hds, h⟩ := Option.bind_eq_some_iff.1 h
    cases h
    exact Nat.le_trans (words?_shorter hds) (word?_shorter hn)
  | int8 | int32 | int64 | shortBranch | branch =>
    rw [operand?] at h
    exact integer h
  | _ =>
    rw [operand?] at h
    exact natural h

/-- Reading a line takes at least one byte, so reading code ends. -/
theorem line?_shorter {offset : Nat} {line : CodeLine} {bytes rest : Bytes}
    (h : line? offset bytes = some (line, rest)) : rest.length < bytes.length := by
  obtain ⟨⟨op, behind⟩, hop, h⟩ := Option.bind_eq_some_iff.1 h
  obtain ⟨⟨o, last⟩, ho, h⟩ := Option.bind_eq_some_iff.1 h
  cases h
  exact Nat.lt_of_le_of_lt (operand?_shorter ho) (opcode?_shorter hop)

/-- The lines of code that begins at `offset`, if all of it is lines. -/
def code? (offset : Nat) (bytes : Bytes) : Option (List CodeLine) :=
  if bytes.isEmpty then some []
  else
    match h : line? offset bytes with
    | some (line, rest) =>
      have := line?_shorter h
      (code? line.next rest).map (line :: ·)
    | none => none
termination_by bytes.length

/-- At the end of the bytes there are no more lines. -/
@[simp] theorem code?_nil (offset : Nat) : code? offset [] = some [] := by
  rw [code?]
  rfl

/-- Code is its first line and the code behind that. -/
theorem code?_of_line? {offset : Nat} {bytes rest : Bytes} {line : CodeLine}
    (h : line? offset bytes = some (line, rest)) :
    code? offset bytes = (code? line.next rest).map (line :: ·) := by
  have nonempty : bytes ≠ [] := by
    rintro rfl
    exact nomatch line?_shorter h
  rw [code?, if_neg (by simpa using nonempty)]
  split
  · rename_i line' rest' h'
    cases h.symm.trans h'
    rfl
  · rename_i h'
    exact nomatch h.symm.trans h'

end CodeReader
end HookImage
