/-
# Written bodies

A written body has a header of twelve bytes, the code, and behind it, at a multiple of
four, a section with a clause of 24 bytes for each exception region.

| header | bytes |
| --- | ---: |
| flags and header size | 2 |
| stack depth | 2 |
| code size | 4 |
| signature of the local variables, or zero | 4 |

String literals are not part of a body: code names them by the offset which a heap of
the caller's gives them.  The heap keeps the literals of a body that turns out to be
damaged further on.
-/

import HookImage.Bytes
import HookImage.Cil.Layout

namespace HookImage

/-- A body as it is written. -/
structure EncodedBody where
  bytes : Bytes
  /-- The number of bytes of its instructions. -/
  codeSize : Nat

namespace Encode

/-- The offset of an instruction. -/
def offsetOf (labels : Labels) (id : InstrId) : Except Malformation Nat :=
  match labels[id]? with
  | some offset => .ok offset
  | none => .error (.missingInstruction id)

/-- The distance from `next` to an instruction, as a signed number of `width` bytes. -/
def distance (labels : Labels) (next width : Nat) (fault : Malformation) (id : InstrId) :
    Except Malformation Bytes := do
  let target ← offsetOf labels id
  let d : Int := target - next
  let half : Int := (Nat.pow 2 (8 * width - 1) : Nat)
  if -half ≤ d && d < half then return Bytes.signed width d else throw fault

/-- A number inside an instruction. -/
def immediate : Immediate → Bytes
  | .int8 v => Bytes.signed 1 v.toInt
  | .int32 v => Bytes.signed 4 v.toInt
  | .int64 v => Bytes.signed 8 v.toInt
  | .float32 bits => Bytes.littleEndian 4 bits.toNat
  | .float64 bits => Bytes.littleEndian 8 bits.toNat

/-- A slot number. -/
def slot (kind : OperandKind) (index : UInt16) : Bytes :=
  match kind with
  | .shortArgument | .shortLocal => Bytes.littleEndian 1 index.toNat
  | _ => Bytes.littleEndian 2 index.toNat

/-- A token. -/
def token (t : Token) : Bytes := Bytes.littleEndian 4 t.word.toNat

/-- The operation of a line, without its operand. -/
def operation (op : Opcode) : Bytes := if op.page == 0 then [op.code] else [op.page, op.code]

/-- The operand of a line that is no string literal. -/
def operand (labels : Labels) (p : PlacedLine) : Except Malformation Bytes :=
  match p.instr.operand with
  | .none => .ok []
  | .immediate v => .ok (immediate v)
  | .argument i => .ok (slot p.op.operandKind i)
  | .slot i => .ok (slot p.op.operandKind i)
  | .target id =>
    if p.isShort then distance labels p.next 1 .shortBranchTooFar id
    else distance labels p.next 4 .branchTooFar id
  | .targets ids => do
    let entries ← ids.mapM (distance labels p.next 4 .switchTooFar)
    return Bytes.littleEndian 4 ids.length ++ entries.flatten
  | .token t => .ok (token t)
  | other => .error (.symbolicOperand p.op other)

variable {σ : Type}

/-- One instruction, if its operand has the layout of its operation. -/
def line (intern : String → StateM σ Nat) (labels : Labels) (p : PlacedLine) :
    ExceptT Malformation (StateM σ) Bytes := do
  if p.instr.operand.fits p.op.operandKind then
    match p.instr.operand with
    | .string s =>
      let offset ← intern s
      return operation p.op ++ token (Token.ofRow .userString offset)
    | _ =>
      let bytes ← liftExcept (operand labels p)
      return operation p.op ++ bytes
  else throw (.misfit p.instr.operand p.op)
where
  /-- An operand needs no heap. -/
  liftExcept (x : Except Malformation Bytes) : ExceptT Malformation (StateM σ) Bytes :=
    ExceptT.mk (pure x)

/-- The instructions of a body, one behind the other. -/
def code (intern : String → StateM σ Nat) (labels : Labels) :
    List PlacedLine → ExceptT Malformation (StateM σ) Bytes
  | [] => return []
  | p :: ps => do
    let first ← line intern labels p
    let rest ← code intern labels ps
    return first ++ rest

/-- The last field of a clause: where the filter begins, or what is caught. -/
def clauseExtra (labels : Labels) (r : Region) : Except Malformation Nat :=
  if r.isFilter then
    match r.filterStart with
    | some id => offsetOf labels id
    | none => .error .filterWithoutStart
  else if r.isCatch then
    match r.catchType with
    | some t =>
      match Region.catchToken? t with
      | some token => .ok token.word.toNat
      | none => .error .catchTypeUnresolved
    | none => .error .catchWithoutType
  else .ok 0

/-- The offset at which a range ends; one without an end reaches to the end of the code. -/
def boundary (labels : Labels) (codeSize : Nat) : Option InstrId → Except Malformation Nat
  | some id => offsetOf labels id
  | none => .ok codeSize

/-- The clause of a region. -/
def clause (labels : Labels) (codeSize : Nat) (r : Region) : Except Malformation Bytes := do
  let tryStart ← offsetOf labels r.tryStart
  let tryEnd ← boundary labels codeSize r.tryEnd
  let handlerStart ← offsetOf labels r.handlerStart
  let handlerEnd ← boundary labels codeSize r.handlerEnd
  if tryEnd < tryStart || handlerEnd < handlerStart then throw .regionEndsEarly
  let extra ← clauseExtra labels r
  return [r.flags.toNat, tryStart, tryEnd - tryStart, handlerStart, handlerEnd - handlerStart,
    extra].flatMap (Bytes.littleEndian 4)

/-- The section behind the code: its kind, its size, and a clause for each region. -/
def regions (labels : Labels) (codeSize : Nat) (rs : List Region) :
    Except Malformation Bytes := do
  let size := rs.length * 24 + 4
  if size < 0x100000000 then
    let clauses ← rs.mapM (clause labels codeSize)
    return 0x41 :: Bytes.littleEndian 3 size ++ clauses.flatten
  else throw .tooManyRegions

/-- The header of a body. -/
def header (b : MethodBody) (codeSize : Nat) (localSig : Option Token) : Bytes :=
  let flags := 0x3003 + (if b.initLocals && !b.locals.isEmpty then 0x10 else 0) +
    (if b.regions.isEmpty then 0 else 0x08)
  Bytes.littleEndian 2 flags ++ Bytes.littleEndian 2 b.maxStack.toNat ++
    Bytes.littleEndian 4 codeSize ++ (match localSig with
      | some t => token t
      | none => [0, 0, 0, 0])

end Encode

/-- The written form of a body whose metadata is imported.  `intern` gives the offset of
a string literal. -/
def MethodBody.encode {σ : Type} (b : MethodBody) (intern : String → StateM σ Nat)
    (localSig : Option Token) : ExceptT Malformation (StateM σ) EncodedBody := do
  let layout ← ExceptT.mk (pure (Layout.ofBody b))
  let labels := Layout.labels layout.lines
  let code ← Encode.code intern labels layout.lines
  let plain := Encode.header b layout.size localSig ++ code
  if b.regions.isEmpty then return ⟨plain, layout.size⟩
  else
    let clauses ← ExceptT.mk (pure (Encode.regions labels layout.size b.regions))
    return ⟨Bytes.aligned 4 plain ++ clauses, layout.size⟩

end HookImage
