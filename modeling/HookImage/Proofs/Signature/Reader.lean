/-
# Reading signatures

The other side of `HookImage.Signature.Blob`, with the codes of ECMA-335 (II.23.1 and
II.23.2).

| first byte  | what follows                                          |
|-------------|-------------------------------------------------------|
| `0x06`      | the type of a field                                   |
| `0x07`      | the number of local variables, and they               |
| `0x0A`      | the number of arguments of an instantiation, and they |
| other       | a method: its convention in the low four bits, marks  |
|             | for generics, receiver and explicit receiver above    |

A reader takes a value from the front of a run of bytes.  Types are nested no deeper than
they have bytes, so that many levels are enough.
-/

import HookImage.Proofs.Bytes.Reading
import HookImage.Signature.Blob

namespace HookImage
namespace SignatureReader

/-- Takes a value from the front of a run of bytes. -/
abbrev Reader := StateT Bytes Option

/-- The next byte. -/
def byte : Reader UInt8 := fun bytes =>
  match bytes with
  | [] => none
  | b :: rest => some (b, rest)

/-- The next compressed number. -/
def number : Reader Nat := Bytes.compressed?

/-- The table with a tag. -/
def typeTable? : Nat → Option TableId
  | 0 => some .typeDef
  | 1 => some .typeRef
  | 2 => some .typeSpec
  | _ => none

/-- A named type: the tag of its table in the low two bits, and the row above. -/
def handle : Reader TypeHandle := do
  let n ← number
  let table ← liftM (typeTable? (n % 4))
  return .token (.ofRow table (n / 4))

/-- As many values as are asked for. -/
def many {α : Type} (reader : Reader α) : Nat → Reader (List α)
  | 0 => return []
  | n + 1 => do
    let x ← reader
    let xs ← many reader n
    return x :: xs

/-- The primitive type with a code. -/
def primitive? : UInt8 → Option PrimitiveType
  | 0x01 => some .void
  | 0x02 => some .boolean
  | 0x03 => some .char
  | 0x04 => some .int8
  | 0x05 => some .uint8
  | 0x06 => some .int16
  | 0x07 => some .uint16
  | 0x08 => some .int32
  | 0x09 => some .uint32
  | 0x0A => some .int64
  | 0x0B => some .uint64
  | 0x0C => some .float32
  | 0x0D => some .float64
  | 0x0E => some .string
  | 0x16 => some .typedByRef
  | 0x18 => some .nativeInt
  | 0x19 => some .nativeUInt
  | 0x1C => some .object
  | _ => none

/-- Whether an applied type is a value type. -/
def isValue? : UInt8 → Option Bool
  | 0x11 => some true
  | 0x12 => some false
  | _ => none

/-- A type that is nested no deeper than `depth`. -/
def type : Nat → Reader TypeSig
  | 0 => failure
  | depth + 1 => do
    match ← byte with
    | 0x0F => return .pointer (← type depth)
    | 0x10 => return .byRef (← type depth)
    | 0x11 => return .value (← handle)
    | 0x12 => return .reference (← handle)
    | 0x13 => return .typeParam (UInt32.ofNat (← number))
    | 0x15 =>
      let isValue ← liftM (isValue? (← byte))
      let definition ← handle
      let arguments ← many (type depth) (← number)
      return .generic isValue definition arguments
    | 0x1D => return .array (← type depth)
    | 0x1E => return .methodParam (UInt32.ofNat (← number))
    | code => return .primitive (← liftM (primitive? code))

/-- The calling convention with a number. -/
def convention? : UInt8 → Option CallConvention
  | 0 => some .default
  | 1 => some .c
  | 2 => some .stdCall
  | 3 => some .thisCall
  | 4 => some .fastCall
  | 5 => some .varArg
  | _ => none

/-- The number of generic parameters, if the header says that there are any. -/
def genericCount (header : UInt8) : Reader Nat :=
  if header &&& 0x10 = 0 then pure 0 else number

/-- The signature of a method with a header.  The header marks a receiver and an explicit one. -/
def ofHeader (header : UInt8) (convention : CallConvention) (generics : Nat) (result : TypeSig)
    (params : List TypeSig) : MethodSig where
  hasThis := header &&& 0x20 != 0
  explicitThis := header &&& 0x40 != 0
  convention
  genericCount := UInt32.ofNat generics
  result
  params

/-- The signature of a method. -/
def method (depth : Nat) : Reader MethodSig := do
  let header ← byte
  let convention ← liftM (convention? (header &&& 0x0F))
  let generics ← genericCount header
  let length ← number
  let result ← type depth
  let params ← many (type depth) length
  return ofHeader header convention generics result params

/-- The signature of a field. -/
def field (depth : Nat) : Reader TypeSig := do
  guard ((← byte) = 0x06)
  type depth

/-- Whether the mark of a pinned variable is next.  It is taken if it is there. -/
def pinned : Reader Bool := fun bytes =>
  match bytes with
  | 0x45 :: rest => some (true, rest)
  | _ => some (false, bytes)

/-- A local variable: its type, behind a mark if it is pinned. -/
def localVar (depth : Nat) : Reader LocalVar := do
  let pinned ← pinned
  let type ← type depth
  return { type, pinned }

/-- The signature of local variables. -/
def locals (depth : Nat) : Reader (List LocalVar) := do
  guard ((← byte) = 0x07)
  many (localVar depth) (← number)

/-- The instantiation of a generic method. -/
def instantiation (depth : Nat) : Reader (List TypeSig) := do
  guard ((← byte) = 0x0A)
  many (type depth) (← number)

/-- What a reader finds in a blob, if it reads all of it. -/
def whole {α : Type} (reader : Nat → Reader α) (blob : Bytes) : Option α :=
  match reader blob.length blob with
  | some (a, []) => some a
  | _ => none

/-! ### Reading what was written -/

/-- Whether a reader takes a value from a run whatever follows. -/
def Reads {α : Type} (reader : Reader α) (bytes : Bytes) (a : α) : Prop :=
  ∀ rest, reader (bytes ++ rest) = some (a, rest)

variable {α β : Type} {reader : Reader α} {f : α → Reader β} {bytes more : Bytes} {a : α} {b : β}

/-- What two readers read one after the other they read together. -/
theorem Reads.bind (first : Reads reader bytes a) (second : Reads (f a) more b) :
    Reads (reader >>= f) (bytes ++ more) b := by
  intro rest
  show (reader (bytes ++ more ++ rest) >>= fun p => f p.1 p.2) = _
  rw [List.append_assoc, first (more ++ rest)]
  exact second rest

/-- A result is read from no bytes. -/
theorem reads_pure (a : α) : Reads (pure a) [] a := fun _ => rfl

/-- A reader with its result changed reads the same bytes. -/
theorem Reads.map {g : α → β} (first : Reads reader bytes a) :
    Reads (do return g (← reader)) bytes (g a) := by
  rw [← List.append_nil bytes]
  exact first.bind (reads_pure _)

/-- A byte is read as it is. -/
theorem reads_byte (b : UInt8) : Reads byte [b] b := fun _ => rfl

/-- What is known already is read from no bytes. -/
theorem reads_some {x : Option α} (h : x = some a) : Reads (liftM x) [] a := by
  rw [h]
  exact fun _ => rfl

/-- What is read behind a value that takes no bytes. -/
theorem Reads.after {x : Option α} (h : x = some a) (second : Reads (f a) more b) :
    Reads (liftM x >>= f) more b :=
  (reads_some h).bind second

/-- What is read behind a byte. -/
theorem Reads.behind {f : UInt8 → Reader β} (c : UInt8) (second : Reads (f c) more b) :
    Reads (byte >>= f) (c :: more) b :=
  (reads_byte c).bind second

/-- A compressed number is read back. -/
theorem reads_number {n : UInt32} (h : n.toNat < 0x20000000) :
    Reads number (Bytes.compressed n) n.toNat :=
  Bytes.compressed?_compressed h

/-- What is read from all the bytes is read from the whole blob. -/
theorem Reads.whole {reader : Nat → Reader α} (h : Reads (reader bytes.length) bytes a) :
    whole reader bytes = some a := by
  have := h []
  rw [List.append_nil] at this
  rw [SignatureReader.whole, this]

end SignatureReader
end HookImage
