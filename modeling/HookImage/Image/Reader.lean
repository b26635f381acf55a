/-
# Reading metadata back

What a file says about its metadata: the version, the identity of the module, the streams
and the numbers of rows.  The reader follows the offsets that it finds and reports what
is missing or unknown.  Addresses have 32 bits; a file in which a section reaches beyond
them makes an address overflow.
-/

import HookImage.Error
import HookImage.Bytes
import HookImage.Image.File
import HookImage.Text.Utf8

namespace HookImage

/-- Where a stream lies within the metadata. -/
structure StreamHeader where
  name : String
  offset : Nat
  size : Nat
deriving DecidableEq

/-- What a file says about its metadata. -/
structure MetadataInfo where
  version : String
  /-- The sixteen bytes that identify the module. -/
  identity : Bytes
  /-- The flags of the header of the runtime. -/
  flags : Nat
  /-- The streams in the order of their headers. -/
  streams : List StreamHeader
  /-- The tables that are present with their numbers of rows, by table number. -/
  rows : List (TableId × Nat)
deriving DecidableEq

/-- The number of rows of a table; an absent table has none. -/
def MetadataInfo.rowCount (info : MetadataInfo) (table : TableId) : Nat :=
  (info.rows.lookup table).getD 0

namespace Reader

/-- The bytes of a file from an offset on. -/
def bytes (data : Array UInt8) (offset length : Nat) : Except Error Bytes :=
  if offset + length ≤ data.size then .ok (data.extract offset (offset + length)).toList
  else .error (.malformed (.truncated offset))

/-- The number that a run of bytes stands for, the lowest byte first. -/
def value : Bytes → Nat
  | [] => 0
  | b :: rest => b.toNat + 256 * value rest

/-- The number of `width` bytes at an offset. -/
def number (data : Array UInt8) (offset width : Nat) : Except Error Nat :=
  return value (← bytes data offset width)

/-- The number of eight bytes at an offset, read as two halves. -/
def long (data : Array UInt8) (offset : Nat) : Except Error Nat := do
  let low ← number data offset 4
  let high ← number data (offset + 4) 4
  return low + 0x100000000 * high

/-- Fails with a malformation unless a condition holds. -/
def require (condition : Bool) (fault : Malformation) : Except Error Unit :=
  if condition then .ok () else .error (.malformed fault)

/-- The file offset of an address, by the first of `count` section headers that covers
it. -/
def offsetOf (data : Array UInt8) (rva : Nat) : Nat → Nat → Except Error Nat
  | _, 0 => .error (.malformed (.unmapped rva))
  | header, count + 1 => do
    let size ← number data (header + 8) 4
    let address ← number data (header + 12) 4
    let raw ← number data (header + 20) 4
    if address ≤ rva then
      if 0x100000000 ≤ address + size then throw .overflow
      if rva < address + size then
        let offset := rva - address + raw
        if offset < 0x100000000 then return offset else throw .overflow
    offsetOf data rva (header + 40) count

/-- The headers of `count` streams from an offset on. -/
def streamHeaders (data : Array UInt8) : Nat → Nat → Except Error (List StreamHeader)
  | _, 0 => return []
  | cursor, count + 1 => do
    let offset ← number data cursor 4
    let size ← number data (cursor + 4) 4
    let rest := (data.extract (cursor + 8) data.size).toList
    match rest.findIdx? (· == 0) with
    | none => throw (.malformed .unterminatedStreamName)
    | some length =>
      let name := Text.decodeUtf8 (rest.take length)
      let next := cursor + 8 + Bytes.roundUp 4 (length + 1)
      return ⟨name, offset, size⟩ :: (← streamHeaders data next count)

/-- The file offset of the first stream with a name, for metadata at `root`. -/
def streamAt (streams : List StreamHeader) (root : Nat) (name : String) : Except Error Nat :=
  match streams.find? (·.name == name) with
  | some s => .ok (root + s.offset)
  | none => .error (.malformed (.noStream name))

/-- The numbers of rows of the tables whose bits are set, from an offset on. -/
def rowCounts (data : Array UInt8) (valid : Nat) :
    List Nat → Nat → Except Error (List (TableId × Nat))
  | [], _ => return []
  | bit :: bits, cursor =>
    if valid.testBit bit then
      match TableId.ofNumber? bit with
      | some table => do
        let count ← number data cursor 4
        return (table, count) :: (← rowCounts data valid bits (cursor + 4))
      | none => throw (.malformed (.unexpectedTable bit))
    else rowCounts data valid bits cursor

/-- A text without the NUL characters at its end. -/
def trimNul (s : String) : String :=
  String.ofList (s.toList.reverse.dropWhile (· == '\x00')).reverse

/-- Reads the metadata at an offset of a file. -/
def metadata (data : Array UInt8) (root flags : Nat) : Except Error MetadataInfo := do
  require ((← number data root 4) == File.metadataMark) .badMetadataSignature
  let versionLength ← number data (root + 12) 4
  let version ← bytes data (root + 16) versionLength
  let cursor := root + 16 + versionLength + 2
  let streamCount ← number data cursor 2
  let streams ← streamHeaders data (cursor + 2) streamCount
  let identity ← bytes data (← streamAt streams root "#GUID") 16
  let tables ← streamAt streams root "#~"
  let valid ← long data (tables + 8)
  let rows ← rowCounts data valid (List.range 64) (tables + 24)
  return ⟨trimNul (Text.decodeUtf8 version), identity, flags, streams, rows⟩

end Reader

/-- Reads the metadata of a file. -/
def MetadataInfo.read (data : Array UInt8) : Except Error MetadataInfo := do
  Reader.require ((← Reader.bytes data 0 2) == [0x4D, 0x5A]) .noDosSignature
  let pe ← Reader.number data 0x3C 4
  Reader.require ((← Reader.bytes data pe 4) == [0x50, 0x45, 0, 0]) .noPeSignature
  let coff := pe + 4
  let sectionCount ← Reader.number data (coff + 2) 2
  let optional := coff + 20
  let optionalSize ← Reader.number data (coff + 16) 2
  Reader.require ((← Reader.number data optional 2) == 0x010B) .notPe32
  let sections := optional + optionalSize
  let runtimeAddress ← Reader.number data (optional + 96 + File.runtimeDirectory * 8) 4
  Reader.require (runtimeAddress != 0) .noCliHeader
  let runtime ← Reader.offsetOf data runtimeAddress sections sectionCount
  let metadataAddress ← Reader.number data (runtime + 8) 4
  let flags ← Reader.number data (runtime + 16) 4
  let root ← Reader.offsetOf data metadataAddress sections sectionCount
  Reader.metadata data root flags

end HookImage
