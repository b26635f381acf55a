/-
# Written images

An image is written as a class library with one section.

| where | what |
| --- | --- |
| file offset 0 | loader stub, then the headers of the file and of the section |
| file offset `0x200`, address `0x2000` | header of the runtime, 72 bytes |
| behind it | method bodies, each at a multiple of four |
| behind them | metadata: root, headers of the streams, the five streams |

The module is identified by the first sixteen bytes of the SHA-1 of the file in which
these bytes are zero, so equal images have equal files.
-/

import HookImage.Image.Sha1
import HookImage.Image.Tables

namespace HookImage
namespace File

/-- Where the section begins in the file, which is also the step of its size. -/
def fileAlignment : Nat := 0x200

/-- Where the section begins in memory, which is also the step of sizes there. -/
def sectionAddress : Nat := 0x2000

/-- The size of the header of the runtime. -/
def runtimeHeaderSize : Nat := 72

/-- The place of the runtime among the sixteen data directories. -/
def runtimeDirectory : Nat := 14

/-- The mark at the beginning of metadata. -/
def metadataMark : Nat := 0x424A5342

/-- The version of the metadata. -/
def version : String := "v4.0.30319"

/-- A length as a number of 32 bits. -/
def checkedSize (part : String) (n : Nat) : Except Malformation Nat :=
  if n < 0x100000000 then .ok n else .error (.tooLarge part)

/-- An address of 32 bits; a sum that is not below `2 ^ 32` overflows. -/
def checkedAddress (n : Nat) : Except Error Nat :=
  if n < 0x100000000 then .ok n else .error .overflow

/-- A stream of metadata. -/
structure Stream where
  name : String
  bytes : Bytes

/-- The streams in the order in which they are written.  The stream of identifiers holds
the identity of the module. -/
def streams (t : Tables) (literals : LiteralHeap) (identity : Bytes) : List Stream :=
  [⟨"#~", t.stream⟩,
    ⟨"#Strings", Bytes.aligned 4 t.names.data.toList⟩,
    ⟨"#US", Bytes.aligned 4 literals.data.toList⟩,
    ⟨"#GUID", identity⟩,
    ⟨"#Blob", Bytes.aligned 4 t.blobs.data.toList⟩]

/-- A name with a zero behind it, filled up to a multiple of four. -/
def paddedName (name : String) : Bytes := Bytes.aligned 4 (Bytes.utf8 name ++ [0])

/-- The headers of streams, the first of which begins at `offset`. -/
def streamHeaders (offset : Nat) : List Stream → Except Malformation Bytes
  | [] => .ok []
  | s :: rest => do
    let start ← checkedSize "metadata" offset
    let size ← checkedSize s.name s.bytes.length
    let others ← streamHeaders (offset + s.bytes.length) rest
    return Bytes.littleEndian 4 start ++ Bytes.littleEndian 4 size ++ paddedName s.name ++ others

/-- The size of the headers of streams. -/
def streamHeadersSize (ss : List Stream) : Nat :=
  ss.foldr (fun s n => 8 + (paddedName s.name).length + n) 0

/-- The metadata without the streams: mark, version and the headers of the streams. -/
def metadataRoot (ss : List Stream) : Except Malformation Bytes := do
  let text := paddedName version
  let headers ← streamHeaders (20 + text.length + streamHeadersSize ss) ss
  return Bytes.littleEndian 4 metadataMark ++ [1, 0, 1, 0, 0, 0, 0, 0] ++
    Bytes.littleEndian 4 text.length ++ text ++ [0, 0] ++
    Bytes.littleEndian 2 ss.length ++ headers

/-- The stub that a loader of another system runs, with a pointer to the headers. -/
def dosHeader : Bytes :=
  let head : Bytes := [0x4D, 0x5A, 0x90, 0x00, 0x03, 0x00, 0x00, 0x00, 0x04, 0x00, 0x00, 0x00,
    0xFF, 0xFF, 0x00, 0x00, 0xB8, 0x00, 0x00, 0x00, 0x00, 0x00, 0x00, 0x00, 0x40]
  let stub : Bytes := [0x0E, 0x1F, 0xBA, 0x0E, 0x00, 0xB4, 0x09, 0xCD, 0x21, 0xB8, 0x01, 0x4C,
    0xCD, 0x21] ++ Bytes.utf8 "This program cannot be run in DOS mode.\r\r\n$"
  let header := head ++ List.replicate (0x3C - head.length) 0 ++ Bytes.littleEndian 4 0x80 ++ stub
  header ++ List.replicate (0x80 - header.length) 0

/-- The header of the file: a mark, a machine of 32 bits, one section, the size of the
header of the image, and what kind of file it is. -/
def coffHeader : Bytes :=
  Bytes.utf8 "PE" ++ [0, 0] ++ Bytes.littleEndian 2 0x014C ++ Bytes.littleEndian 2 1 ++
    List.replicate 12 0 ++ Bytes.littleEndian 2 0xE0 ++ Bytes.littleEndian 2 0x2102

/-- The data directories, of which only that of the runtime is in use. -/
def directories : Bytes :=
  (List.range 16).flatMap fun i =>
    if i == runtimeDirectory then
      Bytes.littleEndian 4 sectionAddress ++ Bytes.littleEndian 4 runtimeHeaderSize
    else Bytes.littleEndian 4 0 ++ Bytes.littleEndian 4 0

/-- The header of the image, for `raw` bytes of code in the file and `mapped` bytes of
memory. -/
def imageHeader (raw mapped : Nat) : Bytes :=
  let word := Bytes.littleEndian 2
  let dword := Bytes.littleEndian 4
  word 0x010B ++ [8, 0] ++
    [raw, 0, 0, 0, sectionAddress, 0, 0x10000000, sectionAddress, fileAlignment].flatMap dword ++
    [4, 0, 0, 0, 4, 0].flatMap word ++ dword 0 ++ dword mapped ++ dword fileAlignment ++
    dword 0 ++ word 3 ++ word 0x8540 ++
    [0x100000, 0x1000, 0x100000, 0x1000, 0, 16].flatMap dword ++ directories

/-- The header of the section, for `size` bytes in memory and `raw` bytes in the file. -/
def sectionHeader (size raw : Nat) : Bytes :=
  let dword := Bytes.littleEndian 4
  Bytes.utf8 ".text" ++ [0, 0, 0] ++ dword size ++ dword sectionAddress ++ dword raw ++
    dword fileAlignment ++ List.replicate 12 0 ++ dword 0x60000020

/-- The headers of the file, for a section of `size` bytes in an image that takes `mapped`
bytes of memory. -/
def peHeaders (size mapped : Nat) : Bytes :=
  let raw := Bytes.roundUp fileAlignment size
  coffHeader ++ imageHeader raw mapped ++ sectionHeader size raw

/-- The header of the runtime, for metadata of `size` bytes at an address. -/
def runtimeHeader (address size : Nat) : Bytes :=
  let header := Bytes.littleEndian 4 runtimeHeaderSize ++ [2, 0, 5, 0] ++
    Bytes.littleEndian 4 address ++ Bytes.littleEndian 4 size ++ Bytes.littleEndian 4 1
  header ++ List.replicate (runtimeHeaderSize - header.length) 0

/-- A file as two parts around the identity of the module. -/
structure Split where
  front : Bytes
  back : Bytes

/-- The file of a draft around the identity of the module. -/
def split (d : Draft) : Except Error Split := do
  let t := Tables.ofDraft d
  let ss := streams t d.literals (List.replicate 16 0)
  let root ← metadataRoot ss
  let bodies := Bytes.aligned 4 d.bodies.toList
  let contents := ss.map (·.bytes)
  let metadataSize := root.length + contents.flatten.length
  let metadataOffset := runtimeHeaderSize + bodies.length
  let offset ← checkedSize "text section" metadataOffset
  let address ← checkedAddress (sectionAddress + offset)
  let metadataSize ← checkedSize "metadata" metadataSize
  let size ← checkedSize "text section" (metadataOffset + metadataSize)
  let mapped ← checkedAddress (Bytes.roundUp sectionAddress (sectionAddress + size))
  let headers := dosHeader ++ peHeaders size mapped
  let before := headers ++ List.replicate (fileAlignment - headers.length) 0 ++
    runtimeHeader address metadataSize ++ bodies ++ root ++
    (contents.take 3).flatten
  let after := (contents.drop 4).flatten
  let gap := Bytes.padding fileAlignment (fileAlignment + size)
  return ⟨before, after ++ List.replicate gap 0⟩

/-- The whole file with a given identity. -/
def Split.withIdentity (s : Split) (identity : Bytes) : Bytes := s.front ++ identity ++ s.back

/-- The identity of the module: the beginning of the digest of the file without it. -/
def Split.identity (s : Split) : Bytes :=
  (Sha1.digest (s.withIdentity (List.replicate 16 0))).take 16

end File

/-- The file that an image is written as. -/
def Image.write (image : Image) : Except Error Bytes := do
  let s ← File.split (← Draft.ofImage image)
  return s.withIdentity s.identity

end HookImage
