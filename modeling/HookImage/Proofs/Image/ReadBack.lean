/-
# A written image read back

The reader finds in a written file what the writer put there: the version and the flags, the five
streams one behind the other, how many rows every table has, and the identity of the module
(`Image.read_write`).  The identity is the beginning of the digest of the same file with zeros in
its place, and it lies where the header of its stream says.
-/

import HookImage.Proofs.Image.StreamHeaders
import HookImage.Proofs.Image.TableStream
import Mathlib

namespace HookImage

open Bytes (LiesAt)
open File

/-! ### The metadata -/

namespace File

/-- The names of the streams of a module. -/
def streamNames : List String := ["#~", "#Strings", "#US", "#GUID", "#Blob"]

/-- The streams of a module have fixed names. -/
@[simp] theorem map_name_streams (t : Tables) (literals : LiteralHeap) (identity : Bytes) :
    (streams t literals identity).map (·.name) = streamNames := rfl

/-- The names of the streams are read back. -/
theorem readable_streams (t : Tables) (literals : LiteralHeap) (identity : Bytes) :
    ∀ s ∈ streams t literals identity, Reader.Readable s.name := by
  have names : ∀ name ∈ streamNames, Reader.Readable name := by decide +kernel
  rw [← map_name_streams t literals identity] at names
  exact List.forall_mem_map.1 names

/-- Every stream has a size of 32 bits. -/
theorem length_lt_of_streamHeaders {offset : Nat} {ss : List Stream} {headers : Bytes}
    (h : streamHeaders offset ss = .ok headers) : ∀ s ∈ ss, s.bytes.length < 0x100000000 := by
  induction ss generalizing offset headers with
  | nil => exact fun s mem => by cases mem
  | cons s ss ih =>
    obtain ⟨start, -, h⟩ := bind_eq_ok.1 h
    obtain ⟨size, hsize, h⟩ := bind_eq_ok.1 h
    obtain ⟨others, hothers, -⟩ := bind_eq_ok.1 h
    exact List.forall_mem_cons.2 ⟨(checkedSize_eq_ok.1 hsize).1, ih hothers⟩

/-- The root of metadata in its parts. -/
theorem exists_of_metadataRoot {ss : List Stream} {root : Bytes} (h : metadataRoot ss = .ok root) :
    ∃ headers, streamHeaders root.length ss = .ok headers ∧
      root = Bytes.littleEndian 4 metadataMark ++ ([1, 0, 1, 0, 0, 0, 0, 0] ++
        (Bytes.littleEndian 4 (paddedName version).length ++ (paddedName version ++
        ([0, 0] ++ (Bytes.littleEndian 2 ss.length ++ headers))))) := by
  have length := length_metadataRoot h
  obtain ⟨headers, hheaders, h⟩ := bind_eq_ok.1 h
  cases h
  exact ⟨headers, length ▸ hheaders, by simp only [List.append_assoc]⟩

/-- A padded name takes a multiple of four bytes. -/
theorem length_paddedName_mod (name : String) : (paddedName name).length % 4 = 0 := by
  rw [Reader.length_paddedName]
  exact Bytes.roundUp_mod (by decide) _

/-- The headers of streams take a multiple of four bytes. -/
theorem streamHeadersSize_mod (ss : List Stream) : streamHeadersSize ss % 4 = 0 := by
  induction ss with
  | nil => rfl
  | cons s ss ih =>
    have name := length_paddedName_mod s.name
    rw [streamHeadersSize, List.foldr_cons, ← streamHeadersSize]
    omega

/-- The streams begin at a multiple of four. -/
theorem length_root_mod {ss : List Stream} {root : Bytes} (h : metadataRoot ss = .ok root) :
    root.length % 4 = 0 := by
  have headers := streamHeadersSize_mod ss
  have text := length_paddedName_mod version
  rw [length_metadataRoot h]
  omega

/-- The streams are filled up to multiples of four. -/
theorem length_streams_mod (t : Tables) (literals : LiteralHeap) {identity : Bytes}
    (length : identity.length = 16) :
    ∀ s ∈ streams t literals identity, s.bytes.length % 4 = 0 := by
  have aligned (bytes : Bytes) : (Bytes.aligned 4 bytes).length % 4 = 0 := by
    simp [Bytes.roundUp_mod]
  simp only [streams, List.forall_mem_cons]
  exact ⟨aligned _, aligned _, aligned _, by rw [length], aligned _, fun _ h => by cases h⟩

/-- The header of the stream of identifiers tells where the identity begins. -/
theorem mem_headersOf_streams (d : Draft) (start : Nat) {identity : Bytes}
    (length : identity.length = 16) : ⟨"#GUID", start + identityOffset d, 16⟩ ∈
      Reader.headersOf start (streams (Tables.ofDraft d) d.literals identity) := by
  simp [streams, Reader.headersOf, identityOffset, length, Nat.add_assoc]

/-- **Metadata is read back**, if its stream of tables holds rows of some tables. -/
theorem metadata_eq_ok {d : Draft} {tables : List TableId} (holds : (Tables.ofDraft d).Hold tables)
    (heap : tables.count .userString = 0) {root identity : Bytes} (length : identity.length = 16)
    (written : metadataRoot (streams (Tables.ofDraft d) d.literals identity) = .ok root)
    {data : Array UInt8} {offset : Nat} (flags : Nat)
    (here : LiesAt data.toList offset (metadataOf d root identity)) :
    Reader.metadata data offset flags = .ok {
      version := version
      identity
      flags
      streams := Reader.headersOf root.length (streams (Tables.ofDraft d) d.literals identity)
      rows := TableId.present tables.count } := by
  obtain ⟨headers, hheaders, parts⟩ := exists_of_metadataRoot written
  -- Where the fields of the root lie, each behind the one before it.
  have contents := here.next rfl
  rw [metadataOf] at here
  nth_rewrite 1 [parts] at here
  simp only [List.append_assoc] at here
  have marks := here.nextWord
  have lengths := marks.next (n := 8) rfl
  have versions := lengths.nextWord
  have zeros := versions.next rfl
  have counts := zeros.next (n := 2) rfl
  have infos := counts.nextWord
  have texts : (paddedName version).length = 12 := by decide +kernel
  have decoded : Reader.trimNul (Text.decodeUtf8 (paddedName version)) = version := by
    decide +kernel
  have found := Reader.streamHeaders_eq_ok (readable_streams _ _ _) hheaders infos.left
  have five : (streams (Tables.ofDraft d) d.literals identity).length < Nat.pow 256 2 := by
    show 5 < 65536
    decide
  -- Of the streams only those of tables and of identifiers are read.
  have lie := Reader.liesAt_headersOf contents
  simp only [streams, Reader.headersOf, List.forall₂_cons] at lie
  obtain ⟨table, -, -, guid, -⟩ := lie
  have small := length_lt_of_streamHeaders hheaders _ (List.mem_cons_self ..)
  obtain ⟨valid, hvalid, hrows⟩ := holds.rowCounts_stream heap small table
  refine bind_eq_ok.2 ⟨_, here.left.number (by decide), bind_eq_ok.2 ⟨(), rfl,
    bind_eq_ok.2 ⟨_, lengths.left.number (by rw [texts]; decide),
    bind_eq_ok.2 ⟨_, versions.left.bytes, bind_eq_ok.2 ⟨_, counts.left.number five,
    bind_eq_ok.2 ⟨_, found, bind_eq_ok.2 ⟨_, rfl, bind_eq_ok.2 ⟨identity, ?_,
    bind_eq_ok.2 ⟨_, rfl, bind_eq_ok.2 ⟨valid, hvalid, bind_eq_ok.2 ⟨_, hrows, ?_⟩⟩⟩⟩⟩⟩⟩⟩⟩⟩⟩
  · exact length ▸ guid.bytes
  · rw [decoded]
    rfl

end File

/-! ### The identity -/

/-- A digest has twenty bytes. -/
theorem Sha1.length_digest (message : Bytes) : (digest message).length = 20 := by
  simp [digest, Bytes.bigEndian]

/-- The identity of a module has sixteen bytes. -/
@[simp] theorem File.length_identity (s : Split) : s.identity.length = 16 := by
  rw [Split.identity, List.length_take, Sha1.length_digest]
  rfl

/-! ### Images -/

/-- Whether the metadata that a file is said to hold is that of an image. -/
structure MetadataInfo.Describes (info : MetadataInfo) (image : Image) (file : Bytes) : Prop where
  version : info.version = "v4.0.30319"
  flags : info.flags = 1
  names : info.streams.map (·.name) = ["#~", "#Strings", "#US", "#GUID", "#Blob"]
  aligned : ∀ s ∈ info.streams, s.offset % 4 = 0 ∧ s.size % 4 = 0
  adjacent : info.streams.IsChain fun s next => next.offset = s.offset + s.size
  /-- The tables are those that the image has rows for, by table number. -/
  rows : info.rows = TableId.present image.rowCount
  sorted : info.rows.Pairwise fun row next => row.1.number < next.1.number
  /-- The identity is the beginning of the digest of the file with zeros in its place, and it
  lies where the header of its stream says. -/
  identity : ∃ root offset front back, LiesAt file root (Bytes.littleEndian 4 metadataMark) ∧
    ⟨"#GUID", offset, 16⟩ ∈ info.streams ∧ file = front ++ info.identity ++ back ∧
    front.length = root + offset ∧ info.identity.length = 16 ∧
    info.identity = (Sha1.digest (front ++ List.replicate 16 0 ++ back)).take 16

namespace Image

/-- A written image is a draft of it, split around the identity. -/
theorem exists_of_write {image : Image} {bytes : Bytes} (h : image.write = .ok bytes) :
    ∃ d s, Draft.ofImage image = .ok d ∧ split d = .ok s ∧ bytes = s.withIdentity s.identity := by
  obtain ⟨d, hd, h⟩ := bind_eq_ok.1 h
  obtain ⟨s, hs, h⟩ := bind_eq_ok.1 h
  cases h
  exact ⟨d, s, hd, hs, rfl⟩

/-- How a written image is laid out and what is read of it, in the terms of its draft. -/
theorem exists_read_of_write {image : Image} {bytes : Bytes} (made : image.Made)
    (h : image.write = .ok bytes) : ∃ (d : Draft) (s : Split) (root : Bytes),
      Draft.ofImage image = .ok d ∧
      bytes = s.withIdentity s.identity ∧
      metadataRoot (streams (Tables.ofDraft d) d.literals s.identity) = .ok root ∧
      s.front.length = fileAlignment + metadataOffset d + (root.length + identityOffset d) ∧
      LaidOut d root s.identity bytes ∧
      MetadataInfo.read bytes.toArray = .ok {
        version := version
        identity := s.identity
        flags := 1
        streams := Reader.headersOf root.length (streams (Tables.ofDraft d) d.literals s.identity)
        rows := TableId.present image.rowCount } := by
  obtain ⟨d, s, hd, hs, rfl⟩ := exists_of_write h
  obtain ⟨root, hroot, front, laidOut⟩ := exists_laidOut_of_split hs
  rw [metadataRoot_congr _ _ (List.length_replicate.trans (length_identity s).symm)] at hroot
  have filled : 0 < root.length := by
    obtain ⟨_, -, parts⟩ := exists_of_metadataRoot hroot
    simp [parts]
  have holds := Tables.hold_ofDraft (Draft.adds_ofImage hd)
  have metadata := metadata_eq_ok holds (count_tables made .userString) (length_identity s) hroot
    1 (laidOut s.identity).metadata
  rw [show (fun table => image.tables.count table) = image.rowCount from
    funext (count_tables made)] at metadata
  exact ⟨d, s, root, hd, rfl, hroot, front, laidOut s.identity,
    (laidOut s.identity).read_eq_ok filled metadata⟩

/-- **A written image is read back.** -/
theorem read_write {image : Image} {bytes : Bytes} (made : image.Made)
    (h : image.write = .ok bytes) :
    ∃ info, MetadataInfo.read bytes.toArray = .ok info ∧ info.Describes image bytes := by
  obtain ⟨d, s, root, -, rfl, hroot, front, laidOut, read⟩ := exists_read_of_write made h
  have here := laidOut.metadata
  have mark : LiesAt (s.withIdentity s.identity) (fileAlignment + metadataOffset d)
      (Bytes.littleEndian 4 metadataMark) := by
    obtain ⟨headers, -, eq⟩ := exists_of_metadataRoot hroot
    rw [eq] at here
    exact here.left.left
  exact ⟨_, read, {
    version := rfl
    flags := rfl
    names := (Reader.map_name_headersOf _ _).trans rfl
    aligned := Reader.aligned_headersOf (length_root_mod hroot)
      (length_streams_mod _ _ (length_identity s))
    adjacent := Reader.isChain_headersOf _ _
    rows := rfl
    sorted := TableId.sorted_present image.rowCount
    identity := ⟨_, _, s.front, s.back, mark, mem_headersOf_streams d _ (length_identity s), rfl,
      front, length_identity s, rfl⟩ }⟩

/-- An image with a method of two parameters in a nested container. -/
def sampled : Image where
  name := "dump"
  symbols := .empty
  provenance := attributeType "PatchInfo" (.ofRow .typeRef 1) (.ofRow .memberRef 1)
  containers := [
    { nspace := "Game", name := "Clock", parent := none, standsFor := ⟨1⟩, children := [1] },
    { nspace := "", name := "Hand", parent := some 0, standsFor := ⟨2⟩, methods := [
      { name := "Move", signature := {}, paramNames := ["from", "to"],
        body := .ofCode [(.ret, .none)],
        tags := [⟨"Transform", "clockwork"⟩] }] }]
  roots := [0]

set_option maxRecDepth 2000 in
/-- The sampled image is written. -/
theorem exists_write_sampled : ∃ bytes, sampled.write = .ok bytes := by
  apply exists_write_of_small
  cbv

/-- The hypotheses are satisfiable: such an image is written and read back. -/
theorem read_write_sampled : ∃ bytes info, sampled.write = .ok bytes ∧
    MetadataInfo.read bytes.toArray = .ok info ∧ info.Describes sampled bytes := by
  obtain ⟨bytes, written⟩ := exists_write_sampled
  obtain ⟨info, read, describes⟩ := read_write ⟨_, _, _, rfl⟩ written
  exact ⟨bytes, info, written, read, describes⟩

end Image
end HookImage
