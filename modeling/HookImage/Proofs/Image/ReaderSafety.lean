/-
# How reading may fail

Whatever the bytes of a file are, its reader reads only what lies in the file
(`Reader.bytes_eq_ok`), and where something does not, it finds the file malformed.  One kind of
numbers is not checked before it is used: the end of a section and the offset of an address are
sums of numbers of 32 bits, and leave them if the section reaches beyond.  So a file is read, or
found malformed, exactly if neither of the two addresses on the way to the metadata lies in such a
section (`MetadataInfo.read_safe_iff`).

How a computation ends is told along its steps (`Ends.bind`): it overflows if its first step does,
or if that gives a result with which the rest does.
-/

import HookImage.Proofs.Image.Layout

namespace HookImage

open Bytes (LiesAt)

/-! ### Ways to end -/

/-- How reading may end: it overflows exactly if a condition holds, and otherwise gives a result or
finds the file malformed. -/
def Ends {α : Type} (overflows : Prop) : Except Error α → Prop
  | .ok _ => ¬ overflows
  | .error .overflow => overflows
  | .error (.malformed _) => ¬ overflows
  | .error _ => False

/-- Whether reading gives a result or finds the file malformed. -/
abbrev Safe {α : Type} (x : Except Error α) : Prop := Ends False x

section Ends

variable {α β : Type} {p q : Prop} {x : Except Error α} {f : α → Except Error β}

/-- Equivalent conditions describe the same ways to end. -/
theorem Ends.congr (h : Ends p x) (same : p ↔ q) : Ends q x := propext same ▸ h

/-- **Two steps overflow** if the first one does, or if it gives a result with which the second one
does. -/
theorem Ends.bind {next : α → Prop} (first : Ends p x)
    (rest : ∀ a, x = .ok a → Ends (next a) (f a)) :
    Ends (p ∨ ∃ a, x = .ok a ∧ next a) (x >>= f) := by
  rcases x with e | a
  · have same : p ↔ p ∨ ∃ a, Except.error e = .ok a ∧ next a := by simp
    refine Ends.congr ?_ same
    cases e <;> exact first
  · refine (rest a rfl).congr ⟨fun h => .inr ⟨a, rfl, h⟩, ?_⟩
    rintro (h | ⟨_, result, h⟩)
    · exact absurd h first
    · cases result
      exact h

/-- Steps that are safe one after the other are safe together. -/
theorem Safe.bind (first : Safe x) (rest : ∀ a, x = .ok a → Safe (f a)) : Safe (x >>= f) :=
  (Ends.bind first rest).congr (by simp)

/-- Giving a result is safe. -/
theorem safe_pure (a : α) : Safe (pure a) := not_false

/-- Finding the file malformed is safe. -/
theorem safe_malformed (fault : Malformation) : Safe (.error (.malformed fault) : Except Error α) :=
  not_false

/-- Reading overflows exactly under its condition. -/
theorem Ends.eq_overflow_iff (h : Ends p x) : x = .error .overflow ↔ p := by
  rcases x with e | a
  · cases e with
    | overflow => exact iff_of_true rfl h
    | malformed fault => exact iff_of_false (fun same => by cases same) h
    | _ => exact h.elim
  · exact iff_of_false (fun same => by cases same) h

/-- What does not overflow gives a result or finds the file malformed. -/
theorem Ends.safe_iff (h : Ends p x) :
    ((∃ a, x = .ok a) ∨ ∃ fault, x = .error (.malformed fault)) ↔ ¬ p := by
  rcases x with e | a
  · cases e with
    | overflow => exact iff_of_false (by simp) (not_not_intro h)
    | malformed fault => exact iff_of_true (.inr ⟨fault, rfl⟩) h
    | _ => exact h.elim
  · exact iff_of_true (.inl ⟨a, rfl⟩) h

end Ends

/-! ### The steps of the reader -/

namespace Reader

variable {data : Array UInt8}

/-- Reading bytes is safe. -/
theorem safe_bytes (offset length : Nat) : Safe (bytes data offset length) := by
  unfold bytes
  split
  · exact safe_pure _
  · exact safe_malformed _

/-- Reading a number is safe. -/
theorem safe_number (offset width : Nat) : Safe (number data offset width) :=
  (safe_bytes _ _).bind fun _ _ => safe_pure _

/-- Reading a number of eight bytes is safe. -/
theorem safe_long (offset : Nat) : Safe (long data offset) :=
  (safe_number _ _).bind fun _ _ => (safe_number _ _).bind fun _ _ => safe_pure _

/-- A test is safe. -/
theorem safe_require (condition : Bool) (fault : Malformation) :
    Safe (require condition fault) := by
  cases condition
  · exact safe_malformed _
  · exact safe_pure ()

/-- Reading the headers of streams is safe. -/
theorem safe_streamHeaders (cursor count : Nat) : Safe (streamHeaders data cursor count) := by
  induction count generalizing cursor with
  | zero => exact safe_pure _
  | succ count ih =>
    refine (safe_number _ _).bind fun offset _ => (safe_number _ _).bind fun size _ => ?_
    dsimp only
    split
    · exact safe_malformed _
    · exact (ih _).bind fun _ _ => safe_pure _

/-- Looking a stream up is safe. -/
theorem safe_streamAt (streams : List StreamHeader) (root : Nat) (name : String) :
    Safe (streamAt streams root name) := by
  unfold streamAt
  split
  · exact safe_pure _
  · exact safe_malformed _

/-- Reading the numbers of rows is safe. -/
theorem safe_rowCounts (valid : Nat) (bits : List Nat) (cursor : Nat) :
    Safe (rowCounts data valid bits cursor) := by
  induction bits generalizing cursor with
  | nil => exact safe_pure _
  | cons bit bits ih =>
    unfold rowCounts
    split
    · split
      · exact (safe_number _ _).bind fun _ _ => (ih _).bind fun _ _ => safe_pure _
      · exact safe_malformed _
    · exact ih _

/-- **No address is left to turn into an offset behind the root of the metadata.** -/
theorem safe_metadata (root flags : Nat) : Safe (metadata data root flags) :=
  (safe_number _ _).bind fun _ _ => (safe_require _ _).bind fun _ _ =>
  (safe_number _ _).bind fun _ _ => (safe_bytes _ _).bind fun _ _ =>
  (safe_number _ _).bind fun _ _ => (safe_streamHeaders _ _).bind fun _ _ =>
  (safe_streamAt _ _ _).bind fun _ _ => (safe_bytes _ _).bind fun _ _ =>
  (safe_streamAt _ _ _).bind fun _ _ => (safe_long _).bind fun _ _ =>
  (safe_rowCounts _ _ _).bind fun _ _ => safe_pure _

end Reader

/-- Reading the header of a section is safe. -/
theorem SectionHeader.safe_read (data : Array UInt8) (header : Nat) : Safe (read data header) :=
  (Reader.safe_number _ _).bind fun _ _ => (Reader.safe_number _ _).bind fun _ _ =>
  (Reader.safe_number _ _).bind fun _ _ => safe_pure _

/-- **An address overflows in its section**, the first one that covers it, and nowhere else. -/
theorem Reader.ends_offsetOf {data : Array UInt8} {rva : Nat} (small : rva < 0x100000000)
    (header count : Nat) :
    Ends (∃ s, Finds data rva header count s ∧ ¬ s.Fits rva) (offsetOf data rva header count) := by
  induction count generalizing header with
  | zero =>
    rintro ⟨s, found, -⟩
    exact not_finds_zero s found
  | succ count ih =>
    have step (t : SectionHeader) :
        Ends (∃ s, (if t.Covers rva then t = s else Finds data rva (header + 40) count s) ∧
            ¬ s.Fits rva)
          (if t.Covers rva then
            if t.Fits rva then return t.offsetOf rva else throw .overflow
          else offsetOf data rva (header + 40) count) := by
      by_cases covers : t.Covers rva
      · simp only [if_pos covers, exists_eq_left']
        by_cases fits : t.Fits rva
        · rw [if_pos fits]
          exact not_not_intro fits
        · rw [if_neg fits]
          exact fits
      · simp only [if_neg covers]
        exact ih (header + 40)
    rw [offsetOf_succ small]
    refine (Ends.bind (SectionHeader.safe_read data header) fun t _ => step t).congr ?_
    simp only [finds_succ, false_or]
    constructor
    · rintro ⟨t, first, s, found, leaves⟩
      exact ⟨s, ⟨t, first, found⟩, leaves⟩
    · rintro ⟨s, ⟨t, first, found⟩, leaves⟩
      exact ⟨t, first, s, found, leaves⟩

namespace FileHeaders

/-- Reading the headers of a file is safe. -/
theorem safe_read (data : Array UInt8) : Safe (read data) :=
  (Reader.safe_bytes _ _).bind fun _ _ => (Reader.safe_require _ _).bind fun _ _ =>
  (Reader.safe_number _ _).bind fun _ _ => (Reader.safe_bytes _ _).bind fun _ _ =>
  (Reader.safe_require _ _).bind fun _ _ => (Reader.safe_number _ _).bind fun _ _ =>
  (Reader.safe_number _ _).bind fun _ _ => (Reader.safe_number _ _).bind fun _ _ =>
  (Reader.safe_require _ _).bind fun _ _ => (Reader.safe_number _ _).bind fun _ _ =>
  (Reader.safe_require _ _).bind fun _ _ => safe_pure _

/-- The address of the runtime that is read has 32 bits. -/
theorem runtimeAddress_lt {data : Array UInt8} {headers : FileHeaders}
    (h : read data = .ok headers) : headers.runtimeAddress < 0x100000000 := by
  simp only [read, bind_eq_ok, pure_eq_ok] at h
  obtain ⟨_, _, _, _, _, _, _, _, _, _, _, _, _, _, _, _, _, _, address, found, _, _, rfl⟩ := h
  exact (Reader.number_eq_ok.1 found).2

/-- Whether an address overflows: its section reaches beyond 32 bits. -/
def Overflows (headers : FileHeaders) (data : Array UInt8) (rva : Nat) : Prop :=
  ∃ s, Reader.Finds data rva headers.sections headers.sectionCount s ∧ ¬ s.Fits rva

end FileHeaders

/-! ### What is read stands in the file -/

namespace Reader

variable {data : Array UInt8}

/-- Whether headers of streams stand one behind the other from an offset on, each with a name that
ends at the first zero. -/
def HeadersAt (data : Array UInt8) : Nat → List StreamHeader → Prop
  | _, [] => True
  | cursor, h :: rest => ∃ name : Bytes, 0 ∉ name ∧ Text.decodeUtf8 name = h.name ∧
    LiesAt data.toList cursor
      (Bytes.littleEndian 4 h.offset ++ (Bytes.littleEndian 4 h.size ++ (name ++ [0]))) ∧
    HeadersAt data (cursor + 8 + Bytes.roundUp 4 (name.length + 1)) rest

/-- Whether numbers of rows stand one behind the other from an offset on. -/
def CountsAt (data : Array UInt8) : Nat → List (TableId × Nat) → Prop
  | _, [] => True
  | cursor, (_, count) :: rest =>
    LiesAt data.toList cursor (Bytes.littleEndian 4 count) ∧ CountsAt data (cursor + 4) rest

/-- The bytes of a file from an offset to its end. -/
theorem toList_extract_size (data : Array UInt8) (start : Nat) :
    (data.extract start data.size).toList = data.toList.drop start := by
  rw [Array.toList_extract, List.extract_eq_take_drop, List.take_of_length_le]
  rw [List.length_drop, Array.length_toList]

/-- A name is what comes before the first zero. -/
theorem liesAt_name {start length : Nat}
    (h : (data.extract start data.size).toList.findIdx? (· == 0) = some length) :
    ∃ name, (data.extract start data.size).toList.take length = name ∧ name.length = length ∧
      0 ∉ name ∧ LiesAt data.toList start (name ++ [0]) := by
  rw [toList_extract_size] at h ⊢
  obtain ⟨inside, zero, before⟩ := List.findIdx?_eq_some_iff_getElem.1 h
  rw [beq_iff_eq] at zero
  refine ⟨_, rfl, List.length_take_of_le (Nat.le_of_lt inside), fun mem => ?_, ?_⟩
  · obtain ⟨j, earlier, found⟩ := List.mem_take_iff_getElem.1 mem
    exact before j (by omega) (beq_iff_eq.2 found)
  · have here : LiesAt (data.toList.drop start) 0
        ((data.toList.drop start).take length ++ [0]) := by
      refine ⟨[], (data.toList.drop start).drop (length + 1), ?_, rfl⟩
      rw [List.nil_append, List.append_assoc, List.singleton_append, ← zero,
        List.getElem_cons_drop, List.take_append_drop]
    have tail : LiesAt data.toList start (data.toList.drop start) := by
      refine ⟨data.toList.take start, [], ?_, ?_⟩
      · rw [List.append_nil, List.take_append_drop]
      · rw [List.length_drop] at inside
        exact List.length_take_of_le (by omega)
    exact tail.within here

/-- Headers of streams that are read stand in the file. -/
theorem headersAt_of_streamHeaders {cursor count : Nat} {headers : List StreamHeader}
    (h : streamHeaders data cursor count = .ok headers) : HeadersAt data cursor headers := by
  induction count generalizing cursor headers with
  | zero =>
    cases pure_eq_ok.1 h
    trivial
  | succ count ih =>
    obtain ⟨offset, hoffset, h⟩ := bind_eq_ok.1 h
    obtain ⟨size, hsize, h⟩ := bind_eq_ok.1 h
    dsimp only at h
    split at h
    · cases h
    · rename_i length found
      obtain ⟨others, hothers, h⟩ := bind_eq_ok.1 h
      cases pure_eq_ok.1 h
      obtain ⟨name, taken, rfl, nonzero, named⟩ := liesAt_name found
      have first := (number_eq_ok.1 hoffset).1
      have second := (number_eq_ok.1 hsize).1
      refine ⟨name, nonzero, congrArg Text.decodeUtf8 taken.symm, ?_, ih hothers⟩
      exact first.append (Bytes.length_littleEndian _ _)
        (second.append (Bytes.length_littleEndian _ _) named)

/-- Numbers of rows that are read stand in the file, for the tables that the mask names. -/
theorem countsAt_of_rowCounts {valid cursor : Nat} {bits : List Nat} {rows : List (TableId × Nat)}
    (h : rowCounts data valid bits cursor = .ok rows) :
    rows.map (·.1.number) = bits.filter valid.testBit ∧ CountsAt data cursor rows := by
  induction bits generalizing cursor rows with
  | nil =>
    cases pure_eq_ok.1 h
    exact ⟨rfl, trivial⟩
  | cons bit bits ih =>
    unfold rowCounts at h
    split at h
    · rename_i set
      split at h
      · rename_i table named
        obtain ⟨count, hcount, h⟩ := bind_eq_ok.1 h
        obtain ⟨others, hothers, h⟩ := bind_eq_ok.1 h
        cases pure_eq_ok.1 h
        obtain ⟨tables, counts⟩ := ih hothers
        refine ⟨?_, (number_eq_ok.1 hcount).1, counts⟩
        rw [List.map_cons, List.filter_cons_of_pos set, tables, TableId.number_of_ofNumber? named]
      · cases h
    · rename_i unset
      rw [List.filter_cons_of_neg unset]
      exact ih h

end Reader

/-- Whether what is said about metadata stands in a file, with the header of the runtime at one
offset and the root of the metadata at another. -/
structure MetadataInfo.StandsAt (info : MetadataInfo) (data : Array UInt8) (runtime root : Nat) :
    Prop where
  flags : LiesAt data.toList (runtime + 16) (Bytes.littleEndian 4 info.flags)
  mark : LiesAt data.toList root (Bytes.littleEndian 4 File.metadataMark)
  version : ∃ text, LiesAt data.toList (root + 16) text ∧
    Reader.trimNul (Text.decodeUtf8 text) = info.version
  streams : ∃ cursor, Reader.HeadersAt data cursor info.streams
  identity : ∃ offset, Reader.streamAt info.streams root "#GUID" = .ok offset ∧
    LiesAt data.toList offset info.identity ∧ info.identity.length = 16
  /-- The tables are those whose bits are set. -/
  rows : ∃ offset valid, Reader.streamAt info.streams root "#~" = .ok offset ∧
    LiesAt data.toList (offset + 8) (Bytes.littleEndian 8 valid) ∧
    info.rows.map (·.1.number) = (List.range 64).filter valid.testBit ∧
    Reader.CountsAt data (offset + 24) info.rows

namespace MetadataInfo

variable {data : Array UInt8}

/-- What is read as metadata stands in the file. -/
theorem standsAt_of_metadata {runtime root flags : Nat} {info : MetadataInfo}
    (flagged : LiesAt data.toList (runtime + 16) (Bytes.littleEndian 4 flags))
    (h : Reader.metadata data root flags = .ok info) : info.StandsAt data runtime root := by
  obtain ⟨mark, hmark, h⟩ := bind_eq_ok.1 h
  obtain ⟨_, marked, h⟩ := bind_eq_ok.1 h
  obtain ⟨versionLength, -, h⟩ := bind_eq_ok.1 h
  obtain ⟨version, hversion, h⟩ := bind_eq_ok.1 h
  obtain ⟨streamCount, -, h⟩ := bind_eq_ok.1 h
  obtain ⟨streams, hstreams, h⟩ := bind_eq_ok.1 h
  obtain ⟨identityAt, hidentityAt, h⟩ := bind_eq_ok.1 h
  obtain ⟨identity, hidentity, h⟩ := bind_eq_ok.1 h
  obtain ⟨tables, htables, h⟩ := bind_eq_ok.1 h
  obtain ⟨valid, hvalid, h⟩ := bind_eq_ok.1 h
  obtain ⟨rows, hrows, h⟩ := bind_eq_ok.1 h
  cases pure_eq_ok.1 h
  obtain ⟨named, counts⟩ := Reader.countsAt_of_rowCounts hrows
  exact {
    flags := flagged
    mark := by
      unfold Reader.require at marked
      split at marked
      · rename_i same
        exact beq_iff_eq.1 same ▸ (Reader.number_eq_ok.1 hmark).1
      · cases marked
    version := ⟨version, (Reader.bytes_eq_ok.1 hversion).1, rfl⟩
    streams := ⟨_, Reader.headersAt_of_streamHeaders hstreams⟩
    identity := ⟨_, hidentityAt, Reader.bytes_eq_ok.1 hidentity⟩
    rows := ⟨_, _, htables, (Reader.long_eq_ok.1 hvalid).1, named, counts⟩ }

/-- **What is read stands in the file.** -/
theorem standsAt_of_read {info : MetadataInfo} (h : read data = .ok info) :
    ∃ runtime root, info.StandsAt data runtime root := by
  rw [read_eq] at h
  obtain ⟨headers, -, h⟩ := bind_eq_ok.1 h
  obtain ⟨runtime, -, h⟩ := bind_eq_ok.1 h
  obtain ⟨address, -, h⟩ := bind_eq_ok.1 h
  obtain ⟨flags, hflags, h⟩ := bind_eq_ok.1 h
  obtain ⟨root, -, h⟩ := bind_eq_ok.1 h
  exact ⟨runtime, root, standsAt_of_metadata (Reader.number_eq_ok.1 hflags).1 h⟩

/-! ### Files that overflow -/

/-- Whether a file makes an address overflow: the one of the header of the runtime or, if that is
found, the one of the metadata that stands there. -/
def Overflows (data : Array UInt8) : Prop :=
  ∃ headers, FileHeaders.read data = .ok headers ∧
    (headers.Overflows data headers.runtimeAddress ∨
      ∃ runtime, headers.offsetOf data headers.runtimeAddress = .ok runtime ∧
        ∃ address, Reader.number data (runtime + 8) 4 = .ok address ∧
          (∃ flags, Reader.number data (runtime + 16) 4 = .ok flags) ∧
            headers.Overflows data address)

/-- **Reading overflows exactly if a file makes an address overflow.** -/
theorem ends_read (data : Array UInt8) : Ends (Overflows data) (read data) := by
  rw [read_eq]
  have offsets (headers : FileHeaders) {rva : Nat} (small : rva < 0x100000000) :
      Ends (headers.Overflows data rva) (headers.offsetOf data rva) :=
    Reader.ends_offsetOf small _ _
  refine (Ends.bind (FileHeaders.safe_read data) fun headers hheaders =>
    (offsets headers (FileHeaders.runtimeAddress_lt hheaders)).bind fun runtime _ =>
    Ends.bind (Reader.safe_number _ _) fun address haddress =>
    Ends.bind (Reader.safe_number _ _) fun flags _ =>
    (offsets headers (Reader.number_eq_ok.1 haddress).2).bind fun root _ =>
    Reader.safe_metadata root flags).congr ?_
  simp only [Overflows, false_or, and_false, exists_false, or_false, exists_and_right]

/-- **Reading is safe exactly if no address overflows**: it then gives what stands in the file or
finds the file malformed.  Otherwise it overflows. -/
theorem read_safe_iff (data : Array UInt8) :
    (((∃ info, read data = .ok info ∧ ∃ runtime root, info.StandsAt data runtime root) ∨
      ∃ fault, read data = .error (.malformed fault)) ↔ ¬ Overflows data) ∧
      (read data = .error .overflow ↔ Overflows data) := by
  refine ⟨?_, (ends_read data).eq_overflow_iff⟩
  rw [← (ends_read data).safe_iff]
  exact or_congr_left (exists_congr fun info => and_iff_left_of_imp standsAt_of_read)

/-- A file with the headers of a written one overflows as soon as its section ends behind the last
address. -/
theorem overflows_of_headers {size mapped : Nat} (stub : LiesAt data.toList 0 File.dosHeader)
    (headers : LiesAt data.toList 0x80 (File.peHeaders size mapped)) (small : size < 0x100000000)
    (beyond : 0x100000000 ≤ File.sectionAddress + size) : Overflows data := by
  refine ⟨_, File.read_writtenHeaders stub headers, .inl ⟨_, Reader.finds_first
    (SectionHeader.read_sectionHeader (File.liesAt_section headers) small) ⟨Nat.le_refl _, ?_⟩,
    fun fits => Nat.not_lt.2 beyond fits.1⟩⟩
  exact Nat.lt_of_lt_of_le (by decide) beyond

/-- A file whose sections end within 32 bits, in memory and in the file, is read safely. -/
theorem not_overflows_of_bounded
    (bounded : ∀ headers, FileHeaders.read data = .ok headers → ∀ i < headers.sectionCount,
      ∀ s, SectionHeader.read data (headers.sections + 40 * i) = .ok s →
        s.address + s.size < 0x100000000 ∧ s.raw + s.size ≤ 0x100000000) : ¬ Overflows data := by
  rintro ⟨headers, read, overflows⟩
  have fits (rva : Nat) : ¬ headers.Overflows data rva := by
    rintro ⟨s, ⟨i, inside, found, ⟨low, high⟩, -⟩, leaves⟩
    obtain ⟨memory, file⟩ := bounded headers read i inside s found
    refine leaves ⟨memory, ?_⟩
    unfold SectionHeader.offsetOf
    omega
  rcases overflows with first | ⟨_, -, address, -, -, second⟩
  · exact fits headers.runtimeAddress first
  · exact fits address second

end MetadataInfo
end HookImage
