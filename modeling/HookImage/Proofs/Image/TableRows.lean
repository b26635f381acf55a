/-
# The rows of the stream of tables read back

The columns of a table are fixed (`TableId.schema`), and their widths follow from the bits for the
heaps and the numbers of rows in front of the rows.  A reader that knows no more finds every
column where it was written, with the low bytes that its width has room for
(`Tables.tableStream_eq`).  So it gives the rows back exactly if every column fits in its width
(`Tables.tableStream_eq_iff`).
-/

import HookImage.Proofs.Image.TableStream

namespace HookImage

open Bytes (LiesAt)

/-! ### The columns of tables -/

/-- What a column holds. -/
inductive ColumnKind where
  | word | dword | name | blob | guid
  | row (table : TableId)
  | coded (kind : CodedIndex)
deriving DecidableEq

/-- What a column holds. -/
def Column.kind : Column → ColumnKind
  | word _ => .word
  | dword _ => .dword
  | name _ => .name
  | blob _ => .blob
  | guid _ => .guid
  | row table _ => .row table
  | coded kind _ => .coded kind

/-- The column of a kind with a number. -/
def ColumnKind.column (kind : ColumnKind) (n : Nat) : Column :=
  match kind with
  | word => .word (UInt16.ofNat n)
  | dword => .dword (UInt32.ofNat n)
  | name => .name n
  | blob => .blob n
  | guid => .guid n
  | row table => .row table n
  | coded kind => .coded kind n

/-- The columns of the rows of a table. -/
def TableId.schema : TableId → List ColumnKind
  | module => [.word, .name, .guid, .guid, .guid]
  | typeRef => [.coded .resolutionScope, .name, .name]
  | typeDef => [.dword, .name, .name, .coded .typeDefOrRef, .row .field, .row .methodDef]
  | field => [.word, .name, .blob]
  | methodDef => [.dword, .word, .word, .name, .blob, .row .param]
  | param => [.word, .word, .name]
  | memberRef => [.coded .memberRefParent, .name, .blob]
  | customAttribute => [.coded .hasCustomAttribute, .coded .customAttributeType, .blob]
  | standAloneSig => [.blob]
  | typeSpec => [.blob]
  | assembly => [.dword, .word, .word, .word, .word, .dword, .blob, .name, .name]
  | assemblyRef => [.word, .word, .word, .word, .dword, .blob, .name, .name, .blob]
  | nestedClass => [.row .typeDef, .row .typeDef]
  | methodSpec => [.coded .methodDefOrRef, .blob]
  | userString => []

/-- Whether the rows of tables have the columns of their tables. -/
def Tables.Conforms (t : Tables) : Prop :=
  ∀ table, ∀ columns ∈ t.ofTable table, columns.map Column.kind = table.schema

/-- The tables that have rows, each with its rows, by table number. -/
def Tables.present (t : Tables) : List (TableId × List (List Column)) :=
  (TableSizes.ofTables t).rows.map fun row => (row.1, t.ofTable row.1)

/-! ### The reader -/

namespace Reader

/-- The columns of a row at an offset, and where the next row begins. -/
def columns (data : Array UInt8) (s : TableSizes) :
    List ColumnKind → Nat → Except Error (List Column × Nat)
  | [], offset => return ([], offset)
  | kind :: kinds, offset => do
    let width := s.width (kind.column 0)
    let n ← number data offset width
    let (rest, next) ← columns data s kinds (offset + width)
    return (kind.column n :: rest, next)

/-- The rows of a table at an offset, and where the next table begins. -/
def tableRows (data : Array UInt8) (s : TableSizes) (schema : List ColumnKind) :
    Nat → Nat → Except Error (List (List Column) × Nat)
  | 0, offset => return ([], offset)
  | count + 1, offset => do
    let (row, next) ← columns data s schema offset
    let (rest, behind) ← tableRows data s schema count next
    return (row :: rest, behind)

/-- The rows of tables from an offset on. -/
def tables (data : Array UInt8) (s : TableSizes) :
    List (TableId × Nat) → Nat → Except Error (List (TableId × List (List Column)))
  | [], _ => return []
  | (table, count) :: others, offset => do
    let (rows, next) ← tableRows data s table.schema count offset
    return (table, rows) :: (← tables data s others next)

/-- The rows of the stream of tables at an offset, with the widths that its header tells. -/
def tableStream (data : Array UInt8) (offset : Nat) :
    Except Error (List (TableId × List (List Column))) := do
  let heapBits ← number data (offset + 6) 1
  let valid ← long data (offset + 8)
  let counts ← rowCounts data valid (List.range 64) (offset + 24)
  let size (wide : Bool) : Nat := if wide then 0x10000 else 0
  let sizes : TableSizes :=
    { names := size (heapBits.testBit 0), blobs := size (heapBits.testBit 2), rows := counts }
  tables data sizes counts (offset + 24 + 4 * counts.length)

end Reader

/-! ### Columns -/

/-- A column as it is read back: the number that the bytes of its width have room for. -/
def Column.cut (s : TableSizes) (c : Column) : Column :=
  c.kind.column (c.value % Nat.pow 256 (s.width c))

/-- Whether the number of a column fits in its width. -/
def Column.Fits (s : TableSizes) (c : Column) : Prop := c.value < Nat.pow 256 (s.width c)

/-- A column is its kind with its value. -/
theorem Column.column_kind_value (c : Column) : c.kind.column c.value = c := by
  cases c with
  | word v => exact congrArg Column.word UInt16.ofNat_toNat
  | dword v => exact congrArg Column.dword UInt32.ofNat_toNat
  | _ => rfl

/-- The width of a column is due to its kind alone. -/
theorem TableSizes.width_column (s : TableSizes) (c : Column) :
    s.width (c.kind.column 0) = s.width c := by
  cases c <;> rfl

/-- **A column is read back** exactly if it fits. -/
theorem Column.cut_eq_iff {s : TableSizes} {c : Column} : c.cut s = c ↔ c.Fits s := by
  constructor
  · intro h
    have low : c.value % Nat.pow 256 (s.width c) < Nat.pow 256 (s.width c) :=
      Nat.mod_lt _ (Nat.pow_pos (by decide))
    cases c with
    | word v => exact v.toNat_lt
    | dword v => exact v.toNat_lt
    | name offset => exact Nat.lt_of_le_of_lt (Nat.le_of_eq (Column.name.inj h).symm) low
    | blob offset => exact Nat.lt_of_le_of_lt (Nat.le_of_eq (Column.blob.inj h).symm) low
    | guid n => exact Nat.lt_of_le_of_lt (Nat.le_of_eq (Column.guid.inj h).symm) low
    | row table n => exact Nat.lt_of_le_of_lt (Nat.le_of_eq (Column.row.inj h).2.symm) low
    | coded kind v => exact Nat.lt_of_le_of_lt (Nat.le_of_eq (Column.coded.inj h).2.symm) low
  · intro fits
    rw [cut, Nat.mod_eq_of_lt fits, column_kind_value]

/-! ### Reading rows -/

namespace Reader

variable {data : Array UInt8} {s : TableSizes}

/-- The columns of a row are read as what their widths leave of them. -/
theorem columns_eq {columns : List Column} {offset : Nat}
    (here : LiesAt data.toList offset (columns.flatMap (Tables.cell s))) :
    Reader.columns data s (columns.map Column.kind) offset =
      .ok (columns.map (·.cut s), offset + (columns.flatMap (Tables.cell s)).length) := by
  induction columns generalizing offset with
  | nil => rfl
  | cons c columns ih =>
    have length : (Tables.cell s c).length = s.width c := Bytes.length_littleEndian _ _
    rw [List.flatMap_cons] at here
    have number := here.left.value length
    rw [Tables.cell, Bytes.value_littleEndian_mod] at number
    rw [List.map_cons, Reader.columns, s.width_column]
    refine bind_eq_ok.2 ⟨_, number, bind_eq_ok.2 ⟨_, ih (here.next length), ?_⟩⟩
    rw [List.flatMap_cons, List.length_append, length, ← Nat.add_assoc]
    rfl

/-- The rows of a table are read one after the other, each as what its widths leave of it. -/
theorem tableRows_eq {schema : List ColumnKind} {rows : List (List Column)}
    (conform : ∀ columns ∈ rows, columns.map Column.kind = schema) {offset : Nat}
    (here : LiesAt data.toList offset (rows.flatMap (·.flatMap (Tables.cell s)))) :
    tableRows data s schema rows.length offset =
      .ok (rows.map (·.map (·.cut s)),
        offset + (rows.flatMap (·.flatMap (Tables.cell s))).length) := by
  induction rows generalizing offset with
  | nil => rfl
  | cons columns rows ih =>
    obtain ⟨same, conform⟩ := List.forall_mem_cons.1 conform
    rw [List.flatMap_cons] at here
    have first := columns_eq here.left
    rw [same] at first
    rw [List.length_cons, tableRows]
    refine bind_eq_ok.2 ⟨_, first, bind_eq_ok.2 ⟨_, ih conform (here.next rfl), ?_⟩⟩
    rw [List.flatMap_cons, List.length_append, ← Nat.add_assoc]
    rfl

/-- The rows of tables are read back one table behind the other. -/
theorem tables_eq {t : Tables} (conform : t.Conforms) {counts : List (TableId × Nat)}
    (counted : ∀ row ∈ counts, row.2 = (t.ofTable row.1).length) {offset : Nat}
    (here : LiesAt data.toList offset
      (counts.flatMap fun row => (t.ofTable row.1).flatMap (·.flatMap (Tables.cell s)))) :
    tables data s counts offset =
      .ok (counts.map fun row => (row.1, (t.ofTable row.1).map (·.map (·.cut s)))) := by
  induction counts generalizing offset with
  | nil => rfl
  | cons row counts ih =>
    obtain ⟨table, count⟩ := row
    obtain ⟨same, others⟩ := List.forall_mem_cons.1 counted
    obtain rfl : count = (t.ofTable table).length := same
    rw [List.flatMap_cons] at here
    exact bind_eq_ok.2 ⟨_, tableRows_eq (conform table) here.left,
      bind_eq_ok.2 ⟨_, ih others (here.next rfl), rfl⟩⟩

end Reader

/-! ### The stream -/

namespace TableSizes

variable {s s' : TableSizes}

/-- The bits for the heaps tell their widths. -/
theorem testBit_heapBits (s : TableSizes) :
    s.heapBits < 256 ∧ s.heapBits.testBit 0 = s.wideNames ∧ s.heapBits.testBit 2 = s.wideBlobs := by
  unfold heapBits
  cases s.wideNames <;> cases s.wideBlobs <;> decide

/-- Widths follow from the widths of the heaps and the numbers of rows. -/
theorem width_congr (names : s.wideNames = s'.wideNames) (blobs : s.wideBlobs = s'.wideBlobs)
    (rows : s.rows = s'.rows) (c : Column) : s.width c = s'.width c := by
  have count (table : TableId) : s.count table = s'.count table := by rw [count, count, rows]
  have largest (kind : CodedIndex) : s.largest kind = s'.largest kind := by
    rw [largest, largest, show s.count = s'.count from funext count]
  cases c <;> simp only [width, names, blobs, count, largest]

end TableSizes

namespace Tables

variable {t : Tables} {tables : List TableId}

/-- **The rows of the stream of tables are read back**, with the low bytes of every column. -/
theorem Hold.tableStream_eq (h : t.Hold tables) (heap : tables.count .userString = 0)
    (conform : t.Conforms) (size : t.stream.length < 0x100000000) {data : Array UInt8}
    {offset : Nat} (here : LiesAt data.toList offset t.stream) :
    Reader.tableStream data offset = .ok (t.present.map fun table =>
      (table.1, table.2.map (·.map (·.cut (TableSizes.ofTables t))))) := by
  obtain ⟨valid, hvalid, hcounts⟩ := h.rowCounts_stream heap size here
  obtain ⟨small, names, blobs⟩ := (TableSizes.ofTables t).testBit_heapBits
  obtain ⟨back, stream⟩ := t.stream_eq
  rw [stream] at here
  have bits : LiesAt data.toList (offset + 6)
      (Bytes.littleEndian 1 (TableSizes.ofTables t).heapBits) :=
    here.left.within ⟨[0, 0, 0, 0, 2, 0], [1], rfl, rfl⟩
  have mask := here.next (n := 8) rfl
  have sorting := mask.nextWord
  have counts := sorting.nextWord
  have rows := (counts.next (n := 4 * (TableSizes.ofTables t).rows.length) (by
    simp [Nat.mul_comm])).left
  rw [← h.rows_ofTables] at hcounts
  refine bind_eq_ok.2 ⟨_, bits.number small, bind_eq_ok.2 ⟨_, hvalid,
    bind_eq_ok.2 ⟨_, hcounts, ?_⟩⟩⟩
  dsimp only
  -- The reader does not know how large the heaps are, but how wide their offsets are.
  generalize read : (TableSizes.mk _ _ (TableSizes.ofTables t).rows) = sizes
  have width (c : Column) : sizes.width c = (TableSizes.ofTables t).width c := by
    subst read
    apply TableSizes.width_congr
    · rw [TableSizes.wideNames, names]
      cases (TableSizes.ofTables t).wideNames <;> rfl
    · rw [TableSizes.wideBlobs, blobs]
      cases (TableSizes.ofTables t).wideBlobs <;> rfl
    · rfl
  have cells : cell sizes = cell (TableSizes.ofTables t) := funext fun c => by
    rw [cell, cell, width]
  have cuts : (fun c : Column => c.cut sizes) = fun c => c.cut (TableSizes.ofTables t) :=
    funext fun c => by rw [Column.cut, Column.cut, width]
  have counted : ∀ row ∈ (TableSizes.ofTables t).rows, row.2 = (t.ofTable row.1).length := by
    intro row mem
    rw [h.rows_ofTables] at mem
    rw [h.length_ofTable]
    exact (TableId.mem_present.1 mem).1
  have read := Reader.tables_eq (s := sizes) conform counted (by rw [cells]; exact rows)
  rw [present, List.map_map]
  rw [cuts] at read
  exact read

/-- The rows of a table are those that name it. -/
theorem mem_ofTable {table : TableId} {columns : List Column} :
    columns ∈ t.ofTable table ↔
      ∃ row ∈ t.rows.toList, row.table = table ∧ row.columns = columns := by
  rw [ofTable, List.mem_map]
  constructor
  · rintro ⟨row, mem, same⟩
    obtain ⟨mem, table⟩ := List.mem_filter.1 mem
    exact ⟨row, mem, eq_of_beq table, same⟩
  · rintro ⟨row, mem, table, same⟩
    exact ⟨row, List.mem_filter.2 ⟨mem, beq_iff_eq.2 table⟩, same⟩

/-- The rows of the tables that have some are all rows. -/
theorem Hold.forall_present (h : t.Hold tables) {p : List Column → Prop} :
    (∀ table ∈ t.present, ∀ columns ∈ table.2, p columns) ↔
      ∀ row ∈ t.rows.toList, p row.columns := by
  constructor
  · intro all row mem
    have own : row.columns ∈ t.ofTable row.table := mem_ofTable.2 ⟨row, mem, rfl, rfl⟩
    have some : tables.count row.table ≠ 0 := by
      rw [← h.length_ofTable]
      exact Nat.ne_of_gt (List.length_pos_of_mem own)
    have counted : (row.table, tables.count row.table) ∈ (TableSizes.ofTables t).rows :=
      h.rows_ofTables ▸ TableId.mem_present.2 ⟨rfl, some⟩
    exact all _ (List.mem_map_of_mem counted) row.columns own
  · intro all table mem columns own
    obtain ⟨counted, -, rfl⟩ := List.mem_map.1 mem
    obtain ⟨row, mem, -, rfl⟩ := mem_ofTable.1 own
    exact all row mem

/-- Nothing in a list changes exactly if no member does. -/
theorem map_eq_self_iff {α : Type} {f : α → α} {xs : List α} :
    xs.map f = xs ↔ ∀ x ∈ xs, f x = x := by
  have inj := List.map_inj_left (f := f) (g := id) (l := xs)
  rwa [List.map_id] at inj

/-- **The rows of the stream of tables are what is read back** exactly if every column fits. -/
theorem Hold.tableStream_eq_iff (h : t.Hold tables) (heap : tables.count .userString = 0)
    (conform : t.Conforms) (size : t.stream.length < 0x100000000) {data : Array UInt8}
    {offset : Nat} (here : LiesAt data.toList offset t.stream) :
    Reader.tableStream data offset = .ok t.present ↔
      ∀ row ∈ t.rows.toList, ∀ c ∈ row.columns, c.Fits (TableSizes.ofTables t) := by
  rw [h.tableStream_eq heap conform size here, Except.ok.injEq, map_eq_self_iff,
    ← h.forall_present (p := fun columns => ∀ c ∈ columns, c.Fits (TableSizes.ofTables t))]
  refine forall₂_congr fun table _ => ?_
  rw [Prod.ext_iff, map_eq_self_iff]
  simp only [map_eq_self_iff, Column.cut_eq_iff, true_and]

end Tables
end HookImage
