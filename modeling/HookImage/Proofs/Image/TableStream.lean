/-
# The stream of tables read back

Settling keeps every row in its table, so a table has as many settled rows as it has drafted
ones.  The stream tells by one bit for each table whether it has rows, and then how many; the
reader goes through the bits from the lowest one on and meets the tables in the order in which
the numbers stand there (`Tables.Hold.rowCounts_stream`).
-/

import HookImage.Proofs.Image.Parts
import HookImage.Proofs.Image.Rows

namespace HookImage

/-! ### Settled rows -/

namespace Tables

/-- Settling cells keeps their number. -/
@[simp] theorem length_settleCells (names : NameHeap) (blobs : BlobHeap) (cells : List Cell) :
    (settleCells names blobs cells).1.length = cells.length := by
  induction cells generalizing names blobs with
  | nil => rfl
  | cons cell cells ih =>
    rw [settleCells]
    exact congrArg (· + 1) (ih _ _)

/-- A settled row stands in the table of the drafted one and has as many columns. -/
theorem exists_settleRow (t : Tables) (row : TableRow Cell) :
    ∃ columns, (t.settleRow row).rows.toList = t.rows.toList ++ [⟨row.table, columns⟩] ∧
      columns.length = row.columns.length :=
  ⟨_, Array.toList_push, length_settleCells _ _ _⟩

/-- Settling rows keeps their tables and the numbers of their columns. -/
theorem map_settle {β : Type} (view : TableId → Nat → β) (t : Tables)
    (rows : List (TableRow Cell)) :
    (rows.foldl settleRow t).rows.toList.map (fun row => view row.table row.columns.length) =
      t.rows.toList.map (fun row => view row.table row.columns.length) ++
        rows.map fun row => view row.table row.columns.length := by
  induction rows generalizing t with
  | nil => exact (List.append_nil _).symm
  | cons row rows ih =>
    obtain ⟨columns, settled, length⟩ := t.exists_settleRow row
    rw [List.foldl_cons, ih, settled, List.map_append, List.append_assoc]
    simp [length]

/-- Settling keeps the tables of rows and their numbers of columns. -/
theorem map_ofDraft {β : Type} (view : TableId → Nat → β) (d : Draft) :
    (ofDraft d).rows.toList.map (fun row => view row.table row.columns.length) =
      d.rows.toList.map fun row => view row.table row.columns.length := by
  rw [ofDraft, ← Array.foldl_toList, map_settle]
  rfl

/-- Whether tables hold a row of each of some tables, each with columns. -/
structure Hold (t : Tables) (tables : List TableId) : Prop where
  rows : t.rows.toList.map (·.table) = tables
  filled : ∀ row ∈ t.rows.toList, row.columns ≠ []

/-- A draft holds the rows that were added to it. -/
theorem hold_ofDraft {d : Draft} {tables : List TableId} (h : Draft.Adds {} tables d) :
    (ofDraft d).Hold tables := by
  obtain ⟨rows, hrows, rfl, filled⟩ := h
  rw [show ({} : Draft).rows.toList = [] from rfl, List.nil_append] at hrows
  refine ⟨?_, ?_⟩
  · rw [map_ofDraft fun table _ => table, hrows]
  · intro row hrow empty
    have length : row.columns.length ∈ (ofDraft d).rows.toList.map fun row => row.columns.length :=
      List.mem_map_of_mem hrow
    rw [map_ofDraft fun _ n => n, hrows] at length
    obtain ⟨drafted, mem, same⟩ := List.mem_map.1 length
    exact filled drafted mem (List.length_eq_zero_iff.1 (same.trans (empty ▸ rfl)))

variable {t : Tables} {tables : List TableId}

/-- A table has as many rows as were added to it. -/
theorem Hold.length_ofTable (h : t.Hold tables) (table : TableId) :
    (t.ofTable table).length = tables.count table := by
  rw [ofTable, List.length_map, ← h.rows, List.count_eq_countP, List.countP_map,
    List.countP_eq_length_filter]
  rfl

end Tables

/-! ### The mask of tables -/

namespace TableSizes

/-- The tables that have rows, each as a bit at its number. -/
def mask (s : TableSizes) : Nat :=
  s.rows.foldl (fun bits (table, _) => bits ||| (1 <<< table.number)) 0

/-- The bits that tell which heaps have offsets of four bytes. -/
def heapBits (s : TableSizes) : Nat :=
  (if s.wideNames then 1 else 0) + (if s.wideBlobs then 4 else 0)

/-- The bits of some tables, each put into the mask, are those of all of them. -/
theorem testBit_foldl_or (rows : List (TableId × Nat)) (bits i : Nat) :
    (rows.foldl (fun bits (table, _) => bits ||| (1 <<< table.number)) bits).testBit i =
      (bits.testBit i || rows.any (·.1.number == i)) := by
  induction rows generalizing bits with
  | nil => rw [List.foldl_nil, List.any_nil, Bool.or_false]
  | cons row rows ih =>
    rw [List.foldl_cons, ih, List.any_cons, Nat.testBit_or, Nat.one_shiftLeft,
      Nat.testBit_two_pow, Bool.or_assoc]
    rfl

/-- The mask has the bit of a table exactly if that has rows. -/
theorem testBit_mask (s : TableSizes) (i : Nat) :
    s.mask.testBit i = s.rows.any (·.1.number == i) := by
  rw [mask, testBit_foldl_or, Nat.zero_testBit, Bool.false_or]

/-- The mask has no bits above those of its tables. -/
theorem mask_lt {s : TableSizes} {n : Nat} (h : ∀ row ∈ s.rows, row.1.number < n) :
    s.mask < 2 ^ n := by
  refine Nat.lt_pow_two_of_testBit _ fun i large => ?_
  rw [testBit_mask, List.any_eq_false]
  intro row hrow same
  have := h row hrow
  have := eq_of_beq same
  omega

end TableSizes

/-! ### Numbers of rows -/

namespace TableId

/-- The tables that have rows, in their order, each with how many. -/
def present (count : TableId → Nat) : List (TableId × Nat) :=
  (all.map fun table => (table, count table)).filter (·.2 != 0)

/-- The tables with the numbers `bits` that have rows, each with how many. -/
def presentAt (count : TableId → Nat) (bits : List Nat) : List (TableId × Nat) :=
  bits.filterMap fun bit => (ofNumber? bit).bind fun table =>
    if count table = 0 then none else some (table, count table)

variable {count : TableId → Nat}

/-- A table is present with its number of rows if it has any. -/
theorem mem_present {row : TableId × Nat} :
    row ∈ present count ↔ row.2 = count row.1 ∧ count row.1 ≠ 0 := by
  rw [present, List.mem_filter, List.mem_map]
  constructor
  · rintro ⟨⟨table, -, rfl⟩, some⟩
    exact ⟨rfl, by simpa using some⟩
  · rintro ⟨counted, some⟩
    rw [← counted] at some
    exact ⟨⟨row.1, mem_all row.1, by rw [← counted]⟩, by simpa using some⟩

/-- The present tables ascend by their numbers. -/
theorem sorted_present (count : TableId → Nat) :
    (present count).Pairwise fun row next => row.1.number < next.1.number := by
  have sorted : all.Pairwise fun table next => table.number < next.number := by decide
  refine List.Pairwise.filter _ ?_
  exact List.pairwise_map.2 sorted

/-- The number of rows of a table is found, and an absent table has none. -/
theorem lookup_present (count : TableId → Nat) (table : TableId) :
    ((present count).lookup table).getD 0 = count table := by
  have each (tables : List TableId) :
      (((tables.map fun table => (table, count table)).filter (·.2 != 0)).lookup table).getD 0 =
        if table ∈ tables then count table else 0 := by
    induction tables with
    | nil => rfl
    | cons other tables ih =>
      rw [List.map_cons, List.filter_cons]
      by_cases same : table = other
      · subst same
        by_cases absent : count table = 0
        · simp [absent, ih]
        · simp [absent]
      · by_cases absent : count other = 0
        · simp [absent, ih, same]
        · simp [absent, List.lookup_cons, ih, same, beq_eq_false_iff_ne.2 same]
  rw [present, each, if_pos (mem_all table)]

/-- Every table has a bit in the mask, that of literals apart, which is none. -/
theorem number_lt_64 : ∀ table : TableId, table ≠ .userString → table.number < 64 := by
  intro table
  cases table <;> decide

/-- The bits up to 63 stand for all tables but the heap of user strings. -/
theorem presentAt_eq (heap : count .userString = 0) :
    presentAt count (List.range 64) = present count := by
  have numbered : all = (List.range 64).filterMap ofNumber? ++ [.userString] := by decide
  have each (tables : List TableId) :
      (tables.map fun table => (table, count table)).filter (·.2 != 0) =
        tables.filterMap fun table =>
          if count table = 0 then none else some (table, count table) := by
    induction tables with
    | nil => rfl
    | cons table tables ih =>
      rw [List.map_cons, List.filter_cons, List.filterMap_cons, ih]
      by_cases absent : count table = 0 <;> simp [absent]
  rw [present, each, numbered, List.filterMap_append, List.filterMap_filterMap]
  simp [presentAt, heap]

end TableId

/-- **The numbers of rows are read back** table by table, if a bit is set exactly for each table
that has rows. -/
theorem Reader.rowCounts_eq {data : Array UInt8} {valid : Nat} {count : TableId → Nat}
    (small : ∀ table, count table < 0x100000000) {bits : List Nat}
    (marked : ∀ bit ∈ bits, valid.testBit bit = true ↔
      ∃ table, TableId.ofNumber? bit = some table ∧ count table ≠ 0) {cursor : Nat}
    (here : Bytes.LiesAt data.toList cursor
      ((TableId.presentAt count bits).flatMap fun row => Bytes.littleEndian 4 row.2)) :
    rowCounts data valid bits cursor = .ok (TableId.presentAt count bits) := by
  induction bits generalizing cursor with
  | nil => rfl
  | cons bit bits ih =>
    -- A bit that is set moves the cursor behind one number, and any other leaves it.
    obtain ⟨now, later⟩ := List.forall_mem_cons.1 marked
    rw [rowCounts]
    by_cases set : valid.testBit bit = true
    · obtain ⟨table, named, some⟩ := now.1 set
      have head : TableId.presentAt count (bit :: bits) =
          (table, count table) :: TableId.presentAt count bits := by
        rw [TableId.presentAt, List.filterMap_cons, named, Option.bind_some, if_neg some]
        rfl
      rw [head, List.flatMap_cons] at here
      rw [if_pos set, named, head]
      exact bind_eq_ok.2 ⟨_, here.left.number (small table),
        bind_eq_ok.2 ⟨_, ih later (here.nextWord), rfl⟩⟩
    · have head : TableId.presentAt count (bit :: bits) = TableId.presentAt count bits := by
        rw [TableId.presentAt, List.filterMap_cons]
        rcases named : TableId.ofNumber? bit with _ | table
        · rfl
        · have none : count table = 0 := by
            by_contra some
            exact set (now.2 ⟨table, named, some⟩)
          rw [Option.bind_some, if_pos none]
          rfl
      rw [if_neg set, head]
      rw [head] at here
      exact ih later here

/-! ### The stream -/

namespace Tables

variable {t : Tables} {tables : List TableId}

/-- The sizes are those of the tables that have rows. -/
theorem Hold.rows_ofTables (h : t.Hold tables) :
    (TableSizes.ofTables t).rows = TableId.present tables.count := by
  simp only [TableSizes.ofTables, h.length_ofTable, TableId.present]

/-- The bytes of a column. -/
def cell (s : TableSizes) (c : Column) : Bytes := Bytes.littleEndian (s.width c) c.value

/-- A column has at least one byte. -/
theorem cell_ne_nil (s : TableSizes) (c : Column) : cell s c ≠ [] := by
  have wide : s.width c ≠ 0 := by
    cases c <;> simp only [TableSizes.width] <;> (try split) <;> decide
  intro empty
  exact wide (by rw [← Bytes.length_littleEndian (s.width c) c.value, ← cell, empty]; rfl)

/-- The bytes of the rows of a table. -/
def rowBytes (t : Tables) (table : TableId) : Bytes :=
  (t.ofTable table).flatMap (·.flatMap (cell (TableSizes.ofTables t)))

/-- The stream of tables in its parts. -/
theorem stream_eq (t : Tables) : ∃ back, t.stream =
    [0, 0, 0, 0, 2, 0, UInt8.ofNat (TableSizes.ofTables t).heapBits, 1] ++
    (Bytes.littleEndian 8 (TableSizes.ofTables t).mask ++ (Bytes.littleEndian 8 0x16003301FA00 ++
    (((TableSizes.ofTables t).rows.flatMap fun row => Bytes.littleEndian 4 row.2) ++
    (((TableSizes.ofTables t).rows.flatMap fun row => t.rowBytes row.1) ++ back)))) := by
  obtain ⟨body, contents, whole⟩ : ∃ body : Bytes, body =
        [0, 0, 0, 0, 2, 0, UInt8.ofNat (TableSizes.ofTables t).heapBits, 1] ++
        Bytes.littleEndian 8 (TableSizes.ofTables t).mask ++ Bytes.littleEndian 8 0x16003301FA00 ++
        ((TableSizes.ofTables t).rows.flatMap fun row => Bytes.littleEndian 4 row.2) ++
        ((TableSizes.ofTables t).rows.flatMap fun row => t.rowBytes row.1) ∧
      t.stream = body ++ List.replicate (Bytes.padding 4 body.length) 0 :=
    ⟨_, rfl, rfl⟩
  refine ⟨List.replicate (Bytes.padding 4 body.length) 0, ?_⟩
  rw [whole]
  simp only [contents, List.append_assoc]

/-- A joined list has a member for each of those that it is joined from, if none of them gives
nothing. -/
theorem length_flatMap_le {α β : Type} {f : α → List β} {xs : List α}
    (filled : ∀ x ∈ xs, f x ≠ []) : xs.length ≤ (xs.flatMap f).length := by
  induction xs with
  | nil => exact Nat.le_refl 0
  | cons x xs ih =>
    obtain ⟨first, rest⟩ := List.forall_mem_cons.1 filled
    have := List.length_pos_iff.2 first
    have := ih rest
    rw [List.flatMap_cons, List.length_append, List.length_cons]
    omega

/-- The rows of a table take no fewer bytes than there are. -/
theorem Hold.count_le_length_rowBytes (h : t.Hold tables) (table : TableId) :
    tables.count table ≤ (t.rowBytes table).length := by
  rw [← h.length_ofTable]
  refine length_flatMap_le fun columns mem empty => ?_
  obtain ⟨row, hrow, rfl⟩ := List.mem_map.1 mem
  obtain ⟨column, rest, columns⟩ :=
    List.exists_cons_of_ne_nil (h.filled row (List.mem_filter.1 hrow).1)
  rw [columns, List.flatMap_cons] at empty
  exact cell_ne_nil _ column (List.append_eq_nil_iff.1 empty).1

/-- Behind 24 bytes of header, the stream has no fewer bytes than a table has rows. -/
theorem Hold.count_le_length_stream (h : t.Hold tables) (table : TableId) :
    24 + tables.count table ≤ t.stream.length := by
  obtain ⟨back, stream⟩ := t.stream_eq
  have header : 24 + ((TableSizes.ofTables t).rows.flatMap fun row => t.rowBytes row.1).length ≤
      t.stream.length := by
    rw [stream]
    simp
    omega
  by_cases absent : tables.count table = 0
  · omega
  · have present : (table, tables.count table) ∈ (TableSizes.ofTables t).rows :=
      h.rows_ofTables ▸ TableId.mem_present.2 ⟨rfl, absent⟩
    have own := h.count_le_length_rowBytes table
    have all : (t.rowBytes table).length ≤
        ((TableSizes.ofTables t).rows.flatMap fun row => t.rowBytes row.1).length :=
      (List.sublist_flatten_of_mem
        (List.mem_map_of_mem (f := fun row => t.rowBytes row.1) present)).length_le
    omega

/-- **The numbers of rows are read back from the stream of tables**, in the order of the
tables. -/
theorem Hold.rowCounts_stream (h : t.Hold tables) (heap : tables.count .userString = 0)
    (size : t.stream.length < 0x100000000) {data : Array UInt8} {offset : Nat}
    (here : Bytes.LiesAt data.toList offset t.stream) :
    ∃ valid, Reader.long data (offset + 8) = .ok valid ∧
      Reader.rowCounts data valid (List.range 64) (offset + 24) =
        .ok (TableId.present tables.count) := by
  obtain ⟨back, stream⟩ := t.stream_eq
  rw [stream, h.rows_ofTables] at here
  have mask := here.next (n := 8) rfl
  have sorting := mask.nextWord
  have counts := sorting.nextWord
  -- A mask of 64 bits is enough, as the heap of user strings is no table with rows.
  have low : ∀ row ∈ (TableSizes.ofTables t).rows, row.1.number < 64 := by
    intro row hrow
    rw [h.rows_ofTables, TableId.mem_present] at hrow
    refine TableId.number_lt_64 _ fun same => hrow.2 ?_
    rw [same, heap]
  -- A row takes at least a byte, so numbers of rows are below the size of the stream.
  have small (table : TableId) : tables.count table < 0x100000000 :=
    Nat.lt_of_le_of_lt (Nat.le_of_add_left_le (h.count_le_length_stream table)) size
  have marked (bit : Nat) : (TableSizes.ofTables t).mask.testBit bit = true ↔
      ∃ table, TableId.ofNumber? bit = some table ∧ tables.count table ≠ 0 := by
    rw [TableSizes.testBit_mask, h.rows_ofTables, List.any_eq_true]
    constructor
    · rintro ⟨row, hrow, same⟩
      rw [← eq_of_beq same]
      exact ⟨row.1, TableId.ofNumber?_number _, (TableId.mem_present.1 hrow).2⟩
    · rintro ⟨table, named, some⟩
      exact ⟨(table, tables.count table), TableId.mem_present.2 ⟨rfl, some⟩,
        beq_iff_eq.2 (TableId.number_of_ofNumber? named)⟩
  refine ⟨_, mask.left.long (TableSizes.mask_lt low), ?_⟩
  rw [← TableId.presentAt_eq heap]
  rw [← TableId.presentAt_eq heap] at counts
  exact Reader.rowCounts_eq small (fun bit _ => marked bit) counts.left

end Tables
end HookImage
