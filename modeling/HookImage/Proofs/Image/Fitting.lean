/-
# Which drafted columns fit

Drafted rows have the columns of their tables (`Tables.conforms_ofDraft`).  When they are settled,
a text or a blob becomes an offset within its heap, which always fits, and the number of a row
stays what it is, so all settled columns fit exactly if the drafted ones do (`Tables.fits_ofDraft`).

The number of a row fits if the row is there.  A token may name one that is not
(`Cell.fits_ofToken`), and the beginning of a run is one behind the last row if the run is empty.
As a column for 65535 rows has two bytes, that beginning is the one number that does not fit
(`starts_fit_iff`).
-/

import HookImage.Proofs.Image.CodedTokens
import HookImage.Proofs.Image.Ownership
import HookImage.Proofs.Image.TableRows
import Mathlib

namespace HookImage

open Bytes (LiesAt)

/-! ### What drafted columns hold -/

/-- What a drafted column holds. -/
def Cell.kind : Cell → ColumnKind
  | word _ => .word
  | dword _ => .dword
  | name _ => .name
  | blob _ => .blob
  | guid _ => .guid
  | row table _ => .row table
  | coded kind _ => .coded kind

/-- The cell of a token is one of the index that it was coded for. -/
theorem Cell.kind_ofToken {kind : CodedIndex} {t : Token} {cell : Cell}
    (h : Cell.ofToken kind t = .ok cell) : cell.kind = .coded kind := by
  rcases Cell.ofToken_eq_ok h with ⟨-, rfl⟩ | ⟨-, v, -, rfl⟩
  · rfl
  · rfl

/-- A column is of the kind of what was drafted for it. -/
theorem Tables.Shows.kind_eq {t : Tables} {cell : Cell} {column : Column}
    (h : t.Shows cell column) : column.kind = cell.kind := by
  cases h <;> rfl

/-- **Drafted rows have the columns of their tables.** -/
theorem Draft.Contents.map_kind {d : Draft} {image : Image} (h : d.Contents image)
    (table : TableId) :
    ∀ cells ∈ d.rowsOf table, cells.map Cell.kind = table.schema := by
  intro cells mem
  cases table with
  | module =>
    rw [h.module, List.mem_singleton] at mem
    rw [mem]
    rfl
  | typeRef =>
    obtain ⟨row, -, scope, hscope, rfl⟩ := exists_mem_of_forall₂ h.types mem
    rw [List.map_cons, Cell.kind_ofToken hscope]
    rfl
  | typeDef =>
    obtain ⟨type, -, base, start, hbase, rfl⟩ := exists_mem_of_forall₂ h.defines.heads mem
    simp only [List.map_cons, Cell.kind_ofToken hbase]
    rfl
  | methodDef =>
    obtain ⟨m, -, address, signature, start, -, rfl⟩ := exists_mem_of_forall₂ h.defines.methods mem
    rfl
  | param =>
    rw [h.defines.params] at mem
    obtain ⟨m, -, mem⟩ := List.mem_flatMap.1 mem
    obtain ⟨param, -, rfl⟩ := List.mem_map.1 mem
    rfl
  | memberRef =>
    obtain ⟨row, -, parent, hparent, rfl⟩ := exists_mem_of_forall₂ h.members mem
    rw [List.map_cons, Cell.kind_ofToken hparent]
    rfl
  | customAttribute =>
    obtain ⟨tag, -, parent, type, hparent, htype, rfl⟩ := exists_mem_of_forall₂ h.defines.tags mem
    rw [List.map_cons, List.map_cons, Cell.kind_ofToken hparent, Cell.kind_ofToken htype]
    rfl
  | standAloneSig =>
    rw [h.signatures] at mem
    obtain ⟨signature, -, rfl⟩ := List.mem_map.1 mem
    rfl
  | typeSpec =>
    rw [h.specs] at mem
    obtain ⟨signature, -, rfl⟩ := List.mem_map.1 mem
    rfl
  | assembly =>
    rw [h.assembly, List.mem_singleton] at mem
    rw [mem]
    rfl
  | assemblyRef =>
    rw [h.assemblies] at mem
    obtain ⟨a, -, rfl⟩ := List.mem_map.1 mem
    rfl
  | nestedClass =>
    rw [h.nesting] at mem
    obtain ⟨⟨c, id⟩, -, mem⟩ := List.mem_flatMap.1 mem
    unfold Container.nestingRows at mem
    split at mem
    · rw [List.mem_singleton.1 mem]
      rfl
    · cases mem
  | methodSpec =>
    obtain ⟨row, -, method, hmethod, rfl⟩ := exists_mem_of_forall₂ h.instantiations mem
    rw [List.map_cons, Cell.kind_ofToken hmethod]
    rfl
  | field =>
    rw [h.others .field (by decide)] at mem
    cases mem
  | userString =>
    rw [h.others .userString (by decide)] at mem
    cases mem

/-- **The rows of a drafted image have the columns of their tables.** -/
theorem Tables.conforms_ofDraft {d : Draft} {image : Image} (h : d.Contents image) :
    (ofDraft d).Conforms := by
  intro table columns mem
  obtain ⟨cells, drafted, shows⟩ := exists_mem_of_forall₂ (showsRows_ofDraft d table) mem
  rw [← h.map_kind table cells drafted]
  exact map_eq_of_forall₂ (shows.imp fun _ _ h => h.kind_eq)

/-! ### Columns that fit -/

/-- Whether the number of a drafted column fits in its width; offsets always do. -/
def Cell.Fits (s : TableSizes) : Cell → Prop
  | word _ | dword _ | name _ | blob _ => True
  | guid n => n < 0x10000
  | row table n => n < Nat.pow 256 (if s.count table < 0x10000 then 2 else 4)
  | coded kind v => v < Nat.pow 256 (if s.largest kind < 0x10000 >>> kind.tagBits then 2 else 4)

/-- The number of a row fits unless it needs more than the 16 bits that its table has. -/
theorem Cell.fits_row_iff {s : TableSizes} {table : TableId} {n : Nat} (small : n < 0x100000000) :
    (Cell.row table n).Fits s ↔ n < 0x10000 ∨ 0x10000 ≤ s.count table := by
  rw [Cell.Fits]
  by_cases narrow : s.count table < 0x10000
  · rw [if_pos narrow]
    exact ⟨.inl, fun h => h.elim id fun large => by omega⟩
  · rw [if_neg narrow]
    exact iff_of_true small (.inr (by omega))

/-- A property that related members share holds of all members of one list exactly if it does of all
of the other. -/
theorem forall_mem_iff_of_forall₂ {α β : Type} {R : α → β → Prop} {p : α → Prop} {q : β → Prop}
    {xs : List α} {ys : List β} (h : List.Forall₂ R xs ys) (same : ∀ x y, R x y → (p x ↔ q y)) :
    (∀ x ∈ xs, p x) ↔ ∀ y ∈ ys, q y := by
  induction h with
  | nil => exact iff_of_true (fun _ h => by cases h) fun _ h => by cases h
  | cons first _ ih => rw [List.forall_mem_cons, List.forall_mem_cons, same _ _ first, ih]

/-- An offset lies within its heap, so it fits. -/
theorem offset_fits {heap entry : Bytes} {offset size : Nat} (lies : LiesAt heap offset entry)
    (filled : entry ≠ []) (length : heap.length = size) (small : size < 0x100000000) {wide : Bool}
    (told : wide = decide (0x10000 ≤ size)) : offset < Nat.pow 256 (if wide then 4 else 2) := by
  obtain ⟨front, back, rfl, rfl⟩ := lies
  have inside := List.length_pos_iff.2 filled
  rw [List.length_append, List.length_append] at length
  subst told
  by_cases large : 0x10000 ≤ size
  · rw [decide_eq_true large]
    show front.length < 0x100000000
    omega
  · rw [decide_eq_false large]
    show front.length < 0x10000
    omega

namespace Tables

variable {t : Tables} {cell : Cell} {column : Column}

/-- What is drafted fits exactly if its column does. -/
theorem Shows.fits_iff (h : t.Shows cell column) (names : t.names.data.size < 0x100000000)
    (blobs : t.blobs.data.size < 0x100000000) :
    cell.Fits (TableSizes.ofTables t) ↔ column.Fits (TableSizes.ofTables t) := by
  cases h with
  | word v => exact iff_of_true trivial v.toNat_lt
  | dword v => exact iff_of_true trivial v.toNat_lt
  | name lies =>
    exact iff_of_true trivial
      (offset_fits lies (NameHeap.entry_ne_nil _) Array.length_toList names rfl)
  | blob lies =>
    exact iff_of_true trivial
      (offset_fits lies (BlobHeap.entry_ne_nil _) Array.length_toList blobs rfl)
  | guid n => exact Iff.rfl
  | row table n => exact Iff.rfl
  | coded kind v => exact Iff.rfl

/-- All settled columns fit exactly if the drafted ones do. -/
theorem fits_ofDraft (d : Draft) (names : (ofDraft d).names.data.size < 0x100000000)
    (blobs : (ofDraft d).blobs.data.size < 0x100000000) :
    (∀ row ∈ (ofDraft d).rows.toList, ∀ c ∈ row.columns,
        c.Fits (TableSizes.ofTables (ofDraft d))) ↔
      ∀ table, ∀ cells ∈ d.rowsOf table, ∀ c ∈ cells,
        c.Fits (TableSizes.ofTables (ofDraft d)) := by
  have row (cells : List Cell) (columns : List Column)
      (shows : (ofDraft d).ShowsRow cells columns) :
      (∀ c ∈ cells, c.Fits (TableSizes.ofTables (ofDraft d))) ↔
        ∀ c ∈ columns, c.Fits (TableSizes.ofTables (ofDraft d)) :=
    forall_mem_iff_of_forall₂ (R := (ofDraft d).Shows) shows fun _ _ h => h.fits_iff names blobs
  have each (table : TableId) := forall_mem_iff_of_forall₂ (showsRows_ofDraft d table) row
  simp only [each]
  constructor
  · intro all table columns own
    obtain ⟨row, mem, -, rfl⟩ := mem_ofTable.1 own
    exact all row mem
  · intro all row mem
    exact all row.table row.columns (mem_ofTable.2 ⟨row, mem, rfl, rfl⟩)

end Tables

/-! ### Tokens in columns -/

/-- The greatest of some numbers is below a bound exactly if all of them are. -/
theorem foldl_max_lt {xs : List Nat} {m n : Nat} :
    xs.foldl max m < n ↔ m < n ∧ ∀ x ∈ xs, x < n := by
  induction xs generalizing m with
  | nil => simp
  | cons x xs ih => rw [List.foldl_cons, ih, Nat.max_lt, List.forall_mem_cons, and_assoc]

/-- The largest table of an index is below a bound exactly if all its tables are. -/
theorem TableSizes.largest_lt {s : TableSizes} {kind : CodedIndex} {n : Nat} (positive : 0 < n) :
    s.largest kind < n ↔ ∀ table, some table ∈ kind.tables → s.count table < n := by
  rw [largest, foldl_max_lt, and_iff_right positive]
  constructor
  · intro all table mem
    exact all _ (List.mem_filterMap.2 ⟨some table, mem, rfl⟩)
  · intro all x mem
    obtain ⟨entry, inside, told⟩ := List.mem_filterMap.1 mem
    obtain ⟨table, rfl, rfl⟩ := Option.map_eq_some_iff.1 told
    exact all table inside

namespace Image

/-- Whether the columns of a kind have room for the row of a token: the row is one of the first
ones, or one of the tables is so large that they have four bytes. -/
def Indexes (image : Image) (kind : CodedIndex) (t : Token) : Prop :=
  t.row < 0x10000 >>> kind.tagBits ∨
    ∃ table, some table ∈ kind.tables ∧ 0x10000 >>> kind.tagBits ≤ image.rowCount table

/-- A token whose row is in its table can be named. -/
theorem indexes_of_le {image : Image} {kind : CodedIndex} {t : Token} (table : TableId)
    (mem : some table ∈ kind.tables) (inside : t.row ≤ image.rowCount table) :
    image.Indexes kind t := by
  by_cases low : t.row < 0x10000 >>> kind.tagBits
  · exact .inl low
  · exact .inr ⟨table, mem, by omega⟩

end Image

/-- **The column of a token fits** exactly if there is room for its row. -/
theorem Cell.fits_ofToken {image : Image} {s : TableSizes}
    (counted : ∀ table, s.count table = image.rowCount table) {kind : CodedIndex} {t : Token}
    {cell : Cell} (h : Cell.ofToken kind t = .ok cell) : cell.Fits s ↔ image.Indexes kind t := by
  have positive : 0 < 0x10000 >>> kind.tagBits := by cases kind <;> decide
  rcases Cell.ofToken_eq_ok h with ⟨null, rfl⟩ | ⟨-, v, coded, rfl⟩
  · refine iff_of_true (Nat.pow_pos (by decide)) (.inl ?_)
    have zero : t.row = 0 := by
      rw [Token.row, eq_of_beq null]
      rfl
    exact zero ▸ positive
  · obtain ⟨table, tag, -, stands, rfl⟩ :=
      CodedIndex.encode_eq_ok_iff.1 (CodedIndex.encode_eq_ok_iff_encode?.2 coded)
    obtain ⟨two, four⟩ := CodedIndex.shift_lt (CodedIndex.tag_lt stands) t.row_lt
    by_cases narrow : s.largest kind < 0x10000 >>> kind.tagBits
    · have fits : (Cell.coded kind ((t.row <<< kind.tagBits) + tag)).Fits s ↔
          (t.row <<< kind.tagBits) + tag < 0x10000 := by
        rw [Cell.Fits, if_pos narrow]
      rw [fits, two]
      refine ⟨.inl, fun h => ?_⟩
      rcases h with low | ⟨table, mem, large⟩
      · exact low
      · have few := (TableSizes.largest_lt positive).1 narrow table mem
        rw [counted] at few
        omega
    · have fits : (Cell.coded kind ((t.row <<< kind.tagBits) + tag)).Fits s := by
        rw [Cell.Fits, if_neg narrow]
        exact four
      refine iff_of_true fits (.inr ?_)
      by_contra none
      refine narrow ((TableSizes.largest_lt positive).2 fun table mem => ?_)
      rw [counted]
      exact Nat.not_le.1 fun large => none ⟨table, mem, large⟩

/-! ### Runs -/

/-- **The beginnings of runs fit**, unless the last one is empty behind 65535 rows. -/
theorem starts_fit_iff {sizes : List Nat} (filled : sizes ≠ [])
    (small : sizes.sum + 1 < 0x100000000) :
    (∀ i, i < sizes.length → 1 + (sizes.take i).sum <
        Nat.pow 256 (if sizes.sum < 0x10000 then 2 else 4)) ↔
      (sizes.sum = 0xFFFF → sizes.getLast? ≠ some 0) := by
  obtain ⟨init, last, rfl⟩ : ∃ init last, sizes = init ++ [last] :=
    ⟨_, _, (List.dropLast_append_getLast filled).symm⟩
  have within (i : Nat) (inside : i < (init ++ [last]).length) :
      ((init ++ [last]).take i).sum ≤ init.sum := by
    rw [List.length_append, List.length_singleton] at inside
    have before := sum_take_mono (init ++ [last]) (Nat.le_of_lt_succ inside)
    rwa [List.take_left] at before
  rw [List.sum_append, List.sum_singleton] at small ⊢
  rw [List.getLast?_concat]
  constructor
  · intro fits full empty
    have start := fits init.length (by simp)
    have two : Nat.pow 256 2 = 0x10000 := rfl
    rw [full, if_pos (by decide), List.take_left, two] at start
    have := Option.some.inj empty
    omega
  · intro nonzero i inside
    have before := within i inside
    by_cases narrow : init.sum + last < 0x10000
    · rw [if_pos narrow]
      show _ < 0x10000
      by_cases full : init.sum + last = 0xFFFF
      · have : last ≠ 0 := fun zero => nonzero full (congrArg some zero)
        omega
      · omega
    · rw [if_neg narrow]
      show _ < 0x100000000
      omega

namespace Draft

variable {d : Draft} {image : Image} {s : TableSizes} {table owner owned : TableId}
  {sizes : List Nat}

/-- Whether all columns of the rows of a table fit. -/
def RowsFit (d : Draft) (s : TableSizes) (table : TableId) : Prop :=
  ∀ cells ∈ d.rowsOf table, ∀ c ∈ cells, c.Fits s

/-- Rows of which only the beginnings of runs may not fit. -/
theorem Runs.rowsFit_iff (h : d.Runs owner owned sizes)
    (counted : s.count owned = (d.rowsOf owned).length) (filled : sizes ≠ [])
    (small : sizes.sum + 1 < 0x100000000)
    (only : ∀ cells ∈ d.rowsOf owner, ∀ last, cells.getLast? = some last →
      ((∀ c ∈ cells, c.Fits s) ↔ last.Fits s)) :
    d.RowsFit s owner ↔ (sizes.sum = 0xFFFF → sizes.getLast? ≠ some 0) := by
  rw [← starts_fit_iff filled small]
  have fits (n : Nat) : (Cell.row owned n).Fits s ↔
      n < Nat.pow 256 (if sizes.sum < 0x10000 then 2 else 4) := by
    rw [Cell.Fits, counted, h.total]
  constructor
  · intro all i inside
    have bound : i < (d.rowsOf owner).length := h.owners ▸ inside
    have found := List.getElem?_eq_getElem bound
    have mem := List.mem_of_getElem? found
    exact (fits _).1 ((only _ mem _ (h.starts i _ found)).1 (all _ mem))
  · intro starts cells mem
    obtain ⟨i, inside, rfl⟩ := List.getElem_of_mem mem
    have last := h.starts i _ (List.getElem?_eq_getElem inside)
    exact (only _ mem _ last).2 ((fits _).2 (starts i (h.owners ▸ inside)))

end Draft

end HookImage
