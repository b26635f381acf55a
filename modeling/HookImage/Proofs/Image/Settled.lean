/-
# What settled rows show

Settling replaces the texts and blobs of drafted rows by offsets.  A heap only ever grows at its
end, and its index finds an entry only where that lies (`Heap.Holds`), so what an offset names
when it is given out it names in the finished heap as well.  Settled tables therefore have for
every drafted row one that shows the same, in the same table and at the same place
(`Tables.showsRows_ofDraft`).
-/

import HookImage.Proofs.Image.Parts
import HookImage.Proofs.Image.Rows

namespace HookImage

open Bytes (LiesAt)

/-- A part lies where it does in a longer file. -/
theorem Bytes.LiesAt.mono {file file' part : Bytes} {offset : Nat} (h : LiesAt file offset part)
    (more : file <+: file') : LiesAt file' offset part := by
  obtain ⟨rest, rfl⟩ := more
  obtain ⟨front, back, rfl, length⟩ := h
  exact ⟨front, back ++ rest, by rw [List.append_assoc _ back], length⟩

/-! ### Heaps -/

namespace Heap

variable {κ : Type} [BEq κ] [Hashable κ]

/-- Whether every entry that the index finds lies where it says, behind the empty entry. -/
structure Holds (heap : Heap κ) (entry : κ → Bytes) : Prop where
  first : LiesAt heap.data.toList 0 [0]
  found : ∀ content offset, heap.index[content]? = some offset →
    LiesAt heap.data.toList offset (entry content)

/-- Whether a heap with an offset is what became of another one when an entry was added. -/
structure Adds (heap : Heap κ) (entry : κ → Bytes) (content : κ) (added : Nat × Heap κ) :
    Prop where
  holds : added.2.Holds entry
  grows : heap.data.toList <+: added.2.data.toList
  lies : LiesAt added.2.data.toList added.1 (entry content)

/-- In a new heap nothing has an entry. -/
theorem holds_empty (entry : κ → Bytes) : ({} : Heap κ).Holds entry where
  first := ⟨[], [], rfl, rfl⟩
  found content offset h := by
    rw [Std.HashMap.getElem?_empty] at h
    cases h

/-- The empty entry stands at the beginning already. -/
theorem Holds.adds_first {heap : Heap κ} {entry : κ → Bytes} (h : heap.Holds entry) {content : κ}
    (empty : entry content = [0]) : heap.Adds entry content (0, heap) :=
  ⟨h, List.prefix_rfl, empty ▸ h.first⟩

/-- An entry is found, or it becomes the last one. -/
theorem intern_cases (heap : Heap κ) (content : κ) (entry : κ → Bytes) :
    (∃ offset, heap.index[content]? = some offset ∧ heap.intern content entry = (offset, heap)) ∨
      heap.index[content]? = none ∧ heap.intern content entry =
        (heap.data.size,
          ⟨heap.data ++ entry content, heap.index.insert content heap.data.size⟩) := by
  obtain ⟨data, index⟩ := heap
  rcases known : index[content]? with _ | offset
  · exact .inr ⟨rfl, by simp only [intern, known]⟩
  · exact .inl ⟨offset, rfl, by simp only [intern, known]⟩

variable [LawfulBEq κ] {heap : Heap κ} {entry : κ → Bytes}

/-- **An entry that is added lies at its offset**, and those before it stay where they are. -/
theorem Holds.intern (h : heap.Holds entry) (content : κ) :
    heap.Adds entry content (heap.intern content entry) := by
  rcases heap.intern_cases content entry with ⟨offset, known, same⟩ | ⟨-, added⟩
  · rw [same]
    exact ⟨h, List.prefix_rfl, h.found content offset known⟩
  · have grows : heap.data.toList <+: (heap.data ++ entry content).toList := by
      rw [Array.toList_appendList]
      exact List.prefix_append _ _
    have lies : LiesAt (heap.data ++ entry content).toList heap.data.size (entry content) := by
      rw [Array.toList_appendList]
      exact ⟨heap.data.toList, [], (List.append_nil _).symm, Array.length_toList⟩
    rw [added]
    refine ⟨⟨h.first.mono grows, fun other offset found => ?_⟩, grows, lies⟩
    rw [Std.HashMap.getElem?_insert] at found
    by_cases same : content = other
    · rw [if_pos (beq_iff_eq.2 same)] at found
      cases found
      exact same ▸ lies
    · rw [if_neg (mt beq_iff_eq.1 same)] at found
      exact (h.found other offset found).mono grows

/-- The offset of a content, whose entry is added if there is none yet and it is not the one at
zero. -/
def place (isFirst : κ → Bool) (entry : κ → Bytes) (heap : Heap κ) (content : κ) : Nat × Heap κ :=
  if isFirst content then (0, heap) else heap.intern content entry

/-- **A content that is added gets an entry, and all others keep theirs.** -/
theorem Holds.place (h : heap.Holds entry) (isFirst : κ → Bool)
    (first : ∀ content, isFirst content → entry content = [0]) (content : κ) :
    heap.Adds entry content (heap.place isFirst entry content) := by
  unfold Heap.place
  split
  · rename_i empty
    exact h.adds_first (first content empty)
  · exact h.intern content

end Heap

/-- The empty name is the empty entry. -/
theorem NameHeap.entry_of_isEmpty (s : String) (empty : s.isEmpty) : NameHeap.entry s = [0] := by
  rw [String.isEmpty_iff.1 empty]
  rfl

/-- The empty blob is the empty entry. -/
theorem BlobHeap.entry_of_isEmpty (blob : Bytes) (empty : blob.isEmpty) :
    BlobHeap.entry blob = [0] := by
  rw [List.isEmpty_iff.1 empty]
  rfl

/-- A name that is added gets an entry. -/
theorem NameHeap.adds {names : NameHeap} (h : names.Holds NameHeap.entry) (s : String) :
    names.Adds NameHeap.entry s (NameHeap.add names s) :=
  h.place String.isEmpty entry_of_isEmpty s

/-- A blob that is added gets an entry. -/
theorem BlobHeap.adds {blobs : BlobHeap} (h : blobs.Holds BlobHeap.entry) (blob : Bytes) :
    blobs.Adds BlobHeap.entry blob (BlobHeap.add blobs blob) :=
  h.place List.isEmpty entry_of_isEmpty blob

/-- The entry of a name has a byte. -/
theorem NameHeap.entry_ne_nil (s : String) : NameHeap.entry s ≠ [] :=
  List.append_ne_nil_of_right_ne_nil _ (List.cons_ne_nil _ _)

/-- The entry of a blob has a byte. -/
theorem BlobHeap.entry_ne_nil (blob : Bytes) : BlobHeap.entry blob ≠ [] := by
  have filled (n : UInt32) : Bytes.compressed n ≠ [] := by
    unfold Bytes.compressed
    split
    · exact List.cons_ne_nil _ _
    · split <;> exact List.ne_nil_of_length_pos (by
        simp [Bytes.bigEndian])
  exact List.append_ne_nil_of_left_ne_nil (filled _) _

/-! ### Columns and rows -/

/-- Whether a settled column says what a drafted one does, for the bytes of both heaps. -/
inductive Cell.SettledAs (names blobs : Bytes) : Cell → Column → Prop where
  | word (v : UInt16) : SettledAs names blobs (.word v) (.word v)
  | dword (v : UInt32) : SettledAs names blobs (.dword v) (.dword v)
  | name {s : String} {offset : Nat} (lies : LiesAt names offset (NameHeap.entry s)) :
    SettledAs names blobs (.name s) (.name offset)
  | blob {bytes : Bytes} {offset : Nat} (lies : LiesAt blobs offset (BlobHeap.entry bytes)) :
    SettledAs names blobs (.blob bytes) (.blob offset)
  | guid (n : Nat) : SettledAs names blobs (.guid n) (.guid n)
  | row (table : TableId) (n : Nat) : SettledAs names blobs (.row table n) (.row table n)
  | coded (kind : CodedIndex) (value : Nat) :
    SettledAs names blobs (.coded kind value) (.coded kind value)

/-- A column is settled by longer heaps too. -/
theorem Cell.SettledAs.mono {names names' blobs blobs' : Bytes} (moreNames : names <+: names')
    (moreBlobs : blobs <+: blobs') {cell : Cell} {column : Column}
    (h : cell.SettledAs names blobs column) : cell.SettledAs names' blobs' column := by
  cases h with
  | name lies => exact .name (lies.mono moreNames)
  | blob lies => exact .blob (lies.mono moreBlobs)
  | word v => exact .word v
  | dword v => exact .dword v
  | guid n => exact .guid n
  | row table n => exact .row table n
  | coded kind value => exact .coded kind value

namespace Tables

/-- Whether a column says what a drafted one does. -/
def Shows (t : Tables) (cell : Cell) (column : Column) : Prop :=
  cell.SettledAs t.names.data.toList t.blobs.data.toList column

/-- Whether the columns of a row say what drafted ones do. -/
def ShowsRow (t : Tables) (cells : List Cell) (columns : List Column) : Prop :=
  List.Forall₂ t.Shows cells columns

/-- Whether the heaps of tables hold what they say, and continue those of others. -/
structure Settles (names : NameHeap) (blobs : BlobHeap) (names' : NameHeap) (blobs' : BlobHeap) :
    Prop where
  holdNames : names'.Holds NameHeap.entry
  holdBlobs : blobs'.Holds BlobHeap.entry
  moreNames : names.data.toList <+: names'.data.toList
  moreBlobs : blobs.data.toList <+: blobs'.data.toList

variable {names names' : NameHeap} {blobs blobs' : BlobHeap}

/-- Nothing settles nothing. -/
theorem Settles.refl (hn : names.Holds NameHeap.entry) (hb : blobs.Holds BlobHeap.entry) :
    Settles names blobs names blobs :=
  ⟨hn, hb, List.prefix_rfl, List.prefix_rfl⟩

/-- Two steps settle together. -/
theorem Settles.trans {names'' : NameHeap} {blobs'' : BlobHeap}
    (h : Settles names blobs names' blobs') (h' : Settles names' blobs' names'' blobs'') :
    Settles names blobs names'' blobs'' :=
  ⟨h'.holdNames, h'.holdBlobs, h.moreNames.trans h'.moreNames, h.moreBlobs.trans h'.moreBlobs⟩

/-- Settling a cell adds what it shows to the heaps. -/
theorem settleCell_spec (hn : names.Holds NameHeap.entry) (hb : blobs.Holds BlobHeap.entry)
    (cell : Cell) {column : Column} (h : settleCell names blobs cell = (column, names', blobs')) :
    Settles names blobs names' blobs' ∧
      cell.SettledAs names'.data.toList blobs'.data.toList column := by
  cases cell with
  | name s =>
    have adds := NameHeap.adds hn s
    cases h
    exact ⟨⟨adds.holds, hb, adds.grows, List.prefix_rfl⟩, .name adds.lies⟩
  | blob bytes =>
    have adds := BlobHeap.adds hb bytes
    cases h
    exact ⟨⟨hn, adds.holds, List.prefix_rfl, adds.grows⟩, .blob adds.lies⟩
  | word v => cases h; exact ⟨.refl hn hb, .word v⟩
  | dword v => cases h; exact ⟨.refl hn hb, .dword v⟩
  | guid n => cases h; exact ⟨.refl hn hb, .guid n⟩
  | row table n => cases h; exact ⟨.refl hn hb, .row table n⟩
  | coded kind value => cases h; exact ⟨.refl hn hb, .coded kind value⟩

/-- Columns are settled from left to right, and what the first ones show stays shown. -/
theorem settleCells_spec (hn : names.Holds NameHeap.entry) (hb : blobs.Holds BlobHeap.entry)
    {cells : List Cell} {columns : List Column}
    (h : settleCells names blobs cells = (columns, names', blobs')) :
    Settles names blobs names' blobs' ∧
      List.Forall₂ (·.SettledAs names'.data.toList blobs'.data.toList) cells columns := by
  induction cells generalizing names blobs columns with
  | nil =>
    cases h
    exact ⟨.refl hn hb, .nil⟩
  | cons cell cells ih =>
    rcases first : settleCell names blobs cell with ⟨column, names₁, blobs₁⟩
    rcases rest : settleCells names₁ blobs₁ cells with ⟨others, names₂, blobs₂⟩
    rw [settleCells, first] at h
    simp only [rest] at h
    cases h
    obtain ⟨settles, shown⟩ := settleCell_spec hn hb cell first
    obtain ⟨settles', shown'⟩ := ih settles.holdNames settles.holdBlobs rest
    exact ⟨settles.trans settles', .cons (shown.mono settles'.moreNames settles'.moreBlobs) shown'⟩

/-- Rows are settled one behind the other, and what the first ones show stays shown. -/
theorem settleRows_spec {t : Tables} (hn : t.names.Holds NameHeap.entry)
    (hb : t.blobs.Holds BlobHeap.entry) (rows : List (TableRow Cell)) :
    Settles t.names t.blobs (rows.foldl settleRow t).names (rows.foldl settleRow t).blobs ∧
      ∃ settled, (rows.foldl settleRow t).rows.toList = t.rows.toList ++ settled ∧
        List.Forall₂ (fun row row' => row.table = row'.table ∧
          (rows.foldl settleRow t).ShowsRow row.columns row'.columns) rows settled := by
  induction rows generalizing t with
  | nil => exact ⟨.refl hn hb, [], (List.append_nil _).symm, .nil⟩
  | cons row rows ih =>
    rcases first : settleCells t.names t.blobs row.columns with ⟨columns, names, blobs⟩
    obtain ⟨settles, shown⟩ := settleCells_spec hn hb first
    have step : t.settleRow row = ⟨t.rows.push ⟨row.table, columns⟩, names, blobs⟩ := by
      rw [settleRow]
      simp only [first]
    rw [List.foldl_cons, step]
    obtain ⟨settles', settled, all, shown'⟩ :=
      @ih ⟨t.rows.push ⟨row.table, columns⟩, names, blobs⟩ settles.holdNames settles.holdBlobs
    refine ⟨settles.trans settles', ⟨row.table, columns⟩ :: settled, ?_, .cons ⟨rfl, ?_⟩ shown'⟩
    · rw [all, Array.toList_push, List.append_assoc, List.singleton_append]
    · exact shown.imp fun _ _ h => h.mono settles'.moreNames settles'.moreBlobs

/-- **The settled rows of a table show its drafted rows**, in the same order. -/
theorem showsRows_ofDraft (d : Draft) (table : TableId) :
    List.Forall₂ (ofDraft d).ShowsRow (d.rowsOf table) ((ofDraft d).ofTable table) := by
  obtain ⟨-, settled, all, shown⟩ := settleRows_spec (t := {}) (Heap.holds_empty _)
    (Heap.holds_empty _) d.rows.toList
  rw [Array.foldl_toList] at all shown
  have rows : (ofDraft d).rows.toList = settled := all
  rw [Draft.rowsOf, ofTable, rows, List.forall₂_map_left_iff, List.forall₂_map_right_iff]
  refine (List.rel_filter ?_ shown).imp fun _ _ h => h.2
  intro row row' h
  dsimp only
  rw [h.1]

end Tables
end HookImage
