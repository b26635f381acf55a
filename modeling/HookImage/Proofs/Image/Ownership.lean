/-
# Which rows belong to whom

A type owns the methods from the number in its last column on up to the one in the next row, or
up to the end of the table, and a method its parameters in the same way (`Tables.Owns`).  As the
runs that drafting begins lie one behind the other and fill their table, every row has exactly one
owner (`Tables.Runs.existsUnique_owner`), and the run of a row is what was drafted for it
(`Tables.Runs.forall₂_run`).  With the tags, which name their methods, and the tokens of the
symbol table, which are the numbers of its rows, this tells for every row of a written image to
whom it belongs (`Tables.assigns_ofImage`).
-/

import HookImage.Proofs.Image.Contents
import HookImage.Proofs.Image.ReadBack
import HookImage.Proofs.Image.Settled
import HookImage.Proofs.Signature.Alike
import HookImage.Proofs.Symbols.Handing
import Mathlib

namespace HookImage

open Bytes (LiesAt)

/-! ### Parts of a list -/

/-- Runs further on begin no earlier. -/
theorem sum_take_mono (sizes : List Nat) {i j : Nat} (h : i ≤ j) :
    (sizes.take i).sum ≤ (sizes.take j).sum := by
  have split := List.take_append_drop i (sizes.take j)
  rw [List.take_take, Nat.min_eq_left h] at split
  rw [← split, List.sum_append]
  exact Nat.le_add_right _ _

/-- A position within parts of given sizes lies in one of them. -/
theorem exists_part {sizes : List Nat} {n : Nat} (h : n < sizes.sum) :
    ∃ i, i < sizes.length ∧ (sizes.take i).sum ≤ n ∧ n < (sizes.take (i + 1)).sum := by
  induction sizes generalizing n with
  | nil => cases h
  | cons size sizes ih =>
    rw [List.sum_cons] at h
    by_cases first : n < size
    · exact ⟨0, Nat.succ_pos _, Nat.zero_le _, by simpa using first⟩
    · obtain ⟨i, inside, low, high⟩ := @ih (n - size) (by omega)
      refine ⟨i + 1, Nat.succ_lt_succ inside, ?_, ?_⟩
      · rw [List.take_succ_cons, List.sum_cons]
        omega
      · rw [List.take_succ_cons, List.sum_cons]
        omega

/-- A joined list is what comes before a member, its own part, and what comes behind. -/
theorem flatMap_around {α β : Type} {f : α → List β} {xs : List α} {i : Nat} {x : α}
    (h : xs[i]? = some x) :
    xs.flatMap f = (xs.take i).flatMap f ++ (f x ++ (xs.drop (i + 1)).flatMap f) := by
  obtain ⟨inside, rfl⟩ := List.getElem?_eq_some_iff.1 h
  rw [← List.flatMap_cons, ← List.drop_eq_getElem_cons inside, ← List.flatMap_append,
    List.take_append_drop]

/-- The sizes before a member are the length of what comes before its part. -/
theorem sum_take_length {α β : Type} (f : α → List β) (xs : List α) (i : Nat) :
    ((xs.map fun x => (f x).length).take i).sum = ((xs.take i).flatMap f).length := by
  rw [← List.map_take, List.length_flatMap]

/-- Related lists have related members at each place. -/
theorem exists_getElem?_of_forall₂ {α β : Type} {R : α → β → Prop} {xs : List α} {ys : List β}
    (h : List.Forall₂ R xs ys) {i : Nat} {x : α} (found : xs[i]? = some x) :
    ∃ y, ys[i]? = some y ∧ R x y := by
  obtain ⟨inside, rfl⟩ := List.getElem?_eq_some_iff.1 found
  have inside' : i < ys.length := h.length_eq ▸ inside
  exact ⟨ys[i], List.getElem?_eq_getElem inside', h.get inside inside'⟩

/-- The part of a list that belongs to a member of another one. -/
theorem forall₂_part {α β γ : Type} {R : β → γ → Prop} {f : α → List β} {xs : List α}
    {rows : List γ} (h : List.Forall₂ R (xs.flatMap f) rows) {i : Nat} {x : α}
    (member : xs[i]? = some x) :
    List.Forall₂ R (f x)
      ((rows.take ((xs.map fun x => (f x).length).take (i + 1)).sum).drop
        ((xs.map fun x => (f x).length).take i).sum) := by
  obtain ⟨inside, same⟩ := List.getElem?_eq_some_iff.1 member
  have upto : (xs.take (i + 1)).flatMap f = (xs.take i).flatMap f ++ f x := by
    rw [List.take_succ_eq_append_getElem inside, same, List.flatMap_append,
      List.flatMap_singleton]
  have whole : (xs.flatMap f).take ((xs.take (i + 1)).flatMap f).length =
      (xs.take i).flatMap f ++ f x := by
    rw [flatMap_around member, ← List.append_assoc, ← upto, List.take_left]
  rw [sum_take_length, sum_take_length]
  have part := List.forall₂_drop ((xs.take i).flatMap f).length
    (List.forall₂_take ((xs.take (i + 1)).flatMap f).length h)
  rwa [whole, List.drop_left] at part

/-! ### Runs of settled rows -/

namespace Tables

variable {t : Tables} {table owner owned : TableId} {sizes : List Nat}

/-- The row of a table with a number, counted from one. -/
def row? (t : Tables) (table : TableId) : Nat → Option (List Column)
  | 0 => none
  | n + 1 => (t.ofTable table)[n]?

/-- Where the run of a row begins, which the last column of the row tells. -/
def start? (t : Tables) (owner : TableId) (n : Nat) : Option Nat :=
  ((t.row? owner n).bind List.getLast?).map Column.value

/-- Where the run of a row ends: where the next one begins, or behind the table. -/
def stop (t : Tables) (owner owned : TableId) (n : Nat) : Nat :=
  (t.start? owner (n + 1)).getD ((t.ofTable owned).length + 1)

/-- The run of a row. -/
def run (t : Tables) (owner owned : TableId) (n : Nat) : List (List Column) :=
  match t.start? owner n with
  | some start => ((t.ofTable owned).take (t.stop owner owned n - 1)).drop (start - 1)
  | none => []

/-- Whether a row owns the row with a number. -/
def Owns (t : Tables) (owner owned : TableId) (n k : Nat) : Prop :=
  ∃ start, t.start? owner n = some start ∧ start ≤ k ∧ k < t.stop owner owned n

/-- Whether runs of given sizes lie one behind the other and fill their table. -/
structure Runs (t : Tables) (owner owned : TableId) (sizes : List Nat) : Prop where
  owners : (t.ofTable owner).length = sizes.length
  total : (t.ofTable owned).length = sizes.sum
  starts : ∀ i, i < sizes.length → t.start? owner (i + 1) = some (1 + (sizes.take i).sum)

/-- Only a row of the owners begins a run. -/
theorem Runs.lt_of_start? (h : t.Runs owner owned sizes) {n start : Nat}
    (found : t.start? owner n = some start) : ∃ i, n = i + 1 ∧ i < sizes.length := by
  cases n with
  | zero => cases found
  | succ i =>
    obtain ⟨last, found, -⟩ := Option.map_eq_some_iff.1 found
    obtain ⟨columns, found, -⟩ := Option.bind_eq_some_iff.1 found
    exact ⟨i, rfl, h.owners ▸ (List.getElem?_eq_some_iff.1 found).1⟩

/-- A run ends where the sizes up to it do. -/
theorem Runs.stop_eq (h : t.Runs owner owned sizes) {i : Nat} (inside : i < sizes.length) :
    t.stop owner owned (i + 1) = 1 + (sizes.take (i + 1)).sum := by
  rw [stop]
  by_cases next : i + 1 < sizes.length
  · rw [h.starts (i + 1) next, Option.getD_some]
  · have none : t.start? owner (i + 1 + 1) = none := by
      by_contra some
      obtain ⟨start, found⟩ := Option.ne_none_iff_exists'.1 some
      obtain ⟨j, same, inside'⟩ := h.lt_of_start? found
      omega
    rw [none, Option.getD_none, h.total, List.take_of_length_le (Nat.not_lt.1 next), Nat.add_comm]

/-- **A row owns those between the sizes before it and the sizes up to it.** -/
theorem Runs.owns_iff (h : t.Runs owner owned sizes) {n k : Nat} :
    t.Owns owner owned n k ↔ ∃ i, n = i + 1 ∧ i < sizes.length ∧
      (sizes.take i).sum < k ∧ k ≤ (sizes.take (i + 1)).sum := by
  constructor
  · rintro ⟨start, found, low, high⟩
    obtain ⟨i, rfl, inside⟩ := h.lt_of_start? found
    rw [h.starts i inside] at found
    cases found
    rw [h.stop_eq inside] at high
    exact ⟨i, rfl, inside, by omega, by omega⟩
  · rintro ⟨i, rfl, inside, low, high⟩
    exact ⟨_, h.starts i inside, by omega, by rw [h.stop_eq inside]; omega⟩

/-- **Every row has exactly one owner.** -/
theorem Runs.existsUnique_owner (h : t.Runs owner owned sizes) {k : Nat} (first : 1 ≤ k)
    (last : k ≤ (t.ofTable owned).length) : ∃! n, t.Owns owner owned n k := by
  rw [h.total] at last
  have within : k - 1 < sizes.sum := by omega
  obtain ⟨i, inside, low, high⟩ := exists_part within
  refine ⟨i + 1, h.owns_iff.2 ⟨i, rfl, inside, by omega, by omega⟩, fun n owns => ?_⟩
  obtain ⟨j, rfl, -, low', high'⟩ := h.owns_iff.1 owns
  rcases Nat.lt_trichotomy i j with before | rfl | behind
  · have := sum_take_mono sizes (show i + 1 ≤ j from before)
    omega
  · rfl
  · have := sum_take_mono sizes (show j + 1 ≤ i from behind)
    omega

/-- **The run of a row is the part that belongs to it.** -/
theorem Runs.forall₂_run {α β : Type} {R : β → List Column → Prop} {f : α → List β} {xs : List α}
    (h : t.Runs owner owned (xs.map fun x => (f x).length))
    (rows : List.Forall₂ R (xs.flatMap f) (t.ofTable owned)) {i : Nat} {x : α}
    (member : xs[i]? = some x) : List.Forall₂ R (f x) (t.run owner owned (i + 1)) := by
  have inside : i < (xs.map fun x => (f x).length).length := by
    rw [List.length_map]
    exact (List.getElem?_eq_some_iff.1 member).1
  have part := forall₂_part rows member
  rw [run, h.starts i inside]
  dsimp only
  rwa [h.stop_eq inside, Nat.add_sub_cancel_left, Nat.add_sub_cancel_left]

/-- Runs that are drafted are runs of the settled rows. -/
theorem runs_ofDraft {d : Draft} (h : d.Runs owner owned sizes) :
    (ofDraft d).Runs owner owned sizes where
  owners := (showsRows_ofDraft d owner).length_eq.symm.trans h.owners
  total := (showsRows_ofDraft d owned).length_eq.symm.trans h.total
  starts := by
    intro i inside
    have bound : i < (d.rowsOf owner).length := h.owners ▸ inside
    have drafted := List.getElem?_eq_getElem bound
    have last := h.starts i _ drafted
    obtain ⟨columns, found, shows⟩ := exists_getElem?_of_forall₂ (showsRows_ofDraft d owner) drafted
    rw [List.getLast?_eq_getElem?] at last
    obtain ⟨column, settled, shown⟩ := exists_getElem?_of_forall₂ shows last
    rw [shows.length_eq, ← List.getLast?_eq_getElem?] at settled
    cases shown
    rw [start?, row?, found, Option.bind_some, settled]
    rfl

/-! ### What rows show -/

/-- Whether the columns of a row show those of a drafted row of some kind. -/
def Shown (t : Tables) (written : List Cell → Prop) (columns : List Column) : Prop :=
  ∃ cells, written cells ∧ t.ShowsRow cells columns

/-- Whether the columns of a row show the name of a parameter with its number, for a position that
is counted from zero. -/
def ShowsParam (t : Tables) (param : String × Nat) (columns : List Column) : Prop :=
  ∃ number offset, columns = [.word 0, .word number, .name offset] ∧
    number.toNat = param.2 + 1 ∧ LiesAt t.names.data.toList offset (NameHeap.entry param.1)

/-- The tags of a method: the custom attributes whose parent is the row with a number. -/
def tagsOf (t : Tables) (n : Nat) : List (List Column) :=
  (t.ofTable .customAttribute).filter fun columns => columns.head? ==
    (CodedIndex.hasCustomAttribute.encode? (.ofRow .methodDef n)).map
      (.coded .hasCustomAttribute)

/-- Whether the row of a method with a number shows it, and its run and the custom attributes that
name it show the names of its parameters and its tags. -/
structure Describes (t : Tables) (constructor : Token) (m : SyntheticMethod) (n : Nat) : Prop where
  row : ∃ columns, t.row? .methodDef n = some columns ∧ t.Shown m.WrittenAs columns
  params : List.Forall₂ t.ShowsParam m.paramNames.zipIdx (t.run .methodDef .param n)
  tags : List.Forall₂ (fun tag => t.Shown (ProvenanceTag.WrittenAs constructor (tag, n))) m.tags
    (t.tagsOf n)

/-- What is written of each row is shown by the table. -/
theorem shown_of_forall₂ {α : Type} {W : α → List Cell → Prop} {xs : List α} {d : Draft}
    (h : List.Forall₂ W xs (d.rowsOf table)) :
    List.Forall₂ (fun x => (ofDraft d).Shown (W x)) xs ((ofDraft d).ofTable table) :=
  forall₂_trans (fun _ cells _ written shows => ⟨cells, written, shows⟩) h
    (showsRows_ofDraft d table)

/-- The row of a parameter shows its number and its name. -/
theorem showsParam_of_showsRow {param : String × Nat} (few : param.2 + 1 < 0x10000)
    {columns : List Column} (h : t.ShowsRow (Cell.param param) columns) :
    t.ShowsParam param columns := by
  rcases h with _ | ⟨zero, h⟩
  rcases h with _ | ⟨number, h⟩
  rcases h with _ | ⟨name, h⟩
  cases h
  cases zero
  cases number
  cases name with
  | name lies =>
    refine ⟨_, _, rfl, ?_, lies⟩
    rw [UInt16.toNat_ofNat']
    omega

/-! ### Tags -/

end Tables

/-- The token of a method is not the empty one. -/
theorem Token.isNull_ofRow_methodDef (n : Nat) : (Token.ofRow .methodDef n).isNull = false := by
  refine beq_eq_false_iff_ne.2 fun null => ?_
  have word := Token.toNat_ofRow .methodDef n
  rw [null] at word
  simp only [UInt32.toNat_zero, TableId.number] at word
  omega

/-- The coded form of a token in a column. -/
theorem Cell.ofToken_eq_ok {kind : CodedIndex} {t : Token} {cell : Cell}
    (h : Cell.ofToken kind t = .ok cell) :
    t.isNull = true ∧ cell = .coded kind 0 ∨
      t.isNull = false ∧ ∃ v, kind.encode? t = some v ∧ cell = .coded kind v := by
  unfold Cell.ofToken at h
  cases null : t.isNull with
  | true =>
    rw [null] at h
    cases h
    exact .inl ⟨rfl, rfl⟩
  | false =>
    rw [null] at h
    obtain ⟨v, hv, h⟩ := bind_eq_ok.1 h
    cases h
    exact .inr ⟨rfl, v, CodedIndex.encode_eq_ok_iff_encode?.1 hv, rfl⟩

/-- A method is coded by its number. -/
theorem CodedIndex.encode?_methodDef (n : Nat) :
    hasCustomAttribute.encode? (.ofRow .methodDef n) = some ((n % 0x1000000) <<< 5) := by
  rw [encode?, Token.table?_ofRow, Token.row_ofRow]
  rfl

namespace SyntheticMethod

/-- The tags of methods whose rows are numbered from a number on. -/
theorem le_of_mem_tags {methods : List SyntheticMethod} {first : Nat} {tag : ProvenanceTag × Nat}
    (h : tag ∈ (methods.zipIdx first).flatMap fun (m, n) => m.tags.map (·, n)) :
    first ≤ tag.2 ∧ tag.2 < first + methods.length := by
  obtain ⟨⟨m, n⟩, member, h⟩ := List.mem_flatMap.1 h
  obtain ⟨tag, -, rfl⟩ := List.mem_map.1 h
  obtain ⟨low, high, -⟩ := List.mem_zipIdx member
  exact ⟨low, high⟩

/-- The tags with the number of a method are those of the method. -/
theorem filter_tags {methods : List SyntheticMethod} {i : Nat} {m : SyntheticMethod}
    (member : methods[i]? = some m) (first : Nat) :
    ((methods.zipIdx first).flatMap fun (m, n) => m.tags.map (·, n)).filter (·.2 == first + i) =
      m.tags.map (·, first + i) := by
  induction methods generalizing i first with
  | nil => cases member
  | cons m' methods ih =>
    rw [List.zipIdx_cons, List.flatMap_cons, List.filter_append]
    cases i with
    | zero =>
      obtain rfl : m' = m := Option.some.inj member
      have own : (m'.tags.map (·, first)).filter (·.2 == first + 0) = m'.tags.map (·, first) := by
        rw [List.filter_eq_self]
        intro tag mem
        obtain ⟨_, -, rfl⟩ := List.mem_map.1 mem
        exact beq_self_eq_true _
      rw [own, List.filter_eq_nil_iff.2, List.append_nil, Nat.add_zero]
      intro tag mem same
      have := (le_of_mem_tags mem).1
      have := eq_of_beq same
      omega
    | succ i =>
      have others : (m'.tags.map (·, first)).filter (·.2 == first + (i + 1)) = [] := by
        rw [List.filter_eq_nil_iff]
        intro tag mem same
        obtain ⟨_, -, rfl⟩ := List.mem_map.1 mem
        have := eq_of_beq same
        dsimp only at this
        omega
      rw [others, List.nil_append, ← Nat.add_assoc, Nat.add_right_comm]
      exact ih member (first + 1)

end SyntheticMethod

namespace Tables

/-- The parent of a tag's row is the coded form of the tag's number. -/
theorem forall₂_parents {constructor : Token} {methods : List SyntheticMethod} {t : Tables}
    (few : methods.length < 0x1000000)
    (rows : List.Forall₂ (fun tag => t.Shown (ProvenanceTag.WrittenAs constructor tag))
      (SyntheticMethod.numberedTags methods) (t.ofTable .customAttribute)) :
    List.Forall₂ (fun tag columns => t.Shown (ProvenanceTag.WrittenAs constructor tag) columns ∧
        columns.head? = some (.coded .hasCustomAttribute (tag.2 <<< 5)) ∧ tag.2 < 0x1000000)
      (SyntheticMethod.numberedTags methods) (t.ofTable .customAttribute) := by
  refine forall₂_of_mem rows ?_
  rintro tag mem columns ⟨cells, written, shows⟩
  have small := (SyntheticMethod.le_of_mem_tags mem).2
  refine ⟨⟨cells, written, shows⟩, ?_, by omega⟩
  obtain ⟨parent, type, hparent, -, rfl⟩ := written
  rcases Cell.ofToken_eq_ok hparent with ⟨null, -⟩ | ⟨-, v, coded, rfl⟩
  · rw [Token.isNull_ofRow_methodDef] at null
    cases null
  · rw [CodedIndex.encode?_methodDef, Nat.mod_eq_of_lt (by omega)] at coded
    cases coded
    cases shows with
    | cons first _ =>
      cases first
      rfl

/-- **The custom attributes of a method are its tags**, in their order. -/
theorem forall₂_tagsOf {constructor : Token} {methods : List SyntheticMethod} {t : Tables}
    (few : methods.length < 0x1000000)
    (rows : List.Forall₂ (fun tag => t.Shown (ProvenanceTag.WrittenAs constructor tag))
      (SyntheticMethod.numberedTags methods) (t.ofTable .customAttribute))
    {i : Nat} {m : SyntheticMethod} (member : methods[i]? = some m) :
    List.Forall₂ (fun tag => t.Shown (ProvenanceTag.WrittenAs constructor (tag, 1 + i))) m.tags
      (t.tagsOf (1 + i)) := by
  have inside := (List.getElem?_eq_some_iff.1 member).1
  have filtered := List.rel_filter (p := fun tag => tag.2 == 1 + i)
    (q := fun columns => columns.head? == (CodedIndex.hasCustomAttribute.encode?
      (.ofRow .methodDef (1 + i))).map (.coded .hasCustomAttribute)) (fun tag columns h => by
    obtain ⟨-, parent, small⟩ := h
    dsimp only
    rw [parent, CodedIndex.encode?_methodDef, Nat.mod_eq_of_lt (by omega)]
    simp only [Option.map_some, beq_iff_eq, Option.some.injEq, Column.coded.injEq, true_and]
    rw [Nat.shiftLeft_eq, Nat.shiftLeft_eq]
    omega) (forall₂_parents few rows)
  rw [SyntheticMethod.numberedTags, SyntheticMethod.filter_tags member 1,
    List.forall₂_map_left_iff] at filtered
  exact filtered.imp fun _ _ h => h.1

end Tables

/-! ### Symbols -/

/-- Whether columns are those of the written row of a symbol. -/
def SymbolRow.WrittenAs (row : SymbolRow) (columns : List Cell) : Prop :=
  match row with
  | assembly a => columns = a.columns
  | type row => row.WrittenAs columns
  | spec bytes => columns = [.blob bytes]
  | member row => row.WrittenAs columns
  | signature bytes => columns = [.blob bytes]
  | instantiation row => row.WrittenAs columns

namespace Tables

variable {t : Tables} {d : Draft} {image : Image}

/-- The row of a symbol is shown under its number. -/
theorem exists_row?_of_written {ρ κ : Type} [BEq κ] [Hashable κ] {key : ρ → κ}
    {rows : Interner key} {W : ρ → List Cell → Prop} {table : TableId}
    (h : List.Forall₂ W rows.rows.toList (d.rowsOf table)) {n : Nat} {row : ρ}
    (found : rows.row? n = some row) :
    ∃ columns, (ofDraft d).row? table n = some columns ∧ (ofDraft d).Shown (W row) columns := by
  cases n with
  | zero => cases found
  | succ n =>
    refine exists_getElem?_of_forall₂ (shown_of_forall₂ h) ?_
    rw [Array.getElem?_toList]
    exact found

/-- **The row of a symbol is written at its number.** -/
theorem exists_row?_of_rowAt (contents : d.Contents image) {table : TableId} {n : Nat}
    {row : SymbolRow} (h : image.symbols.rowAt table n = some row) :
    n ≤ image.rowCount table ∧ ∃ columns, (ofDraft d).row? table n = some columns ∧
      (ofDraft d).Shown row.WrittenAs columns := by
  have told {α : Type} {f : α → List Cell} {xs : List α} {rows : List (List Cell)}
      (same : rows = xs.map f) : List.Forall₂ (fun x columns => columns = f x) xs rows := by
    rw [same, List.forall₂_map_right_iff, List.forall₂_same]
    exact fun _ _ => rfl
  unfold SymbolTable.rowAt at h
  split at h
  all_goals
    try obtain ⟨row, found, rfl⟩ := Option.map_eq_some_iff.1 h
    try refine ⟨Interner.row?_le_size found, ?_⟩
  · exact exists_row?_of_written (told contents.assemblies) found
  · exact exists_row?_of_written contents.types found
  · exact exists_row?_of_written (told contents.specs) found
  · exact exists_row?_of_written contents.members found
  · exact exists_row?_of_written (told contents.signatures) found
  · exact exists_row?_of_written contents.instantiations found
  · cases h

/-! ### Images -/

/-- Whether the rows of tables belong to whom they do in an image. -/
structure Assigns (t : Tables) (image : Image) : Prop where
  /-- The token of a container is that of the row that shows it, which comes behind those of the
  module and of the attribute. -/
  containers : ∀ i c, image.containers[i]? = some c → (Image.typeDefToken i).row = i + 3 ∧
    ∃ columns, t.row? .typeDef (i + 3) = some columns ∧ t.Shown c.defined.head.WrittenAs columns
  methods : ∀ i c, image.containers[i]? = some c →
    List.Forall₂ (fun m => t.Shown m.WrittenAs) c.methods (t.run .typeDef .methodDef (i + 3))
  /-- The first method is the constructor of the attribute, and its type owns no other. -/
  provenance : (∃ columns, t.row? .typeDef 2 = some columns ∧
      t.Shown image.provenance.defined.head.WrittenAs columns) ∧
    List.Forall₂ (fun m => t.Shown m.WrittenAs) [image.provenance.constructorMethod]
      (t.run .typeDef .methodDef 2) ∧ t.Owns .typeDef .methodDef 2 1
  module : (∃ columns, t.row? .typeDef 1 = some columns ∧
      t.Shown DefinedType.module.head.WrittenAs columns) ∧
    ∀ k, ¬ t.Owns .typeDef .methodDef 1 k
  owners : ∀ k, 1 ≤ k → k ≤ (t.ofTable .methodDef).length →
    ∃! n, t.Owns .typeDef .methodDef n k
  /-- The methods of a container have the numbers from the beginning of its run on. -/
  described : ∀ i c, image.containers[i]? = some c → ∃ first,
    t.start? .typeDef (i + 3) = some first ∧ ∀ j m, c.methods[j]? = some m →
      t.Owns .typeDef .methodDef (i + 3) (first + j) ∧
      t.Describes image.provenance.constructor m (first + j)
  constructor : t.Describes image.provenance.constructor image.provenance.constructorMethod 1
  /-- A token that the symbol table has handed out at any time names the row of its symbol. -/
  tokens : ∀ (s : SymbolTable) (row : SymbolRow) (token : Token) (s' : SymbolTable),
    s.tokenOf row = .ok (token, s') → s'.Leads image.symbols →
    token.table? = some row.table ∧ ∃ row' : SymbolRow, row'.Shares row ∧
      ∃ columns, t.row? row.table token.row = some columns ∧ t.Shown row'.WrittenAs columns

end Tables

namespace Draft

variable {image : Image} {d : Draft}

open Tables

/-- A method that is drafted is described by the row with its number. -/
theorem describes_of_defines {constructor : Token} {types : List DefinedType}
    (h : d.Defines constructor types) (few : (DefinedType.allMethods types).length < 0x1000000)
    {p : Nat} {m : SyntheticMethod} (member : (DefinedType.allMethods types)[p]? = some m) :
    (ofDraft d).Describes constructor m (p + 1) := by
  have sizes : (DefinedType.allMethods types).map (·.paramNames.length) =
      (DefinedType.allMethods types).map (·.paramRows.length) := by
    refine List.map_congr_left fun m _ => ?_
    rw [SyntheticMethod.paramRows, List.length_map, List.length_zipIdx]
  constructor
  · exact exists_getElem?_of_forall₂ (shown_of_forall₂ h.methods) member
  · have rows := showsRows_ofDraft d .param
    rw [h.params] at rows
    have params := (runs_ofDraft (sizes ▸ h.paramRuns)).forall₂_run rows member
    rw [SyntheticMethod.paramRows, List.forall₂_map_left_iff] at params
    refine forall₂_of_mem params fun param mem columns shows => ?_
    have inside := (List.mem_zipIdx' mem).1
    have few := h.few m (List.mem_of_getElem? member)
    exact showsParam_of_showsRow (by omega) shows
  · rw [Nat.add_comm]
    exact forall₂_tagsOf few (shown_of_forall₂ h.tags) member

/-- The methods of a type among all. -/
theorem getElem?_allMethods {types : List DefinedType} {k : Nat} {T : DefinedType}
    (member : types[k]? = some T) {j : Nat} {m : SyntheticMethod} (own : T.methods[j]? = some m) :
    (DefinedType.allMethods types)[(DefinedType.allMethods (types.take k)).length + j]? =
      some m := by
  have inside := (List.getElem?_eq_some_iff.1 own).1
  rw [DefinedType.allMethods, flatMap_around member, DefinedType.allMethods,
    List.getElem?_append_right (Nat.le_add_right _ _), Nat.add_sub_cancel_left,
    List.getElem?_append_left inside, own]

/-- The row of a type shows it, and its run shows its methods. -/
theorem shows_type {constructor : Token} {types : List DefinedType}
    (h : d.Defines constructor types) {k : Nat} {T : DefinedType} (member : types[k]? = some T) :
    (∃ columns, (ofDraft d).row? .typeDef (k + 1) = some columns ∧
        (ofDraft d).Shown T.head.WrittenAs columns) ∧
      List.Forall₂ (fun m => (ofDraft d).Shown m.WrittenAs) T.methods
        ((ofDraft d).run .typeDef .methodDef (k + 1)) := by
  have head : (types.map (·.head))[k]? = some T.head := by
    rw [List.getElem?_map, member, Option.map_some]
  exact ⟨exists_getElem?_of_forall₂ (shown_of_forall₂ h.heads) head,
    (runs_ofDraft h.methodRuns).forall₂_run (shown_of_forall₂ h.methods) member⟩

/-- The methods of a type have the numbers from the beginning of its run on. -/
theorem describes_methods {constructor : Token} {types : List DefinedType}
    (h : d.Defines constructor types) (few : (DefinedType.allMethods types).length < 0x1000000)
    {k : Nat} {T : DefinedType} (member : types[k]? = some T) : ∃ first,
      (ofDraft d).start? .typeDef (k + 1) = some first ∧ ∀ j m, T.methods[j]? = some m →
        (ofDraft d).Owns .typeDef .methodDef (k + 1) (first + j) ∧
        (ofDraft d).Describes constructor m (first + j) := by
  have runs := runs_ofDraft h.methodRuns
  obtain ⟨inside, same⟩ := List.getElem?_eq_some_iff.1 member
  have inside' : k < (types.map (·.methods.length)).length := by
    rw [List.length_map]
    exact inside
  refine ⟨_, runs.starts k inside', fun j m own => ⟨runs.owns_iff.2 ⟨k, rfl, inside', ?_, ?_⟩, ?_⟩⟩
  · omega
  · have within := (List.getElem?_eq_some_iff.1 own).1
    rw [List.take_succ_eq_append_getElem inside', List.sum_append, List.getElem_map, same,
      List.sum_singleton]
    omega
  · have described := describes_of_defines h few (getElem?_allMethods member own)
    rw [sum_take_length (fun T : DefinedType => T.methods)]
    rw [Nat.add_comm 1, Nat.add_right_comm]
    exact described

/-- **A drafted image gives its rows to whom they belong.** -/
theorem assigns_ofImage {image : Image} {d : Draft} (h : ofImage image = .ok d)
    (small : ∀ table, image.rowCount table < 0x1000000) : (ofDraft d).Assigns image := by
  have contents := contents_ofImage h
  have defines := contents.defines
  have runs := runs_ofDraft defines.methodRuns
  have few : (DefinedType.allMethods image.defined).length < 0x1000000 :=
    image.length_allMethods ▸ small .methodDef
  have container {i : Nat} {c : Container} (member : image.containers[i]? = some c) :
      image.defined[i + 2]? = some c.defined := by
    rw [Image.defined, List.getElem?_cons_succ, List.getElem?_cons_succ, List.getElem?_map, member,
      Option.map_some]
  have first : image.defined[1]? = some image.provenance.defined := rfl
  have begins : ((image.defined.map (·.methods.length)).take 1).sum = 0 := rfl
  have continues : ((image.defined.map (·.methods.length)).take 2).sum = 1 := rfl
  constructor
  · intro i c member
    have inside := (List.getElem?_eq_some_iff.1 member).1
    have types : image.containers.length + Image.reservedTypes < 0x1000000 := small .typeDef
    refine ⟨?_, (shows_type defines (container member)).1⟩
    rw [Image.typeDefToken, Token.row_ofRow]
    unfold Image.reservedTypes at types ⊢
    exact Nat.mod_eq_of_lt (by omega)
  · intro i c member
    exact (shows_type defines (container member)).2
  · obtain ⟨row, methods⟩ := shows_type defines first
    refine ⟨row, methods, runs.owns_iff.2 ⟨1, rfl, ?_, ?_, ?_⟩⟩
    · simp [Image.defined]
    · rw [begins]
      exact Nat.one_pos
    · rw [continues]
  · refine ⟨(shows_type (k := 0) defines rfl).1, fun k owns => ?_⟩
    obtain ⟨i, one, -, low, high⟩ := runs.owns_iff.1 owns
    obtain rfl : i = 0 := by omega
    rw [begins] at high
    omega
  · exact fun k low high => runs.existsUnique_owner low high
  · intro i c member
    exact describes_methods defines few (container member)
  · exact describes_of_defines defines few (p := 0) (by rw [Image.allMethods_defined]; rfl)
  · intro s row token s' asked later
    obtain ⟨n, row', rfl, found, shares⟩ := SymbolTable.tokenOf_eq_ok asked
    obtain ⟨inside, written⟩ := exists_row?_of_rowAt contents (later.rowAt found)
    have bound := small row.table
    refine ⟨Token.table?_ofRow _ _, row', shares, ?_⟩
    rw [Token.row_ofRow, Nat.mod_eq_of_lt (by omega)]
    exact written

/-- The hypotheses are satisfiable: an image with a method of two parameters and a tag in a nested
container. -/
theorem assigns_ofImage_sampled :
    ∃ d, ofImage Image.sampled = .ok d ∧ (ofDraft d).Assigns Image.sampled := by
  have drafted : (ofImage Image.sampled).toOption.isSome := by cbv
  obtain ⟨d, found⟩ := Option.isSome_iff_exists.1 drafted
  have ok : ofImage Image.sampled = .ok d := by
    cases run : ofImage Image.sampled with
    | error fault =>
      rw [run] at found
      cases found
    | ok d' =>
      rw [run] at found
      exact congrArg Except.ok (Option.some.inj found)
  refine ⟨d, ok, assigns_ofImage ok fun table => ?_⟩
  cases table <;> decide

end Draft
end HookImage
