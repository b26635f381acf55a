/-
# Where lines land

What layout keeps of a body: every line still belongs to its instruction, with the operation
it had or the long form of it (`settle_grown`), and lines stand one behind the other
(`offset_add_size_le`).  Layout ends where every short branch reaches its target
(`isStable_settle`), and the label of an instruction is the offset of the last line that
carries its number (`getElem?_labels`), which is the only one in a body whose numbers differ
(`getElem?_labels_eq_some`).
-/

import HookImage.Cil.Layout
import Mathlib.Data.List.Forall2
import Mathlib.Data.List.Nodup

namespace HookImage

/-- Members that are related step by step are related across both steps. -/
theorem forall₂_trans {α β γ : Type} {r : α → β → Prop} {t : β → γ → Prop} {u : α → γ → Prop}
    (step : ∀ x y z, r x y → t y z → u x z) {xs : List α} {ys : List β} {zs : List γ}
    (hr : List.Forall₂ r xs ys) (ht : List.Forall₂ t ys zs) : List.Forall₂ u xs zs := by
  induction hr generalizing zs with
  | nil =>
    cases ht
    exact .nil
  | cons hx _ ih =>
    cases ht with
    | cons hz hzs => exact .cons (step _ _ _ hx hz) (ih hzs)

/-- Every member of the first of two related lists has a partner in the second. -/
theorem exists_mem_zip {α β : Type} {r : α → β → Prop} {xs : List α} {ys : List β}
    (h : List.Forall₂ r xs ys) {x : α} (hx : x ∈ xs) : ∃ y, (x, y) ∈ xs.zip ys ∧ r x y := by
  induction h with
  | nil => exact nomatch hx
  | cons first _ ih =>
    rw [List.zip_cons_cons]
    rcases List.mem_cons.1 hx with rfl | hx
    · exact ⟨_, List.mem_cons_self, first⟩
    · obtain ⟨y, hmem, hy⟩ := ih hx
      exact ⟨y, List.mem_cons_of_mem _ hmem, hy⟩

/-- A long form has no longer one. -/
@[simp] theorem Opcode.longForm_longForm (op : Opcode) : op.longForm.longForm = op.longForm := by
  cases op <;> rfl

/-- Every operation takes a byte. -/
theorem Opcode.size_pos (op : Opcode) : 0 < op.size := by
  unfold Opcode.size
  split <;> omega

namespace Line

/-- A line for the same instruction, with the same operation or the long form of it. -/
def Grown (l l' : Line) : Prop := l' = l ∨ l' = l.widened

/-- Widening twice is widening once. -/
@[simp] theorem widened_widened (l : Line) : l.widened.widened = l.widened := by
  rw [widened, widened, Opcode.longForm_longForm]

/-- Lines that grew in two steps grew. -/
theorem Grown.trans {l l' l'' : Line} (h : Grown l l') (h' : Grown l' l'') : Grown l l'' := by
  rcases h with rfl | rfl
  · exact h'
  · rcases h' with rfl | rfl
    · exact .inr rfl
    · exact .inr (widened_widened l)

/-- A line that grows is one of the same instruction. -/
theorem Grown.instr_eq {l l' : Line} (h : Grown l l') : l'.instr = l.instr := by
  rcases h with rfl | rfl <;> rfl

/-- A line that grows keeps its operation or gets the long form of it. -/
theorem Grown.op_eq {l l' : Line} (h : Grown l l') : l'.op = l.op ∨ l'.op = l.op.longForm := by
  rcases h with rfl | rfl
  · exact .inl rfl
  · exact .inr rfl

/-- A line has a short target exactly if it is a short branch to it. -/
theorem shortTarget?_eq_some {l : Line} {id : InstrId} :
    l.shortTarget? = some id ↔ l.op.operandKind = .shortBranch ∧ l.instr.operand = .target id := by
  unfold shortTarget? isShort
  cases l.instr.operand with
  | target target => simp
  | _ => simp

/-- Every line takes a byte. -/
theorem size_pos (l : Line) : 0 < l.size := Nat.add_pos_left l.op.size_pos _

end Line

namespace Layout

/-! ### Branches that do not reach -/

/-- A distance is near if it fits in one signed byte. -/
theorem isNear_eq_true {d : Int} : isNear d = true ↔ -128 ≤ d ∧ d ≤ 127 := by
  rw [isNear, Bool.and_eq_true, decide_eq_true_eq, decide_eq_true_eq]

/-- A line is stretched exactly if it is a short branch whose target is too far away. -/
theorem isStretched_eq_true {offsets : Labels} {p : PlacedLine} :
    isStretched offsets p = true ↔ ∃ id target, p.shortTarget? = some id ∧
      offsets[id]? = some target ∧ ¬isNear (target - p.next) = true := by
  unfold isStretched
  cases p.shortTarget? with
  | none => simp
  | some id =>
    rcases found : offsets[id]? with _ | target
    · simp [found]
    · simp [found]

/-! ### Rounds -/

/-- In a round lines only grow. -/
theorem round_grown (lines : List Line) : List.Forall₂ Line.Grown lines (round lines) := by
  have placed : ∀ ps : List PlacedLine, ∀ offsets : Labels,
      List.Forall₂ Line.Grown (ps.map (·.toLine))
        (ps.map fun p => if isStretched offsets p then p.widened else p.toLine) := by
    intro ps offsets
    induction ps with
    | nil => exact .nil
    | cons p ps ih =>
      refine .cons ?_ ih
      show p.toLine.Grown (if isStretched offsets p then p.widened else p.toLine)
      split
      · exact .inr rfl
      · exact .inl rfl
  have whole : (place lines).map (·.toLine) = lines := map_toLine_placeFrom 0 lines
  have step := placed (place lines) (labels (place lines))
  rw [whole] at step
  exact step

/-- **Layout keeps the instructions**, in their order, and changes an operation into its long
form at most. -/
theorem settle_grown (lines : List Line) : List.Forall₂ Line.Grown lines (settle lines) := by
  fun_induction settle lines with
  | case1 lines _ => exact List.forall₂_same.2 fun _ _ => .inl rfl
  | case2 lines _ ih => exact forall₂_trans (fun _ _ _ => .trans) (round_grown lines) ih

/-- **Layout ends where every short branch reaches its target.** -/
theorem isStable_settle (lines : List Line) : isStable (settle lines) = true := by
  fun_induction settle lines with
  | case1 lines stable => exact stable
  | case2 lines _ ih => exact ih

/-- A branch that layout leaves short reaches its target. -/
theorem isNear_of_settle {lines : List Line} {p : PlacedLine} (hp : p ∈ place (settle lines))
    {id : InstrId} {target : Nat} (short : p.shortTarget? = some id)
    (label : (labels (place (settle lines)))[id]? = some target) :
    isNear (target - p.next) = true := by
  have stable := isStable_settle lines
  rw [isStable, Bool.not_eq_true', List.any_eq_false] at stable
  by_contra far
  exact stable p hp (isStretched_eq_true.2 ⟨id, target, short, label, far⟩)

/-! ### Offsets -/

/-- The number of bytes of lines that stand one behind the other. -/
def total (lines : List Line) : Nat := lines.foldr (fun l n => l.size + n) 0

/-- No lines take no bytes. -/
@[simp] theorem total_nil : total [] = 0 := rfl

/-- Lines take the bytes of the first one and of the others. -/
@[simp] theorem total_cons (l : Line) (ls : List Line) : total (l :: ls) = l.size + total ls := rfl

/-- Lines one behind the other take the bytes of both parts. -/
@[simp] theorem total_append (ls ls' : List Line) : total (ls ++ ls') = total ls + total ls' := by
  induction ls with
  | nil => simp
  | cons l ls ih => simp [ih, Nat.add_assoc]

/-- Placing lines keeps their instructions. -/
@[simp] theorem map_instr_placeFrom (offset : Nat) (lines : List Line) :
    (placeFrom offset lines).map (·.instr) = lines.map (·.instr) := by
  have whole := congrArg (List.map (·.instr)) (map_toLine_placeFrom offset lines)
  rw [List.map_map] at whole
  exact whole

/-- Lines lie between the start and the end of the code. -/
theorem offset_add_size_le {offset : Nat} {lines : List Line} {p : PlacedLine}
    (h : p ∈ placeFrom offset lines) : offset ≤ p.offset ∧ p.next ≤ offset + total lines := by
  induction lines generalizing offset with
  | nil => exact nomatch h
  | cons l ls ih =>
    rw [total_cons]
    rcases List.mem_cons.1 h with rfl | h
    · refine ⟨Nat.le_refl _, ?_⟩
      show offset + l.size ≤ _
      omega
    · have := ih h
      omega

/-! ### Labels -/

/-- **The label of an instruction** is the offset of the last line with its number. -/
theorem getElem?_labels (placed : List PlacedLine) (id : InstrId) :
    (labels placed)[id]? = (placed.reverse.find? (·.instr.id == id)).map (·.offset) := by
  rw [labels, List.foldl_eq_foldr_reverse]
  induction placed.reverse with
  | nil => simp
  | cons p ps ih =>
    rw [List.foldr_cons, Std.HashMap.getElem?_insert, ih, List.find?_cons]
    by_cases h : p.instr.id = id
    · simp [h]
    · rw [if_neg (by simpa using h), beq_false_of_ne h]

/-- Every label is the offset of an instruction with this number. -/
theorem exists_of_label {placed : List PlacedLine} {id : InstrId} {offset : Nat}
    (h : (labels placed)[id]? = some offset) :
    ∃ p ∈ placed, p.instr.id = id ∧ p.offset = offset := by
  rw [getElem?_labels] at h
  obtain ⟨p, hp, rfl⟩ := Option.map_eq_some_iff.1 h
  have same := List.find?_some hp
  exact ⟨p, List.mem_reverse.1 (List.mem_of_find?_eq_some hp), eq_of_beq same, rfl⟩

/-- Every instruction that is placed has a label. -/
theorem exists_label {placed : List PlacedLine} {id : InstrId}
    (h : id ∈ placed.map (·.instr.id)) : ∃ offset, (labels placed)[id]? = some offset := by
  obtain ⟨p, hp, same⟩ := List.mem_map.1 h
  rw [getElem?_labels]
  rcases found : placed.reverse.find? (·.instr.id == id) with _ | q
  · have := List.find?_eq_none.1 found p (List.mem_reverse.2 hp)
    simp [same] at this
  · rw [found]
    exact ⟨q.offset, rfl⟩

/-- Where values are all different, a search by value finds the member that has it. -/
theorem find?_eq_some_of_nodup {α β : Type} [DecidableEq β] {f : α → β} {xs : List α} {x : α}
    (nodup : (xs.map f).Nodup) (h : x ∈ xs) : xs.find? (f · == f x) = some x := by
  induction xs with
  | nil => exact nomatch h
  | cons y ys ih =>
    obtain ⟨fresh, nodup⟩ := List.nodup_cons.1 nodup
    rw [List.find?_cons]
    rcases List.mem_cons.1 h with rfl | h
    · rw [beq_self_eq_true]
    · have other : f y ≠ f x := fun e => fresh (e ▸ List.mem_map_of_mem h)
      rw [beq_false_of_ne other, ih nodup h]

/-- Where the numbers differ, a label is the offset of the line with its number. -/
theorem getElem?_labels_eq_some {placed : List PlacedLine} {id : InstrId} {offset : Nat}
    (nodup : (placed.map (·.instr.id)).Nodup) :
    (labels placed)[id]? = some offset ↔ ∃ p ∈ placed, p.instr.id = id ∧ p.offset = offset := by
  refine ⟨exists_of_label, ?_⟩
  rintro ⟨p, hp, rfl, rfl⟩
  rw [getElem?_labels, Option.map_eq_some_iff]
  refine ⟨p, find?_eq_some_of_nodup (f := fun p : PlacedLine => p.instr.id) ?_
    (List.mem_reverse.2 hp), rfl⟩
  rw [List.map_reverse]
  exact List.nodup_reverse.2 nodup

/-! ### Positions -/

/-- A line is placed behind the bytes of the lines before it. -/
theorem placeFrom_eq_map (front ls : List Line) :
    placeFrom (total front) ls =
      (ls.zipIdx front.length).map fun q => ⟨q.1, total ((front ++ ls).take q.2)⟩ := by
  induction ls generalizing front with
  | nil => rfl
  | cons l ls ih =>
    have more : total front + l.size = total (front ++ [l]) := by simp
    have longer : front.length + 1 = (front ++ [l]).length := by simp
    rw [placeFrom, more, ih, List.zipIdx_cons, List.map_cons, List.take_left', longer,
      List.append_assoc, List.singleton_append]
    rfl

/-- The position of the last instruction with a number. -/
def lastPosition? (is : List Instruction) (id : InstrId) : Option Nat :=
  (is.zipIdx.reverse.find? (·.1.id == id)).map (·.2)

/-- A label is the offset of the last instruction with its number. -/
theorem getElem?_labels_place (lines : List Line) (id : InstrId) :
    (labels (place lines))[id]? =
      (lastPosition? (lines.map (·.instr)) id).map fun k => total (lines.take k) := by
  have placed : place lines = lines.zipIdx.map fun q => ⟨q.1, total (lines.take q.2)⟩ :=
    placeFrom_eq_map [] lines
  rw [getElem?_labels, lastPosition?, List.zipIdx_map, ← List.map_reverse, List.find?_map,
    placed, ← List.map_reverse, List.find?_map, Option.map_map, Option.map_map, Option.map_map]
  rfl

/-- A line further on begins further on. -/
theorem total_take_lt {lines : List Line} {i j : Nat} (h : i < j) (hj : j ≤ lines.length) :
    total (lines.take i) < total (lines.take j) := by
  induction lines generalizing i j with
  | nil => exact absurd hj (by simp; omega)
  | cons l ls ih =>
    obtain ⟨j, rfl⟩ : ∃ k, j = k + 1 := ⟨j - 1, by omega⟩
    have positive := l.size_pos
    cases i with
    | zero =>
      simp
      omega
    | succ i =>
      simpa using ih (i := i) (j := j) (by omega) (by simpa using hj)

/-! ### The layout of a body -/

/-- The lines of a body before any is widened. -/
def draft (b : MethodBody) : List Line := b.instructions.map fun i => ⟨i.opcode, i⟩

/-- A body has a layout exactly if its short branches have targets and its code is shorter than 2³²
bytes. -/
theorem ofBody_eq_ok {b : MethodBody} {layout : Layout} :
    ofBody b = .ok layout ↔ missingTarget? b = none ∧
      total (settle (draft b)) < 0x100000000 ∧
      layout = ⟨place (settle (draft b)), total (settle (draft b))⟩ := by
  rw [ofBody]
  cases missingTarget? b with
  | some fault => exact ⟨fun h => (nomatch h), fun h => (nomatch h.1)⟩
  | none =>
    show (if total (settle (draft b)) < 0x100000000 then _ else _) = _ ↔ _
    split
    · rename_i small
      exact ⟨fun h => ⟨rfl, small, by cases h; rfl⟩, fun h => by rw [h.2.2]; rfl⟩
    · rename_i large
      exact ⟨fun h => (nomatch h), fun h => absurd h.2.1 large⟩

/-- In the settled layout every instruction has a line that grew from its own one. -/
theorem settle_draft (b : MethodBody) :
    List.Forall₂ (fun (i : Instruction) (l : Line) => Line.Grown ⟨i.opcode, i⟩ l)
      b.instructions (settle (draft b)) := by
  have := settle_grown (draft b)
  rw [draft, List.forall₂_map_left_iff] at this
  exact this

/-- Every line of the settled layout grew from that of an instruction. -/
theorem exists_of_mem_settle_draft {b : MethodBody} {l : Line} (h : l ∈ settle (draft b)) :
    ∃ i ∈ b.instructions, Line.Grown ⟨i.opcode, i⟩ l := by
  obtain ⟨i, hmem, grown⟩ := exists_mem_zip (settle_draft b).flip h
  exact ⟨i, (List.of_mem_zip hmem).2, grown⟩

/-- The settled layout has the instructions of the body in their order. -/
@[simp] theorem map_instr_settle_draft (b : MethodBody) :
    (settle (draft b)).map (·.instr) = b.instructions := by
  have same := (settle_draft b).imp fun _ _ grown => grown.instr_eq.symm
  rw [← List.forall₂_map_right_iff (R := Eq), List.forall₂_eq_eq_eq] at same
  exact same.symm

end Layout

/-! ### Positions in a body -/

namespace MethodBody

variable {b : MethodBody}

/-- Where the numbers differ, a position is that of the instruction with its number. -/
theorem position?_eq_some (distinct : (b.instructions.map (·.id)).Nodup) {id : InstrId} {p : Nat} :
    b.position? id = some p ↔ ∃ i, b.instructions[p]? = some i ∧ i.id = id := by
  constructor
  · intro h
    obtain ⟨lt, same, _⟩ := List.findIdx?_eq_some_iff_getElem.1 h
    exact ⟨_, List.getElem?_eq_getElem lt, eq_of_beq same⟩
  · rintro ⟨i, here, rfl⟩
    obtain ⟨lt, rfl⟩ := List.getElem?_eq_some_iff.1 here
    refine List.findIdx?_eq_some_iff_getElem.2 ⟨lt, beq_self_eq_true _, fun q hq same => ?_⟩
    have differ := List.nodup_iff_getElem?_ne_getElem?.1 distinct q p hq (by rwa [List.length_map])
    rw [List.getElem?_map, List.getElem?_map, here, List.getElem?_eq_getElem (Nat.lt_trans hq lt)]
      at differ
    exact differ (congrArg some (eq_of_beq same))

/-- The place of a number lies in the body. -/
theorem position?_lt {id : InstrId} {p : Nat} (h : b.position? id = some p) : p < b.length :=
  (List.findIdx?_eq_some_iff_getElem.1 h).1

/-- Where the numbers differ, the first instruction with a number is the last one. -/
theorem lastPosition?_eq_position? (distinct : (b.instructions.map (·.id)).Nodup) (id : InstrId) :
    Layout.lastPosition? b.instructions id = b.position? id := by
  have numbers : (b.instructions.zipIdx.reverse.map (·.1.id)).Nodup := by
    have firsts : b.instructions.zipIdx.map Prod.fst = b.instructions := List.zipIdx_map_fst ..
    rw [← firsts, List.map_map] at distinct
    rw [List.map_reverse]
    exact List.nodup_reverse.2 distinct
  ext p
  rw [position?_eq_some distinct, Layout.lastPosition?, Option.map_eq_some_iff]
  constructor
  · rintro ⟨⟨i, p⟩, found, rfl⟩
    exact ⟨i, List.mem_zipIdx_iff_getElem?.1 (List.mem_reverse.1 (List.mem_of_find?_eq_some found)),
      eq_of_beq (List.find?_some found :)⟩
  · rintro ⟨i, here, rfl⟩
    have mem : (i, p) ∈ b.instructions.zipIdx.reverse :=
      List.mem_reverse.2 (List.mem_zipIdx_iff_getElem?.2 here)
    exact ⟨(i, p), Layout.find?_eq_some_of_nodup (f := fun x : Instruction × Nat => x.1.id)
      numbers mem, rfl⟩

end MethodBody
end HookImage
