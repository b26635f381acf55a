/-
# The least widening

Which branches layout widens.  Whether a set of branches is enough is a question about one
layout, that in which exactly those have the long form (`MethodBody.Reaches`).  Widening more
branches pushes instructions further apart and brings no two closer (`total_take_add_le`), so a
branch that does not reach its target with some branches widened is widened in every set that
is enough and contains them (`stretched_subset`).  A round of layout adds just these branches
(`round_widening`).  It therefore stays below every set that is enough, and ends with one
(`settle_widening`).
-/

import HookImage.Proofs.Cil.Refusal
import Mathlib.Data.Finset.Card
import Mathlib.Logic.Function.Iterate
import Mathlib.Order.Bounds.Basic

namespace HookImage

open Layout

/-! ### Sets of widened branches -/

/-- The line of an instruction where the branches of a set have the long form, and everything
else has the operation that it came with. -/
def Instruction.lineIn (W : Finset InstrId) (i : Instruction) : Line :=
  if i.id ∈ W then (Line.mk i.opcode i).widened else ⟨i.opcode, i⟩

namespace MethodBody

/-- The lines of a body where exactly the branches of a set are widened. -/
def widening (b : MethodBody) (W : Finset InstrId) : List Line :=
  b.instructions.map (·.lineIn W)

/-- Whether it is enough to widen the branches of a set: every branch that stays short reaches
its target, counted from the line behind it. -/
def Reaches (b : MethodBody) (W : Finset InstrId) : Prop :=
  ∀ p ∈ place (b.widening W), ∀ q ∈ place (b.widening W), p.shortTarget? = some q.instr.id →
    -128 ≤ (q.offset : Int) - p.next ∧ (q.offset : Int) - p.next ≤ 127

instance (b : MethodBody) (W : Finset InstrId) : Decidable (b.Reaches W) :=
  inferInstanceAs (Decidable (∀ p ∈ _, ∀ q ∈ _, _ → _ ∧ _))

/-- The short branches of a body that name a target. -/
def shortBranches (b : MethodBody) : Finset InstrId :=
  ((b.instructions.filter fun i => (Line.mk i.opcode i).shortTarget?.isSome).map (·.id)).toFinset

/-- The branches that do not reach their targets where those of a set are widened. -/
def stretched (b : MethodBody) (W : Finset InstrId) : Finset InstrId :=
  (((place (b.widening W)).filter (isStretched (labels (place (b.widening W))))).map
    (·.instr.id)).toFinset

end MethodBody

/-- The branches that a layout has widened. -/
def Layout.widened (layout : Layout) : Finset InstrId :=
  ((layout.lines.filter fun p => p.op ≠ p.instr.opcode).map (·.instr.id)).toFinset

namespace Layout

variable {b : MethodBody} {W V : Finset InstrId}

/-! ### Lines and where they stand -/

/-- The line at a place begins behind the bytes of those before it. -/
theorem getElem?_place (lines : List Line) (k : Nat) :
    (place lines)[k]? = lines[k]?.map fun l => ⟨l, total (lines.take k)⟩ := by
  have placed : place lines = lines.zipIdx.map fun q => ⟨q.1, total (lines.take q.2)⟩ :=
    placeFrom_eq_map [] lines
  rw [placed, List.getElem?_map, List.getElem?_zipIdx, Option.map_map, Nat.zero_add]
  rfl

/-- The placed lines are the lines with the bytes before them. -/
theorem mem_place {lines : List Line} {p : PlacedLine} :
    p ∈ place lines ↔ ∃ k l, lines[k]? = some l ∧ p = ⟨l, total (lines.take k)⟩ := by
  rw [List.mem_iff_getElem?]
  refine exists_congr fun k => ?_
  rw [getElem?_place, Option.map_eq_some_iff]
  exact exists_congr fun l => and_congr_right fun _ => eq_comm

/-- Where lines grow, no two of them come closer. -/
theorem total_take_add_le {ls ls' : List Line}
    (grown : List.Forall₂ (fun l l' => l.size ≤ l'.size) ls ls') {i j : Nat} (h : i ≤ j) :
    total (ls.take j) + total (ls'.take i) ≤ total (ls'.take j) + total (ls.take i) := by
  induction grown generalizing i j with
  | nil => simp
  | cons first _ ih =>
    cases j with
    | zero =>
      simp [Nat.le_zero.1 h]
    | succ j =>
      cases i with
      | zero =>
        have rest := ih (Nat.zero_le j)
        simp at rest ⊢
        omega
      | succ i =>
        have rest := ih (Nat.le_of_succ_le_succ h)
        simp
        omega

/-- A line further on begins no earlier. -/
theorem total_take_le (ls : List Line) {i j : Nat} (h : i ≤ j) :
    total (ls.take i) ≤ total (ls.take j) := by
  have whole := List.take_append_drop i (ls.take j)
  rw [List.take_take, Nat.min_eq_left h] at whole
  rw [← whole]
  simp

/-- A distance that is near stays so where lines shrink. -/
theorem isNear_of_grown {ls ls' : List Line}
    (grown : List.Forall₂ (fun l l' => l.size ≤ l'.size) ls ls') {i j : Nat}
    (near : isNear (total (ls'.take j) - total (ls'.take i))) :
    isNear (total (ls.take j) - total (ls.take i)) := by
  rw [isNear_eq_true] at near ⊢
  rcases Nat.le_total i j with ahead | back
  · have := total_take_add_le grown ahead
    have := total_take_le ls ahead
    omega
  · have := total_take_add_le grown back
    have := total_take_le ls back
    omega

/-! ### Widened lines -/

/-- Whether it is widened or not, the line of an instruction is that of the instruction. -/
@[simp] theorem instr_lineIn (W : Finset InstrId) (i : Instruction) : (i.lineIn W).instr = i := by
  unfold Instruction.lineIn
  split <;> rfl

/-- The line at a place is that of the instruction there. -/
@[simp] theorem getElem?_widening (k : Nat) :
    (b.widening W)[k]? = b.instructions[k]?.map (·.lineIn W) :=
  List.getElem?_map ..

/-- The lines are the instructions in their order. -/
@[simp] theorem map_instr_widening : (b.widening W).map (·.instr) = b.instructions := by
  rw [MethodBody.widening, List.map_map]
  exact (List.map_congr_left fun i _ => instr_lineIn W i).trans (List.map_id' _)

/-- The placed lines have the numbers of the instructions in their order. -/
@[simp] theorem map_id_place_widening :
    (place (b.widening W)).map (·.instr.id) = b.instructions.map (·.id) := by
  rw [← map_instr_widening (W := W), ← map_instr_placeFrom 0, List.map_map]
  rfl

/-- Where nothing is widened the lines are those of the draft. -/
theorem widening_empty : b.widening ∅ = draft b :=
  List.map_congr_left fun _ _ => if_neg (Finset.notMem_empty _)

/-- Widening does not make a line shorter. -/
theorem size_le_widened (l : Line) : l.size ≤ l.widened.size := by
  have op : l.op.longForm.size = l.op.size := by cases l.op <;> rfl
  unfold Line.size Line.widened
  dsimp only
  rw [op]
  rcases Encode.longForm_cases l.op with same | ⟨short, long⟩
  · rw [same]
  · rw [short, long]
    exact Nat.add_le_add_left (show 1 ≤ 4 by decide) _

/-- With more branches widened no line is shorter. -/
theorem sizes_widening (h : W ⊆ V) :
    List.Forall₂ (fun l l' => l.size ≤ l'.size) (b.widening W) (b.widening V) := by
  rw [MethodBody.widening, MethodBody.widening, List.forall₂_map_left_iff,
    List.forall₂_map_right_iff, List.forall₂_same]
  intro i _
  unfold Instruction.lineIn
  by_cases old : i.id ∈ W
  · rw [if_pos old, if_pos (h old)]
  · rw [if_neg old]
    split
    · exact size_le_widened _
    · exact Nat.le_refl _

/-- A line that is placed is that of its instruction, at the offset of its position. -/
theorem mem_place_widening {p : PlacedLine} : p ∈ place (b.widening W) ↔
    ∃ k i, b.instructions[k]? = some i ∧
      p = ⟨i.lineIn W, total ((b.widening W).take k)⟩ := by
  rw [mem_place]
  refine exists_congr fun k => ?_
  rw [getElem?_widening]
  constructor
  · rintro ⟨l, hl, rfl⟩
    obtain ⟨i, hi, rfl⟩ := Option.map_eq_some_iff.1 hl
    exact ⟨i, hi, rfl⟩
  · rintro ⟨i, hi, rfl⟩
    exact ⟨i.lineIn W, by rw [hi]; rfl, rfl⟩

/-- The next line begins behind the bytes of this one. -/
theorem total_take_succ_widening {k : Nat} {i : Instruction} (h : b.instructions[k]? = some i) :
    total ((b.widening W).take (k + 1)) =
      total ((b.widening W).take k) + (i.lineIn W).size := by
  simp [List.take_add_one, h]

/-! ### One round -/

/-- A branch is stretched if one of its lines is. -/
theorem mem_stretched {id : InstrId} : id ∈ b.stretched W ↔ ∃ p ∈ place (b.widening W),
    isStretched (labels (place (b.widening W))) p = true ∧ p.instr.id = id := by
  rw [MethodBody.stretched, List.mem_toFinset, List.mem_map]
  exact exists_congr fun p => by rw [List.mem_filter, and_assoc]

/-- A branch that is still short is none of those that are widened. -/
theorem not_mem_of_shortTarget? {i : Instruction} {id : InstrId}
    (short : (i.lineIn W).shortTarget? = some id) : i.id ∉ W := by
  intro old
  rw [Instruction.lineIn, if_pos old] at short
  have shape := (Line.shortTarget?_eq_some.1 short).1
  have long := isShort_widened ⟨i.opcode, i⟩
  rw [Line.isShort, shape] at long
  cases long

/-- What a round widens: the short branches whose targets are not near. -/
theorem exists_of_mem_stretched {id : InstrId} (h : id ∈ b.stretched W) :
    ∃ k j i t, b.instructions[k]? = some i ∧ b.instructions[j]? = some t ∧ i.id = id ∧
      id ∉ W ∧ (i.lineIn W).shortTarget? = some t.id ∧
      ¬isNear (total ((b.widening W).take j) - total ((b.widening W).take (k + 1))) = true := by
  obtain ⟨p, hp, far, rfl⟩ := mem_stretched.1 h
  obtain ⟨id, target, short, label, distant⟩ := isStretched_eq_true.1 far
  obtain ⟨q, hq, rfl, rfl⟩ := exists_of_label label
  obtain ⟨k, i, hi, rfl⟩ := mem_place_widening.1 hp
  obtain ⟨j, t, ht, rfl⟩ := mem_place_widening.1 hq
  dsimp only at short distant ⊢
  rw [instr_lineIn] at short ⊢
  refine ⟨k, j, i, t, hi, ht, rfl, not_mem_of_shortTarget? short, short, ?_⟩
  rw [total_take_succ_widening hi]
  exact distant

/-- Only short branches are stretched. -/
theorem stretched_subset_shortBranches : b.stretched W ⊆ b.shortBranches := by
  intro id h
  obtain ⟨k, _, i, t, hi, _, rfl, new, short, _⟩ := exists_of_mem_stretched h
  rw [Instruction.lineIn, if_neg new] at short
  rw [MethodBody.shortBranches, List.mem_toFinset, List.mem_map]
  exact ⟨i, List.mem_filter.2 ⟨List.mem_of_getElem? hi, by rw [short]; rfl⟩, rfl⟩

/-- **What a round widens belongs to every larger set that is enough.**  With more branches
widened the same branch would be no shorter, and its target no nearer. -/
theorem stretched_subset (h : W ⊆ V) (enough : b.Reaches V) : b.stretched W ⊆ V := by
  intro id hid
  obtain ⟨k, j, i, t, hi, ht, rfl, old, short, distant⟩ := exists_of_mem_stretched hid
  by_contra new
  have same : i.lineIn V = i.lineIn W := by
    rw [Instruction.lineIn, Instruction.lineIn, if_neg new, if_neg old]
  have reached := enough _ (mem_place_widening.2 ⟨k, i, hi, rfl⟩) _
    (mem_place_widening.2 ⟨j, t, ht, rfl⟩) (by rw [instr_lineIn, ← short, ← same])
  refine distant (isNear_of_grown (sizes_widening h) (isNear_eq_true.2 ?_))
  rw [total_take_succ_widening hi]
  exact reached

/-- **A round widens** the branches that do not reach their targets, and nothing else. -/
theorem round_widening (distinct : (b.instructions.map (·.id)).Nodup) :
    round (b.widening W) = b.widening (W ∪ b.stretched W) := by
  refine List.ext_getElem? fun k => ?_
  rw [round, List.getElem?_map, getElem?_place, getElem?_widening, getElem?_widening,
    Option.map_map, Option.map_map]
  refine Option.map_congr fun i hi => ?_
  have here : ⟨i.lineIn W, total ((b.widening W).take k)⟩ ∈ place (b.widening W) :=
    mem_place_widening.2 ⟨k, i, hi, rfl⟩
  have chosen : i.id ∈ b.stretched W ↔ isStretched (labels (place (b.widening W)))
      ⟨i.lineIn W, total ((b.widening W).take k)⟩ = true := by
    rw [mem_stretched]
    constructor
    · rintro ⟨p, hp, far, same⟩
      rw [← map_id_place_widening (W := W)] at distinct
      have only := List.inj_on_of_nodup_map distinct hp here
        (same.trans (congrArg Instruction.id (instr_lineIn W i).symm))
      exact only ▸ far
    · exact fun far => ⟨_, here, far, congrArg Instruction.id (instr_lineIn W i)⟩
  dsimp only [Function.comp]
  split
  · rename_i far
    rw [Instruction.lineIn, Instruction.lineIn,
      if_pos (Finset.mem_union_right W (chosen.2 far))]
    split
    · exact Line.widened_widened _
    · rfl
  · rename_i near
    have same : i.id ∈ W ∪ b.stretched W ↔ i.id ∈ W := by
      rw [Finset.mem_union, chosen, or_iff_left near]
    rw [Instruction.lineIn, Instruction.lineIn]
    simp only [same]

/-- Layout stops where enough branches are widened. -/
theorem reaches_of_isStable (distinct : (b.instructions.map (·.id)).Nodup)
    (stable : isStable (b.widening W) = true) : b.Reaches W := by
  intro p hp q hq short
  rw [isStable, Bool.not_eq_true', List.any_eq_false] at stable
  have label : (labels (place (b.widening W)))[q.instr.id]? = some q.offset :=
    (getElem?_labels_eq_some (map_id_place_widening ▸ distinct)).2 ⟨q, hq, rfl, rfl⟩
  by_contra far
  rw [← isNear_eq_true] at far
  exact stable p hp (isStretched_eq_true.2 ⟨_, _, short, label, far⟩)

/-- A layout that is not stable has a stretched branch that is not widened yet. -/
theorem stretched_nonempty (unstable : isStable (b.widening W) = false) :
    ∃ id ∈ b.stretched W, id ∉ W := by
  rw [isStable, Bool.not_eq_false', List.any_eq_true] at unstable
  obtain ⟨p, hp, far⟩ := unstable
  have mem : p.instr.id ∈ b.stretched W := mem_stretched.2 ⟨p, hp, far, rfl⟩
  obtain ⟨_, _, _, _, _, _, _, new, _⟩ := exists_of_mem_stretched mem
  exact ⟨_, mem, new⟩

/-! ### All rounds -/

/-- What holds of the widened branches in every round: they are short branches with a target,
and belong to every set that is enough. -/
structure Needed (b : MethodBody) (W : Finset InstrId) : Prop where
  branches : W ⊆ b.shortBranches
  least : ∀ V, b.Reaches V → W ⊆ V

/-- To begin with nothing is widened that need not be. -/
theorem needed_empty : Needed b ∅ where
  branches := Finset.empty_subset _
  least V _ := Finset.empty_subset V

/-- A round widens nothing that need not be. -/
theorem Needed.round (h : Needed b W) : Needed b (W ∪ b.stretched W) where
  branches := Finset.union_subset h.branches stretched_subset_shortBranches
  least V enough :=
    Finset.union_subset (h.least V enough) (stretched_subset (h.least V enough) enough)

/-- **Layout ends with a set of branches that is enough and needed**, after at most one round
for each of them. -/
theorem settle_widening (distinct : (b.instructions.map (·.id)).Nodup) (needed : Needed b W) :
    ∃ V, Needed b V ∧ b.Reaches V ∧ settle (b.widening W) = b.widening V ∧
      ∃ n, W.card + n ≤ V.card ∧ round^[n] (b.widening W) = b.widening V ∧
        ∀ m < n, isStable (round^[m] (b.widening W)) = false := by
  generalize start : b.widening W = lines
  fun_induction settle lines generalizing W with
  | case1 lines stable =>
    subst start
    exact ⟨W, needed, reaches_of_isStable distinct stable, rfl, 0, Nat.le_refl _, rfl,
      fun _ h => absurd h (Nat.not_lt_zero _)⟩
  | case2 lines unstable ih =>
    subst start
    obtain ⟨V, hV, enough, settled, n, few, rounds, before⟩ :=
      ih needed.round (round_widening distinct).symm
    have unstable := Bool.eq_false_iff.2 unstable
    refine ⟨V, hV, enough, settled, n + 1, ?_, rounds, fun m hm => ?_⟩
    · obtain ⟨id, far, new⟩ := stretched_nonempty unstable
      have more : W.card < (W ∪ b.stretched W).card :=
        Finset.card_lt_card ((Finset.ssubset_iff_of_subset Finset.subset_union_left).2
          ⟨id, Finset.mem_union_right W far, new⟩)
      omega
    · cases m with
      | zero => exact unstable
      | succ m => exact before m (Nat.lt_of_succ_lt_succ hm)

/-! ### The layout -/

/-- Of short branches those are widened whose numbers are in the set. -/
theorem op_lineIn_ne_iff (distinct : (b.instructions.map (·.id)).Nodup)
    (branches : W ⊆ b.shortBranches) {i : Instruction} (hi : i ∈ b.instructions) :
    (i.lineIn W).op ≠ i.opcode ↔ i.id ∈ W := by
  unfold Instruction.lineIn
  split
  · rename_i mem
    refine iff_of_true ?_ mem
    obtain ⟨t, ht, same⟩ := List.mem_map.1 (List.mem_toFinset.1 (branches mem))
    obtain ⟨ht, short⟩ := List.mem_filter.1 ht
    obtain rfl := List.inj_on_of_nodup_map distinct ht hi same
    obtain ⟨target, short⟩ := Option.isSome_iff_exists.1 short
    have kind := (Line.shortTarget?_eq_some.1 short).1
    intro unchanged
    have long := isShort_widened ⟨t.opcode, t⟩
    rw [Line.isShort, Line.widened] at long
    dsimp only [Line.widened] at unchanged kind long
    rw [unchanged, kind] at long
    cases long
  · rename_i other
    exact iff_of_false (fun h => h rfl) other

/-- A layout tells which branches were widened in it. -/
theorem widened_place (distinct : (b.instructions.map (·.id)).Nodup)
    (branches : W ⊆ b.shortBranches) (size : Nat) :
    (Layout.mk (place (b.widening W)) size).widened = W := by
  ext id
  rw [Layout.widened, List.mem_toFinset, List.mem_map]
  constructor
  · rintro ⟨p, hp, rfl⟩
    obtain ⟨hp, changed⟩ := List.mem_filter.1 hp
    obtain ⟨k, i, hi, rfl⟩ := mem_place_widening.1 hp
    have other : (i.lineIn W).op ≠ i.opcode := by simpa using changed
    simpa using (op_lineIn_ne_iff distinct branches (List.mem_of_getElem? hi)).1 other
  · intro mem
    obtain ⟨i, hi, rfl⟩ := List.mem_map.1 (List.mem_toFinset.1 (branches mem))
    obtain ⟨k, hk⟩ := List.mem_iff_getElem?.1 (List.mem_filter.1 hi).1
    have here := (mem_place_widening (W := W)).2 ⟨k, i, hk, rfl⟩
    have changed := (op_lineIn_ne_iff distinct branches (List.mem_filter.1 hi).1).2 mem
    exact ⟨_, List.mem_filter.2 ⟨here, by simpa using changed⟩, by simp⟩

end Layout

variable {σ : Type}

/-- **Layout widens as few branches as possible.**  There is a least set of branches that is
enough, and layout finds it in at most one round for each of its members.  Where the code then
has less than `2 ^ 32` bytes, the layout widens these branches and leaves every other operation
as it is, and each line stands behind all those before it.  No body is refused for the distance
of a short branch. -/
theorem Layout.ofBody_least {b : MethodBody} (distinct : (b.instructions.map (·.id)).Nodup)
    (named : ∀ i ∈ b.instructions, ∀ id, i.opcode.operandKind = .shortBranch →
      i.operand = .target id → id ∈ b.instructions.map (·.id)) :
    ∃ W, IsLeast {W | b.Reaches W} W ∧
      (∃ n ≤ W.card, round^[n] (draft b) = b.widening W ∧ isStable (b.widening W) = true ∧
        ∀ m < n, isStable (round^[m] (draft b)) = false) ∧
      (total (b.widening W) < 0x100000000 → ∃ layout, ofBody b = .ok layout ∧
        layout.widened = W ∧ layout.lines.map (·.toLine) = b.widening W ∧
        layout.size = total (b.widening W) ∧
        ∀ k p, layout.lines[k]? = some p → p.offset = total ((b.widening W).take k)) ∧
      ∀ (intern : String → StateM σ Nat) localSig s s',
        (b.encode intern localSig).run.run s ≠ (.error .shortBranchTooFar, s') := by
  obtain ⟨W, needed, enough, settled, n, few, rounds, before⟩ :=
    settle_widening distinct needed_empty
  rw [widening_empty] at settled rounds before
  refine ⟨W, ⟨enough, needed.least⟩, ⟨n, ?_, rounds, settled ▸ isStable_settle _, before⟩,
    fun small => ?_,
    fun intern localSig s s' => Encode.encode_ne_shortBranchTooFar intern localSig s s'⟩
  · rwa [Finset.card_empty, Nat.zero_add] at few
  · have layout : ofBody b = .ok ⟨place (b.widening W), total (b.widening W)⟩ :=
      ofBody_eq_ok.2 ⟨Encode.missingTarget?_eq_none named, settled ▸ small, by rw [settled]⟩
    refine ⟨_, layout, widened_place distinct needed.branches _, map_toLine_placeFrom 0 _, rfl,
      fun k p hp => ?_⟩
    rw [getElem?_place] at hp
    obtain ⟨l, _, rfl⟩ := Option.map_eq_some_iff.1 hp
    rfl

/-- Two branches over a jump table.  The second does not reach the return, and once it is
widened the first does not reach the end of the table either. -/
def MethodBody.jumpOverTable : MethodBody :=
  .ofCode [(.brS, .target ⟨3⟩), (.brS, .target ⟨6⟩), (.switch, .targets (.replicate 30 ⟨3⟩)),
    (.nop, .none), (.nop, .none), (.nop, .none), (.ret, .none)]

/-- The hypotheses are satisfiable: here the least set has both branches. -/
theorem Layout.ofBody_least_jumpOverTable : ∃ layout, ofBody .jumpOverTable = .ok layout ∧
    layout.widened = {⟨0⟩, ⟨1⟩} ∧
    IsLeast {W | MethodBody.jumpOverTable.Reaches W} {⟨0⟩, ⟨1⟩} := by
  have distinct : (MethodBody.jumpOverTable.instructions.map (·.id)).Nodup := by decide
  have named : ∀ i ∈ MethodBody.jumpOverTable.instructions, ∀ id ∈ i.operand.instrIds,
      id ∈ MethodBody.jumpOverTable.instructions.map (·.id) := by decide
  obtain ⟨W, least, -, fits, -⟩ := @ofBody_least Unit _ distinct fun i hi id _ operand =>
    named i hi id (by rw [operand]; exact List.mem_cons_self)
  have both : ∀ V ∈ ({⟨0⟩, ⟨1⟩} : Finset InstrId).powerset,
      MethodBody.jumpOverTable.Reaches V → V = {⟨0⟩, ⟨1⟩} := by decide
  have enough : MethodBody.jumpOverTable.Reaches {⟨0⟩, ⟨1⟩} := by decide
  obtain rfl := both W (Finset.mem_powerset.2 (least.2 enough)) least.1
  obtain ⟨layout, found, widened, -⟩ := fits (by decide)
  exact ⟨layout, found, widened, least⟩

end HookImage
