/-
# Depths along the flow of control

What the estimate of the stack depth comes to.  Control begins at the entry, at handlers and at
filters, and goes on along the branches of a body (`Reachable`).  If every way to an instruction
leads there with one depth (`AgreesOn`), it does not matter which way is looked at first: the
estimate is the greatest depth before or behind an instruction that control reaches
(`estimateMaxStack_eq`), as far as sixteen bits can say.

The search keeps that what it has seen is closed but for the arrivals that wait
(`Exploring`).  An arrival at a position that was seen waits for nothing any more
(`Exploring.skip`), and any other one lets its successors wait (`Exploring.visit`).
-/

import Mathlib.Order.Bounds.Basic
import Mathlib.Order.MinMax
import HookImage.Cil.StackDepth
import HookImage.Proofs.Cil.Placement

namespace HookImage

namespace Flow

/-- Whether control goes to the instructions that are named, with the stack as it is. -/
def branches : Flow → Bool
  | exit | throw | endHandler | leave => false
  | sequential | conditional | unconditional | call | switch => true

/-- Whether control goes to the next instruction. -/
def fallsThrough : Flow → Bool
  | exit | throw | endHandler | leave | unconditional => false
  | sequential | conditional | call | switch => true

/-- What falls through goes on in the method. -/
theorem branches_of_fallsThrough {flow : Flow} (h : flow.fallsThrough) : flow.branches := by
  cases flow <;> first | rfl | cases h

end Flow

namespace MethodBody

variable {b : MethodBody}

/-- Whether control goes on from position `p` to `q` with the stack that is there. -/
inductive Continues (b : MethodBody) (p q : Nat) : Prop where
  | branch {i : Instruction} {id : InstrId} (here : b.instructions[p]? = some i)
      (flow : i.opcode.flow.branches) (named : id ∈ i.operand.instrIds)
      (target : b.position? id = some q)
  | next {i : Instruction} (here : b.instructions[p]? = some i)
      (flow : i.opcode.flow.fallsThrough) (behind : q = p + 1) (inside : q < b.length)

/-- Whether control leaves a protected region from position `p` to `q`. -/
inductive Leaves (b : MethodBody) (p q : Nat) : Prop where
  | intro {i : Instruction} {id : InstrId} (here : b.instructions[p]? = some i)
      (flow : i.opcode.flow = .leave) (named : id ∈ i.operand.instrIds)
      (target : b.position? id = some q)

/-- The positions that control comes to. -/
inductive Reachable (b : MethodBody) : Nat → Prop where
  | entry : Reachable b 0
  | handler {r : Region} {p : Nat} (mem : r ∈ b.regions)
      (start : b.position? r.handlerStart = some p) : Reachable b p
  | filter {r : Region} {id : InstrId} {p : Nat} (mem : r ∈ b.regions)
      (present : r.filterStart = some id) (start : b.position? id = some p) : Reachable b p
  | continues {p q : Nat} (from_ : Reachable b p) (edge : b.Continues p q) : Reachable b q
  | leaves {p q : Nat} (from_ : Reachable b p) (edge : b.Leaves p q) : Reachable b q

/-- Whether each position that control comes to has one depth, `d`.  A typed catch and a filter
begin with the exception on the stack, and nothing else stays on it where a region is entered or
left. -/
structure AgreesOn (b : MethodBody) (d : Nat → Nat) : Prop where
  entry : d 0 = 0
  handler : ∀ {r p}, r ∈ b.regions → b.position? r.handlerStart = some p →
    d p = if r.isCatch || r.isFilter then 1 else 0
  filter : ∀ {r id p}, r ∈ b.regions → r.filterStart = some id → b.position? id = some p → d p = 1
  leaves : ∀ {p q}, b.Reachable p → b.Leaves p q → d q = 0
  continues : ∀ {p q i}, b.Reachable p → b.Continues p q → b.instructions[p]? = some i →
    i.stackEffect.1 ≤ d p ∧ d q = d p - i.stackEffect.1 + i.stackEffect.2

/-- The depths before and behind the instructions that control comes to. -/
def depths (b : MethodBody) (d : Nat → Nat) : Set Nat :=
  {n | ∃ p i, b.Reachable p ∧ b.instructions[p]? = some i ∧
    (n = d p ∨ n = d p - i.stackEffect.1 + i.stackEffect.2)}

/-! ### Edges -/

/-- Where control goes on from an instruction with the depth that it leaves: to the targets it
names, or to the next one. -/
theorem continues_iff {p q : Nat} {i : Instruction} (here : b.instructions[p]? = some i) :
    b.Continues p q ↔
      i.opcode.flow.branches ∧ (∃ id ∈ i.operand.instrIds, b.position? id = some q) ∨
        i.opcode.flow.fallsThrough ∧ q = p + 1 ∧ q < b.length := by
  constructor
  · rintro (⟨here', flow, named, target⟩ | ⟨here', flow, behind, inside⟩)
    · cases here.symm.trans here'
      exact .inl ⟨flow, _, named, target⟩
    · cases here.symm.trans here'
      exact .inr ⟨flow, behind, inside⟩
  · rintro (⟨flow, id, named, target⟩ | ⟨flow, behind, inside⟩)
    · exact .branch here flow named target
    · exact .next here flow behind inside

/-- Where control goes on from an instruction with an empty stack: to the targets of a leave. -/
theorem leaves_iff {p q : Nat} {i : Instruction} (here : b.instructions[p]? = some i) :
    b.Leaves p q ↔
      i.opcode.flow = .leave ∧ ∃ id ∈ i.operand.instrIds, b.position? id = some q := by
  constructor
  · rintro ⟨here', flow, named, target⟩
    cases here.symm.trans here'
    exact ⟨flow, _, named, target⟩
  · rintro ⟨flow, id, named, target⟩
    exact ⟨here, flow, named, target⟩

/-- Control reaches places in the body only. -/
theorem Reachable.lt_length (nonempty : b.isEmpty = false) {p : Nat} (h : b.Reachable p) :
    p < b.length := by
  cases h with
  | entry => exact List.length_pos_iff.2 (List.isEmpty_eq_false_iff.1 nonempty)
  | handler _ start => exact position?_lt start
  | filter _ _ start => exact position?_lt start
  | continues _ edge =>
    cases edge with
    | branch _ _ _ target => exact position?_lt target
    | next _ _ _ inside => exact inside
  | leaves _ edge =>
    obtain ⟨_, _, _, target⟩ := edge
    exact position?_lt target

end MethodBody

namespace StackDepth

open MethodBody

variable {b : MethodBody} {d : Nat → Nat}

/-! ### Arrivals -/

/-- An arrival with a given depth is at the given place. -/
theorem map_arrival_eq_some {start : Option Nat} {depth : Nat} {a : Arrival} :
    start.map (Arrival.mk · depth) = some a ↔ start = some a.position ∧ a.depth = depth := by
  obtain ⟨position, depth'⟩ := a
  simp [eq_comm]

/-- Control starts at the first instruction with an empty stack, at handlers with the caught object
or without one, and at filters with the object. -/
theorem mem_seeds {a : Arrival} : a ∈ seeds b ↔ a = ⟨0, 0⟩ ∨ ∃ r ∈ b.regions,
    b.position? r.handlerStart = some a.position ∧
        a.depth = (if r.isCatch || r.isFilter then 1 else 0) ∨
      (∃ id, r.filterStart = some id ∧ b.position? id = some a.position) ∧ a.depth = 1 := by
  simp only [seeds, List.mem_cons, List.mem_flatMap, List.mem_append, Option.mem_toList,
    map_arrival_eq_some, Option.bind_eq_some_iff]

/-- Control begins at the seeds, with the depths of their positions. -/
theorem arrives_of_mem_seeds (agrees : b.AgreesOn d) {a : Arrival} (h : a ∈ seeds b) :
    b.Reachable a.position ∧ a.depth = d a.position := by
  rcases mem_seeds.1 h with rfl | ⟨r, hr, ⟨start, depth⟩ | ⟨⟨id, present, start⟩, depth⟩⟩
  · exact ⟨.entry, agrees.entry.symm⟩
  · exact ⟨.handler hr start, depth.trans (agrees.handler hr start).symm⟩
  · exact ⟨.filter hr present start, depth.trans (agrees.filter hr present start).symm⟩

/-- The arrivals at the instructions that are named. -/
theorem mem_filterMap_arrival {ids : List InstrId} {depth : Nat} {a : Arrival} :
    a ∈ ids.filterMap (fun id => ((Code.ofBody b).position? id).map (Arrival.mk · depth)) ↔
      (∃ id ∈ ids, b.position? id = some a.position) ∧ a.depth = depth := by
  simp only [List.mem_filterMap, map_arrival_eq_some, Code.position?_ofBody]
  exact ⟨fun ⟨id, named, target, depth⟩ => ⟨⟨id, named, target⟩, depth⟩,
    fun ⟨⟨id, named, target⟩, depth⟩ => ⟨id, named, target, depth⟩⟩

/-- The next instruction is found by its number. -/
theorem exists_next_iff (distinct : (b.instructions.map (·.id)).Nodup) {p q : Nat} :
    (∃ id ∈ ((Code.ofBody b).instructions[p + 1]?.map (·.id)).toList, b.position? id = some q) ↔
      q = p + 1 ∧ q < b.length := by
  simp only [Code.ofBody, List.getElem?_toArray, Option.mem_toList, Option.map_eq_some_iff]
  constructor
  · rintro ⟨_, ⟨i, here, rfl⟩, target⟩
    have own := (position?_eq_some distinct).2 ⟨i, here, rfl⟩
    exact ⟨Option.some.inj (target.symm.trans own), position?_lt target⟩
  · rintro ⟨rfl, inside⟩
    have here := List.getElem?_eq_getElem inside
    exact ⟨_, ⟨_, here, rfl⟩, (position?_eq_some distinct).2 ⟨_, here, rfl⟩⟩

/-- What follows an instruction: where control goes on with the stack behind it, and where it
goes with none. -/
theorem mem_successors (distinct : (b.instructions.map (·.id)).Nodup) {p depth : Nat}
    {i : Instruction} (here : b.instructions[p]? = some i) {a : Arrival} :
    a ∈ successors (.ofBody b) p i depth ↔
      b.Continues p a.position ∧ a.depth = after i depth ∨
        b.Leaves p a.position ∧ a.depth = 0 := by
  rw [continues_iff here, leaves_iff here]
  unfold successors
  cases i.opcode.flow <;>
    simp only [mem_filterMap_arrival, List.mem_append, or_and_right, exists_or,
      exists_next_iff distinct] <;>
    simp [Flow.branches, Flow.fallsThrough]

/-- What follows an instruction is reached, with the depth of its position. -/
theorem arrives_of_mem_successors (agrees : b.AgreesOn d)
    (distinct : (b.instructions.map (·.id)).Nodup) {p : Nat} {i : Instruction}
    (reachable : b.Reachable p) (here : b.instructions[p]? = some i) {a : Arrival}
    (h : a ∈ successors (.ofBody b) p i (d p)) :
    b.Reachable a.position ∧ a.depth = d a.position := by
  rcases (mem_successors distinct here).1 h with ⟨edge, depth⟩ | ⟨edge, depth⟩
  · exact ⟨reachable.continues edge,
      depth.trans (agrees.continues reachable edge here).2.symm⟩
  · exact ⟨reachable.leaves edge, depth.trans (agrees.leaves reachable edge).symm⟩

/-- Every edge leads to what follows. -/
theorem exists_mem_successors (distinct : (b.instructions.map (·.id)).Nodup) {p q : Nat}
    {i : Instruction} (here : b.instructions[p]? = some i)
    (edge : b.Continues p q ∨ b.Leaves p q) (depth : Nat) :
    ∃ a ∈ successors (.ofBody b) p i depth, a.position = q := by
  rcases edge with edge | edge
  · exact ⟨⟨q, after i depth⟩, (mem_successors distinct here).2 (.inl ⟨edge, rfl⟩), rfl⟩
  · exact ⟨⟨q, 0⟩, (mem_successors distinct here).2 (.inr ⟨edge, rfl⟩), rfl⟩

/-- Depths can be checked line by line, whether control comes there or not. -/
theorem agreesOn_of_lines (begins : ∀ a ∈ seeds b, a.depth = d a.position)
    (follows : ∀ x ∈ b.instructions.zipIdx,
      (x.1.opcode.flow.branches → x.1.stackEffect.1 ≤ d x.2) ∧
      (x.1.opcode.flow.fallsThrough → x.2 + 1 < b.length →
        d (x.2 + 1) = after x.1 (d x.2)) ∧
      ∀ id ∈ x.1.operand.instrIds, ∀ q ∈ b.position? id,
        (x.1.opcode.flow.branches → d q = after x.1 (d x.2)) ∧
          (x.1.opcode.flow = .leave → d q = 0)) : b.AgreesOn d where
  entry := (begins ⟨0, 0⟩ (mem_seeds.2 (.inl rfl))).symm
  handler {r p} mem start :=
    (begins ⟨p, _⟩ (mem_seeds.2 (.inr ⟨r, mem, .inl ⟨start, rfl⟩⟩))).symm
  filter {r id p} mem present start :=
    (begins ⟨p, 1⟩ (mem_seeds.2 (.inr ⟨r, mem, .inr ⟨⟨id, present, start⟩, rfl⟩⟩))).symm
  leaves {p q} _ edge := by
    obtain ⟨here, flow, named, target⟩ := edge
    obtain ⟨-, -, named'⟩ := follows (_, p) (List.mem_zipIdx_iff_getElem?.2 here)
    exact (named' _ named q target).2 flow
  continues {p q i} _ edge here := by
    obtain ⟨pops, next, named'⟩ := follows (i, p) (List.mem_zipIdx_iff_getElem?.2 here)
    rcases (continues_iff here).1 edge with ⟨flow, id, named, target⟩ | ⟨flow, rfl, inside⟩
    · exact ⟨pops flow, (named' id named q target).1 flow⟩
    · exact ⟨pops (Flow.branches_of_fallsThrough flow), next flow inside⟩

/-! ### The search -/

/-- Whether a position was seen or waits. -/
def Covered (unseen : Array Bool) (waiting : List Arrival) (p : Nat) : Prop :=
  unseen[p]? = some false ∨ ∃ a ∈ waiting, a.position = p

/-- What the search keeps. -/
structure Exploring (b : MethodBody) (d : Nat → Nat) (unseen : Array Bool) (deepest : Nat)
    (waiting : List Arrival) : Prop where
  size : unseen.size = b.length
  arrives : ∀ a ∈ waiting, b.Reachable a.position ∧ a.depth = d a.position
  /-- Where control begins is covered, and so is what follows on what was seen. -/
  begins : ∀ a ∈ seeds b, Covered unseen waiting a.position
  follows : ∀ p q, unseen[p]? = some false → b.Continues p q ∨ b.Leaves p q →
    Covered unseen waiting q
  /-- The depths of what was seen are not greater. -/
  bounds : ∀ p i, unseen[p]? = some false → b.instructions[p]? = some i →
    d p ≤ deepest ∧ after i (d p) ≤ deepest
  attains : deepest = 0 ∨ deepest ∈ b.depths d

/-- A place counts as seen once it is marked, and the marks there were stay. -/
theorem getElem?_set_seen {unseen : Array Bool} {k p : Nat} (lt : k < unseen.size) :
    (unseen.set k false)[p]? = some false ↔ p = k ∨ unseen[p]? = some false := by
  rw [Array.getElem?_set]
  split
  · rename_i same
    exact ⟨fun _ => .inl same.symm, fun _ => rfl⟩
  · rename_i other
    rw [or_iff_right (Ne.symm other)]

/-- What the next arrival and the others cover is its own place or covered by the others. -/
theorem Covered.of_cons {unseen : Array Bool} {waiting : List Arrival} {a : Arrival} {p : Nat}
    (h : Covered unseen (a :: waiting) p) : p = a.position ∨ Covered unseen waiting p := by
  rcases h with seen | ⟨a', mem, rfl⟩
  · exact .inr (.inl seen)
  · rcases List.mem_cons.1 mem with rfl | mem
    · exact .inl rfl
    · exact .inr (.inr ⟨a', mem, rfl⟩)

/-- With more places seen and more arrivals waiting no less is covered. -/
theorem Covered.mono {unseen unseen' : Array Bool} {waiting waiting' : List Arrival} {p : Nat}
    (h : Covered unseen waiting p)
    (seen : ∀ p : Nat, unseen[p]? = some false → unseen'[p]? = some false)
    (waits : ∀ a ∈ waiting, a ∈ waiting') : Covered unseen' waiting' p :=
  h.imp (seen p) fun ⟨a, mem, same⟩ => ⟨a, waits a mem, same⟩

namespace Exploring

variable {unseen : Array Bool} {deepest : Nat} {waiting waiting' : List Arrival} {a : Arrival}

/-- The order of those that wait does not matter. -/
theorem congr (h : Exploring b d unseen deepest waiting) (same : ∀ a, a ∈ waiting' ↔ a ∈ waiting) :
    Exploring b d unseen deepest waiting' where
  size := h.size
  arrives a mem := h.arrives a ((same a).1 mem)
  begins a mem := (h.begins a mem).mono (fun _ h => h) fun a => (same a).2
  follows p q seen edge := (h.follows p q seen edge).mono (fun _ h => h) fun a => (same a).2
  bounds := h.bounds
  attains := h.attains

/-- An arrival at a position that was seen waits for nothing. -/
theorem skip (h : Exploring b d unseen deepest (a :: waiting))
    (seen : unseen[a.position]? = some false) : Exploring b d unseen deepest waiting where
  size := h.size
  arrives a mem := h.arrives a (List.mem_cons_of_mem _ mem)
  begins a mem := (h.begins a mem).of_cons.elim (fun same => .inl (same ▸ seen)) id
  follows p q hp edge := (h.follows p q hp edge).of_cons.elim (fun same => .inl (same ▸ seen)) id
  bounds := h.bounds
  attains := h.attains

/-- The greatest depth with those of one more instruction. -/
theorem attains_visit (h : Exploring b d unseen deepest (a :: waiting)) {i : Instruction}
    (here : b.instructions[a.position]? = some i) :
    max deepest (max a.depth (after i a.depth)) = 0 ∨
      max deepest (max a.depth (after i a.depth)) ∈ b.depths d := by
  obtain ⟨reachable, depth⟩ := h.arrives a List.mem_cons_self
  have before : a.depth ∈ b.depths d := ⟨_, i, reachable, here, .inl depth⟩
  have behind : after i a.depth ∈ b.depths d :=
    ⟨_, i, reachable, here, .inr (by rw [depth]; rfl)⟩
  rcases max_choice deepest (max a.depth (after i a.depth)) with same | same
  · rw [same]
    exact h.attains
  · rw [same]
    rcases max_choice a.depth (after i a.depth) with same | same
    · exact .inr (by rw [same]; exact before)
    · exact .inr (by rw [same]; exact behind)

/-- An instruction that was not seen is looked at, and what follows it waits. -/
theorem visit (agrees : b.AgreesOn d) (distinct : (b.instructions.map (·.id)).Nodup)
    (h : Exploring b d unseen deepest (a :: waiting)) (lt : a.position < unseen.size)
    {i : Instruction} (here : b.instructions[a.position]? = some i) :
    Exploring b d (unseen.set a.position false) (max deepest (max a.depth (after i a.depth)))
      (waiting ++ successors (.ofBody b) a.position i a.depth) := by
  obtain ⟨reachable, depth⟩ := h.arrives a List.mem_cons_self
  have covered {p : Nat} (h : Covered unseen (a :: waiting) p) :
      Covered (unseen.set a.position false)
        (waiting ++ successors (.ofBody b) a.position i a.depth) p := by
    rcases h.of_cons with rfl | h
    · exact .inl ((getElem?_set_seen lt).2 (.inl rfl))
    · exact h.mono (fun p seen => (getElem?_set_seen lt).2 (.inr seen))
        fun a => List.mem_append_left _
  constructor
  case size => rw [Array.size_set, h.size]
  case arrives =>
    intro a' mem
    rcases List.mem_append.1 mem with mem | mem
    · exact h.arrives a' (List.mem_cons_of_mem _ mem)
    · exact arrives_of_mem_successors agrees distinct reachable here (depth ▸ mem)
  case begins => exact fun a' mem => covered (h.begins a' mem)
  case follows =>
    intro p q seen edge
    rcases (getElem?_set_seen lt).1 seen with rfl | seen
    · obtain ⟨a', mem, same⟩ := exists_mem_successors distinct here edge a.depth
      exact .inr ⟨a', List.mem_append_right _ mem, same⟩
    · exact covered (h.follows p q seen edge)
  case bounds =>
    intro p i' seen here'
    rcases (getElem?_set_seen lt).1 seen with rfl | seen
    · cases here.symm.trans here'
      rw [← depth]
      omega
    · have := h.bounds p i' seen here'
      omega
  case attains => exact h.attains_visit here

/-- Where nothing waits all that control comes to was seen. -/
theorem seen_of_reachable (h : Exploring b d unseen deepest []) {p : Nat} (hp : b.Reachable p) :
    unseen[p]? = some false := by
  have seen {p : Nat} (covered : Covered unseen [] p) : unseen[p]? = some false :=
    covered.resolve_right fun ⟨_, mem, _⟩ => nomatch mem
  induction hp with
  | entry => exact seen (h.begins ⟨0, 0⟩ (mem_seeds.2 (.inl rfl)))
  | @handler r p mem start =>
    exact seen (h.begins ⟨p, _⟩ (mem_seeds.2 (.inr ⟨r, mem, .inl ⟨start, rfl⟩⟩)))
  | @filter r id p mem present start =>
    exact seen (h.begins ⟨p, _⟩
      (mem_seeds.2 (.inr ⟨r, mem, .inr ⟨⟨id, present, start⟩, rfl⟩⟩)))
  | continues _ edge ih => exact seen (h.follows _ _ ih (.inl edge))
  | leaves _ edge ih => exact seen (h.follows _ _ ih (.inr edge))

/-- **The search ends with the greatest depth** that control comes to. -/
theorem isGreatest_explore (nonempty : b.isEmpty = false) (agrees : b.AgreesOn d)
    (distinct : (b.instructions.map (·.id)).Nodup) {now later : List Arrival}
    (h : Exploring b d unseen deepest (now ++ later)) :
    IsGreatest (b.depths d) (explore (.ofBody b) unseen deepest now later) := by
  fun_induction explore (.ofBody b) unseen deepest now later with
  | case1 unseen deepest =>
    refine ⟨h.attains.elim (fun zero => ?_) id, ?_⟩
    · have lt := Reachable.lt_length nonempty .entry
      exact ⟨0, _, .entry, List.getElem?_eq_getElem lt, .inl (zero.trans agrees.entry.symm)⟩
    · rintro n ⟨p, i, reachable, here, depth⟩
      have bounds := h.bounds p i (h.seen_of_reachable reachable) here
      rcases depth with rfl | rfl
      · exact bounds.1
      · exact bounds.2
  | case2 unseen deepest a later ih =>
    exact ih (h.congr fun a' => by rw [List.append_nil, List.mem_reverse, List.nil_append])
  | case3 unseen deepest a now later seen i here lt ih =>
    rw [Code.ofBody, List.getElem?_toArray] at here
    have h : Exploring b d unseen deepest (a :: (now ++ later)) := h
    refine ih ((h.visit agrees distinct lt here).congr fun a' => ?_)
    simp only [List.mem_append, List.mem_reverse]
    rw [or_assoc, or_comm (b := a' ∈ later)]
  | case4 unseen deepest a now later seen none =>
    rw [Code.ofBody, List.getElem?_toArray, List.getElem?_eq_none_iff] at none
    have lt := (h.arrives a List.mem_cons_self).1.lt_length nonempty
    exact absurd lt (Nat.not_lt.2 none)
  | case5 unseen deepest a now later unseen' ih =>
    have lt := (h.arrives a List.mem_cons_self).1.lt_length nonempty
    rw [← h.size] at lt
    refine ih (h.skip ?_)
    rw [Array.getElem?_eq_getElem lt, Bool.eq_false_iff.2 fun seen => unseen' ⟨lt, seen⟩]

end Exploring

/-- Before the search starts all that control begins with waits. -/
theorem exploring_seeds (agrees : b.AgreesOn d) :
    Exploring b d (Array.replicate b.length true) 0 (seeds b) := by
  have none {p : Nat} : (Array.replicate b.length true)[p]? ≠ some false := by
    rw [Array.getElem?_replicate]
    split <;> simp
  exact {
    size := Array.size_replicate
    arrives := fun a mem => arrives_of_mem_seeds agrees mem
    begins := fun a mem => .inr ⟨a, mem, rfl⟩
    follows := fun p q seen => absurd seen none
    bounds := fun p i seen => absurd seen none
    attains := .inl rfl }

end StackDepth

/-- **The estimate is the greatest depth**, as far as sixteen bits can say, of a body in which
every way to an instruction leads there with one depth.  It is the greatest before or behind an
instruction that control comes to.  A depth does not go below zero, which shows only where
nothing follows the instruction. -/
theorem MethodBody.estimateMaxStack_eq {b : MethodBody} {d : Nat → Nat}
    (nonempty : b.isEmpty = false) (distinct : (b.instructions.map (·.id)).Nodup)
    (agrees : b.AgreesOn d) :
    ∃ deepest, IsGreatest (b.depths d) deepest ∧
      b.estimateMaxStack.toNat = min 65535 deepest := by
  have start : StackDepth.Exploring b d (Array.replicate b.length true) 0
      (StackDepth.seeds b ++ []) :=
    (StackDepth.exploring_seeds agrees).congr fun a => by rw [List.append_nil]
  refine ⟨_, start.isGreatest_explore nonempty agrees distinct, ?_⟩
  rw [estimateMaxStack, if_neg (by rw [nonempty]; exact Bool.false_ne_true)]
  show (UInt16.ofNat _).toNat = _
  rw [UInt16.toNat_ofNat', Nat.mod_eq_of_lt (Nat.lt_of_le_of_lt (Nat.min_le_right ..) (by decide)),
    Nat.min_comm]

/-- A loop that waits under a handler that swallows what is thrown. -/
def MethodBody.swallowingLoop : MethodBody :=
  { MethodBody.ofCode [(.ldarg0, .none), (.brtrueS, .target ⟨0⟩), (.leaveS, .target ⟨5⟩),
      (.pop, .none), (.leaveS, .target ⟨5⟩), (.ret, .none)] with
    regions := [.catching ⟨0⟩ (some ⟨3⟩) ⟨3⟩ (some ⟨5⟩) (.primitive .object)] }

/-- The hypotheses are satisfiable: one value before the branch, and one where what is thrown
is caught. -/
theorem MethodBody.estimateMaxStack_eq_swallowingLoop :
    ∃ deepest, IsGreatest (swallowingLoop.depths fun p => if p = 1 ∨ p = 3 then 1 else 0) deepest ∧
      swallowingLoop.estimateMaxStack.toNat = min 65535 deepest := by
  exact estimateMaxStack_eq rfl (by decide)
    (StackDepth.agreesOn_of_lines (by decide) (by decide))

end HookImage
