/-
# Stable orders

A list is put in order by a key if the keys ascend and the members of one key keep the order that
they had (`StableOrder`).  There is one such order (`StableOrder.eq`): the members of the lowest key,
behind them those of the next one, and so on (`StableOrder.eq_flatMap`).  A new member that is put
behind all members of its own key and of lower ones keeps a list in order, as the last one that came
(`StableOrder.insert`).
-/

import Mathlib

namespace HookImage

variable {α κ : Type} [LinearOrder κ] {key : α → κ} {xs sorted sorted' : List α}

/-- Whether a list has the members of another one by ascending key, and those of one key in the
order of the other list. -/
structure StableOrder (key : α → κ) (xs sorted : List α) : Prop where
  perm : sorted.Perm xs
  ascending : sorted.Pairwise fun a b => key a ≤ key b
  stable : ∀ k, (sorted.filter fun a => key a = k) = xs.filter fun a => key a = k

/-! ### One order -/

/-- Lists with the same members of each key have the same members. -/
theorem mem_of_filter_key
    (same : ∀ k, (sorted.filter fun a => key a = k) = sorted'.filter fun a => key a = k)
    {a : α} (h : a ∈ sorted) : a ∈ sorted' := by
  have here : a ∈ sorted.filter fun b => key b = key a :=
    List.mem_filter.2 ⟨h, decide_eq_true rfl⟩
  rw [same] at here
  exact (List.mem_filter.1 here).1

/-- Ascending lists with the same members of each key, in the same order, are the same. -/
theorem eq_of_filter_key (ascending : sorted.Pairwise fun a b => key a ≤ key b)
    (ascending' : sorted'.Pairwise fun a b => key a ≤ key b)
    (same : ∀ k, (sorted.filter fun a => key a = k) = sorted'.filter fun a => key a = k) :
    sorted = sorted' := by
  induction sorted generalizing sorted' with
  | nil =>
    cases sorted' with
    | nil => rfl
    | cons b bs =>
      exact absurd (mem_of_filter_key (fun k => (same k).symm) List.mem_cons_self) List.not_mem_nil
  | cons a as ih =>
    obtain ⟨least, ascending⟩ := List.pairwise_cons.1 ascending
    cases sorted' with
    | nil => exact absurd (mem_of_filter_key same List.mem_cons_self) List.not_mem_nil
    | cons b bs =>
      obtain ⟨least', others⟩ := List.pairwise_cons.1 ascending'
      -- Each of the two first ones stands in both lists, so neither has the lower key.
      have above : key a ≤ key b := by
        have both : b ∈ a :: as := mem_of_filter_key (fun k => (same k).symm) List.mem_cons_self
        rcases List.mem_cons.1 both with rfl | later
        · exact le_rfl
        · exact least b later
      have below : key b ≤ key a := by
        have both : a ∈ b :: bs := mem_of_filter_key same List.mem_cons_self
        rcases List.mem_cons.1 both with rfl | later
        · exact le_rfl
        · exact least' a later
      have level : key b = key a := le_antisymm below above
      have first := same (key a)
      rw [List.filter_cons, List.filter_cons, if_pos (decide_eq_true rfl),
        if_pos (decide_eq_true level)] at first
      obtain ⟨rfl, -⟩ := List.cons.inj first
      refine congrArg (a :: ·) (ih ascending others fun k => ?_)
      have next := same k
      rw [List.filter_cons, List.filter_cons] at next
      split at next
      · exact (List.cons.inj next).2
      · exact next

namespace StableOrder

/-- **There is one stable order.** -/
theorem eq (h : StableOrder key xs sorted) (h' : StableOrder key xs sorted') : sorted = sorted' :=
  eq_of_filter_key h.ascending h'.ascending fun k => (h.stable k).trans (h'.stable k).symm

/-- The members of some keys, one key after the other, have those of each of these keys. -/
theorem filter_flatMap_filter {keys : List κ} (distinct : keys.Nodup) (xs : List α) (k : κ) :
    ((keys.flatMap fun l => xs.filter fun a => key a = l).filter fun a => key a = k) =
      if k ∈ keys then xs.filter fun a => key a = k else [] := by
  induction keys with
  | nil => rfl
  | cons l keys ih =>
    obtain ⟨new, distinct⟩ := List.nodup_cons.1 distinct
    rw [List.flatMap_cons, List.filter_append, ih distinct, List.filter_filter]
    by_cases same : k = l
    · subst same
      simp [new]
    · have none : (xs.filter fun a => decide (key a = k) && decide (key a = l)) = [] :=
        List.filter_eq_nil_iff.2 fun a _ both => by
          rw [Bool.and_eq_true, decide_eq_true_eq, decide_eq_true_eq] at both
          exact same (both.1.symm.trans both.2)
      rw [none, List.nil_append]
      simp [same]

/-- **A stable order has the members of each key one after the other.** -/
theorem eq_flatMap (h : StableOrder key xs sorted) {keys : List κ}
    (ascending : keys.Pairwise (· < ·)) (all : ∀ a ∈ xs, key a ∈ keys) :
    sorted = keys.flatMap fun k => xs.filter fun a => key a = k := by
  refine eq_of_filter_key h.ascending ?_ fun k => ?_
  · refine List.pairwise_flatMap.2 ⟨fun k _ => ?_, ascending.imp fun before a ha b hb => ?_⟩
    · refine List.pairwise_of_forall_mem_list fun a ha b hb => ?_
      rw [of_decide_eq_true (List.mem_filter.1 ha).2, of_decide_eq_true (List.mem_filter.1 hb).2]
    · rw [of_decide_eq_true (List.mem_filter.1 ha).2, of_decide_eq_true (List.mem_filter.1 hb).2]
      exact before.le
  · rw [h.stable, filter_flatMap_filter (ascending.imp ne_of_lt)]
    split
    · rfl
    · rename_i other
      exact List.filter_eq_nil_iff.2 fun a ha same =>
        other (of_decide_eq_true same ▸ all a ha)

/-! ### One more member -/

/-- The empty list is in order. -/
theorem nil : StableOrder key ([] : List α) [] where
  perm := .refl _
  ascending := .nil
  stable _ := rfl

/-- In an ascending list nothing behind the members up to a key has this key or a lower one. -/
theorem lt_of_mem_dropWhile {k : κ} (ascending : sorted.Pairwise fun a b => key a ≤ key b) {b : α}
    (h : b ∈ sorted.dropWhile fun a => key a ≤ k) : k < key b := by
  induction sorted with
  | nil => cases h
  | cons a as ih =>
    obtain ⟨least, ascending⟩ := List.pairwise_cons.1 ascending
    by_cases low : key a ≤ k
    · rw [List.dropWhile_cons, if_pos (decide_eq_true low)] at h
      exact ih ascending h
    · rw [List.dropWhile_cons, if_neg (by simpa using low)] at h
      rcases List.mem_cons.1 h with rfl | later
      · exact not_le.1 low
      · exact (not_le.1 low).trans_le (least b later)

/-- **A new member goes behind those of its key and of lower keys.** -/
theorem insert (h : StableOrder key xs sorted) (x : α) :
    StableOrder key (xs ++ [x])
      (sorted.takeWhile (key · ≤ key x) ++ x :: sorted.dropWhile (key · ≤ key x)) := by
  have upTo : ∀ a ∈ sorted.takeWhile (key · ≤ key x), key a ≤ key x := by
    intro a ha
    have low := List.mem_takeWhile_imp ha
    exact of_decide_eq_true low
  have beyond : ∀ b ∈ sorted.dropWhile (key · ≤ key x), key x < key b := fun b hb =>
    lt_of_mem_dropWhile h.ascending hb
  have split : sorted.takeWhile (key · ≤ key x) ++ sorted.dropWhile (key · ≤ key x) = sorted :=
    List.takeWhile_append_dropWhile
  constructor
  case perm =>
    refine List.perm_middle.trans ?_
    rw [split]
    exact (h.perm.cons x).trans (List.perm_append_singleton x xs).symm
  case ascending =>
    have ascending := h.ascending
    rw [← split, List.pairwise_append] at ascending
    obtain ⟨front, back, across⟩ := ascending
    rw [List.pairwise_append, List.pairwise_cons]
    refine ⟨front, ⟨fun b hb => (beyond b hb).le, back⟩, fun a ha b hb => ?_⟩
    rcases List.mem_cons.1 hb with rfl | behind
    · exact upTo a ha
    · exact across a ha b behind
  case stable =>
    intro k
    have parts := congrArg (List.filter fun a => key a = k) split
    rw [List.filter_append] at parts
    rw [List.filter_append, List.filter_append, ← h.stable k, ← parts, List.filter_cons,
      List.filter_cons, List.filter_nil]
    by_cases own : key x = k
    · -- Behind the new member there is none of its key.
      have none : ((sorted.dropWhile (key · ≤ key x)).filter fun a => key a = k) = [] :=
        List.filter_eq_nil_iff.2 fun b hb same =>
          (beyond b hb).ne (own.trans (of_decide_eq_true same).symm)
      rw [none, List.append_nil, if_pos (decide_eq_true own)]
    · have other : ¬decide (key x = k) = true := mt of_decide_eq_true own
      rw [if_neg other, if_neg other, List.append_nil]

end StableOrder
end HookImage
