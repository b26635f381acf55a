/-
# When two signatures come to one

Replacing the names of a signature by others leaves its form, so what comes out is determined by
the signature if it is for every name (`MethodSig.Alike.eq_iff`): the same signature comes out of
two exactly if they have one form and the names in the same places of them come to the same.
-/

import HookImage.Proofs.Cil.Placement
import HookImage.Proofs.Signature.Alike
import Mathlib.Logic.Relation

namespace HookImage

variable {R R' : TypeHandle → TypeHandle → Prop}

namespace TypeSig

/-- Every type has its own form. -/
theorem alike_self {t : TypeSig} (same : ∀ h ∈ t.handles, R h h) : t.Alike R t := by
  induction t using TypeSig.induction with
  | generic isValue d ts ih =>
    rw [handles, List.forall_mem_cons] at same
    refine .generic _ same.1 (List.forall₂_same.2 fun t ht => ih t ht fun h hh => ?_)
    exact same.2 h (List.mem_flatMap.2 ⟨t, ht, hh⟩)
  | reference h => exact .reference (same h (by rw [handles]; exact List.mem_singleton_self h))
  | value h => exact .value (same h (by rw [handles]; exact List.mem_singleton_self h))
  | array e ih => exact .array (ih (by simpa only [handles] using same))
  | byRef e ih => exact .byRef (ih (by simpa only [handles] using same))
  | pointer e ih => exact .pointer (ih (by simpa only [handles] using same))
  | primitive p => exact .primitive p
  | typeParam n => exact .typeParam n
  | methodParam n => exact .methodParam n

namespace Alike

variable {t u v w : TypeSig}

/-- Types with the same names in the same places are equal. -/
theorem eq (h : t.Alike Eq v) : t = v := by
  induction t using TypeSig.induction generalizing v with
  | generic isValue d ts ih =>
    cases h with
    | generic _ hd hs =>
      have same := forall₂_of_mem hs fun t ht _ h => ih t ht h
      rw [List.forall₂_eq_eq_eq] at same
      rw [hd, same]
  | reference n => cases h with | reference hr => rw [hr]
  | value n => cases h with | value hr => rw [hr]
  | array e ih => cases h with | array he => rw [ih he]
  | byRef e ih => cases h with | byRef he => rw [ih he]
  | pointer e ih => cases h with | pointer he => rw [ih he]
  | primitive p => cases h; rfl
  | typeParam n => cases h; rfl
  | methodParam n => cases h; rfl

/-- Types that are alike are so the other way round. -/
theorem flip (h : t.Alike R v) : v.Alike (Function.swap R) t := by
  induction t using TypeSig.induction generalizing v with
  | generic isValue d ts ih =>
    cases h with
    | generic _ hd hs => exact .generic _ hd (forall₂_of_mem hs fun t ht _ h => ih t ht h).flip
  | reference n => cases h with | reference hr => exact .reference hr
  | value n => cases h with | value hr => exact .value hr
  | array e ih => cases h with | array he => exact .array (ih he)
  | byRef e ih => cases h with | byRef he => exact .byRef (ih he)
  | pointer e ih => cases h with | pointer he => exact .pointer (ih he)
  | primitive p => cases h; exact .primitive p
  | typeParam n => cases h; exact .typeParam n
  | methodParam n => cases h; exact .methodParam n

/-- Types that are alike step by step are so across both steps. -/
theorem comp (h : t.Alike R v) (h' : v.Alike R' w) : t.Alike (Relation.Comp R R') w := by
  induction t using TypeSig.induction generalizing v w with
  | generic isValue d ts ih =>
    cases h with
    | generic _ hd hs =>
      cases h' with
      | generic _ hd' hs' =>
        have through := forall₂_of_mem hs fun t ht v h w (h' : v.Alike R' w) => ih t ht h h'
        exact .generic _ ⟨_, hd, hd'⟩ (forall₂_trans (fun _ _ w step h' => step w h') through hs')
  | reference n =>
    cases h with | reference hr => cases h' with | reference hr' => exact .reference ⟨_, hr, hr'⟩
  | value n => cases h with | value hr => cases h' with | value hr' => exact .value ⟨_, hr, hr'⟩
  | array e ih => cases h with | array he => cases h' with | array he' => exact .array (ih he he')
  | byRef e ih => cases h with | byRef he => cases h' with | byRef he' => exact .byRef (ih he he')
  | pointer e ih =>
    cases h with | pointer he => cases h' with | pointer he' => exact .pointer (ih he he')
  | primitive p => cases h; cases h'; exact .primitive p
  | typeParam n => cases h; cases h'; exact .typeParam n
  | methodParam n => cases h; cases h'; exact .methodParam n

/-- **When two types come to one**: their names do. -/
theorem eq_iff (unique : Relator.RightUnique R) (h : t.Alike R v) (h' : u.Alike R w) :
    v = w ↔ t.Alike (Relation.Join R) u := by
  constructor
  · rintro rfl
    exact h.comp h'.flip
  · intro joined
    have through := h.flip.comp (joined.comp h')
    refine (through.mono fun x _ y => ?_).eq
    rintro ⟨a, ha, b, ⟨c, hac, hbc⟩, hb⟩
    exact (unique ha hac).trans (unique hbc hb)

end Alike
end TypeSig

/-- Every signature has its own form. -/
theorem MethodSig.alike_self {s : MethodSig} (same : ∀ h ∈ s.handles, R h h) : s.Alike R s := by
  rw [handles, List.forall_mem_append, List.forall_mem_flatMap] at same
  exact ⟨rfl, rfl, rfl, rfl, TypeSig.alike_self same.1,
    List.forall₂_same.2 fun t ht => TypeSig.alike_self (same.2 t ht)⟩

namespace MethodSig.Alike

variable {s s' t t' : MethodSig}

/-- Lists of imported types are equal exactly if what they were imported from can be joined, one by
one. -/
theorem params_eq_iff (unique : Relator.RightUnique R) {ts us vs ws : List TypeSig}
    (h : List.Forall₂ (TypeSig.Alike R) ts vs) (h' : List.Forall₂ (TypeSig.Alike R) us ws) :
    vs = ws ↔ List.Forall₂ (TypeSig.Alike (Relation.Join R)) ts us := by
  induction h generalizing us ws with
  | nil =>
    cases h' with
    | nil => exact iff_of_true rfl .nil
    | cons _ _ => exact iff_of_false (by simp) (by simp)
  | cons head _ ih =>
    cases h' with
    | nil => exact iff_of_false (by simp) (by simp)
    | cons head' rest' =>
      rw [List.cons_eq_cons, List.forall₂_cons, head.eq_iff unique head', ih rest']

/-- **When two signatures come to one**: they have one form, and their names come to the same. -/
theorem eq_iff (unique : Relator.RightUnique R) (h : s.Alike R s') (h' : t.Alike R t') :
    s' = t' ↔ s.Alike (Relation.Join R) t := by
  have params := params_eq_iff unique h.params h'.params
  have result := h.result.eq_iff unique h'.result
  constructor
  · rintro rfl
    exact {
      hasThis := h'.hasThis.symm.trans h.hasThis
      explicitThis := h'.explicitThis.symm.trans h.explicitThis
      convention := h'.convention.symm.trans h.convention
      genericCount := h'.genericCount.symm.trans h.genericCount
      result := result.1 rfl
      params := params.1 rfl }
  · intro joined
    have sameParams := params.2 joined.params
    have sameResult := result.2 joined.result
    have hasThis := h.hasThis.trans (joined.hasThis.symm.trans h'.hasThis.symm)
    have explicitThis := h.explicitThis.trans (joined.explicitThis.symm.trans h'.explicitThis.symm)
    have convention := h.convention.trans (joined.convention.symm.trans h'.convention.symm)
    have genericCount := h.genericCount.trans (joined.genericCount.symm.trans h'.genericCount.symm)
    cases s'
    cases t'
    cases hasThis
    cases explicitThis
    cases convention
    cases genericCount
    cases sameParams
    cases sameResult
    rfl

end MethodSig.Alike
end HookImage
