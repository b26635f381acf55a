/-
# Types that differ in their names alone

Importing a type replaces what names a type and leaves the rest of it as it is
(`TypeSig.Alike`).  Two alike types have their names in the same places (`Alike.handles`),
and their lists have the same lengths (`Alike.lists`).
-/

import HookImage.Proofs.Signature.Written

namespace HookImage

/-- Induction on a type: an applied type has all of its arguments below it. -/
@[elab_as_elim]
theorem TypeSig.induction {motive : TypeSig → Prop} (primitive : ∀ p, motive (.primitive p))
    (reference : ∀ h, motive (.reference h)) (value : ∀ h, motive (.value h))
    (generic : ∀ isValue definition arguments, (∀ t ∈ arguments, motive t) →
      motive (.generic isValue definition arguments))
    (array : ∀ e, motive e → motive (.array e)) (byRef : ∀ e, motive e → motive (.byRef e))
    (pointer : ∀ e, motive e → motive (.pointer e)) (typeParam : ∀ n, motive (.typeParam n))
    (methodParam : ∀ n, motive (.methodParam n)) (t : TypeSig) : motive t :=
  @TypeSig.rec motive (fun ts => ∀ t ∈ ts, motive t) primitive reference value generic array byRef
    pointer typeParam methodParam (fun _ h => (nomatch h))
    (fun _ _ head tail => List.forall_mem_cons.2 ⟨head, tail⟩) t

/-- The numbers of the generic parameters in a type. -/
def TypeSig.numbers : TypeSig → List UInt32
  | generic _ _ arguments => arguments.flatMap numbers
  | array e | byRef e | pointer e => e.numbers
  | typeParam n | methodParam n => [n]
  | primitive _ | reference _ | value _ => []

/-- Whether one type is another with its names replaced by such that `R` relates to them. -/
inductive TypeSig.Alike (R : TypeHandle → TypeHandle → Prop) : TypeSig → TypeSig → Prop
  | primitive (p : PrimitiveType) : Alike R (.primitive p) (.primitive p)
  | reference {h h' : TypeHandle} : R h h' → Alike R (.reference h) (.reference h')
  | value {h h' : TypeHandle} : R h h' → Alike R (.value h) (.value h')
  | generic (isValue : Bool) {d d' : TypeHandle} {ts ts' : List TypeSig} : R d d' →
      List.Forall₂ (Alike R) ts ts' → Alike R (.generic isValue d ts) (.generic isValue d' ts')
  | array {e e' : TypeSig} : Alike R e e' → Alike R (.array e) (.array e')
  | byRef {e e' : TypeSig} : Alike R e e' → Alike R (.byRef e) (.byRef e')
  | pointer {e e' : TypeSig} : Alike R e e' → Alike R (.pointer e) (.pointer e')
  | typeParam (n : UInt32) : Alike R (.typeParam n) (.typeParam n)
  | methodParam (n : UInt32) : Alike R (.methodParam n) (.methodParam n)

variable {R R' : TypeHandle → TypeHandle → Prop}

/-- Related members stay related by whatever the members of the first list allow. -/
theorem forall₂_of_mem {α β : Type} {p q : α → β → Prop} {xs : List α} {ys : List β}
    (h : List.Forall₂ p xs ys) (imp : ∀ x ∈ xs, ∀ y, p x y → q x y) : List.Forall₂ q xs ys := by
  induction h with
  | nil => exact .nil
  | cons hp _ ih =>
    rw [List.forall_mem_cons] at imp
    exact .cons (imp.1 _ hp) (ih imp.2)

/-- Every member of the second of two related lists has a partner in the first. -/
theorem exists_mem_of_forall₂ {α β : Type} {p : α → β → Prop} {xs : List α} {ys : List β}
    (h : List.Forall₂ p xs ys) {y : β} (hy : y ∈ ys) : ∃ x ∈ xs, p x y := by
  induction h with
  | nil => exact nomatch hy
  | cons hp _ ih =>
    rcases List.mem_cons.1 hy with rfl | hy
    · exact ⟨_, List.mem_cons_self, hp⟩
    · obtain ⟨x, hx, hp⟩ := ih hy
      exact ⟨x, List.mem_cons_of_mem _ hx, hp⟩

/-- Lists whose members give the same, one by one, give the same. -/
theorem map_eq_of_forall₂ {α β γ : Type} {f : α → γ} {g : β → γ} {xs : List α} {ys : List β}
    (h : List.Forall₂ (fun x y => g y = f x) xs ys) : ys.map g = xs.map f := by
  induction h with
  | nil => rfl
  | cons head _ ih => rw [List.map_cons, List.map_cons, head, ih]

/-- Lists whose members give the same lists, one by one, give the same joined list. -/
theorem flatMap_eq_of_forall₂ {α β γ : Type} {f : α → List γ} {g : β → List γ} {xs : List α}
    {ys : List β} (h : List.Forall₂ (fun x y => g y = f x) xs ys) :
    ys.flatMap g = xs.flatMap f := by
  rw [List.flatMap_def, List.flatMap_def, map_eq_of_forall₂ h]

namespace TypeSig.Alike

/-- The names of alike types stand in the same places. -/
theorem handles {t t' : TypeSig} (h : t.Alike R t') : List.Forall₂ R t.handles t'.handles := by
  induction t using TypeSig.induction generalizing t' with
  | generic isValue d ts ih =>
    cases h with
    | generic _ hd hs =>
      rw [TypeSig.handles, TypeSig.handles]
      exact .cons hd (List.rel_flatMap (forall₂_of_mem hs fun t ht _ h => ih t ht h) fun _ _ h => h)
  | reference n =>
    cases h with
    | reference hr => simpa only [TypeSig.handles] using List.Forall₂.cons hr .nil
  | value n =>
    cases h with
    | value hr => simpa only [TypeSig.handles] using List.Forall₂.cons hr .nil
  | array e ih =>
    cases h with
    | array he => simpa only [TypeSig.handles] using ih he
  | byRef e ih =>
    cases h with
    | byRef he => simpa only [TypeSig.handles] using ih he
  | pointer e ih =>
    cases h with
    | pointer he => simpa only [TypeSig.handles] using ih he
  | primitive p => cases h; simp only [TypeSig.handles, List.Forall₂.nil]
  | typeParam n => cases h; simp only [TypeSig.handles, List.Forall₂.nil]
  | methodParam n => cases h; simp only [TypeSig.handles, List.Forall₂.nil]

/-- Alike types have lists of the same lengths and the same numbers. -/
theorem lists_numbers {t t' : TypeSig} (h : t.Alike R t') :
    t'.lists = t.lists ∧ t'.numbers = t.numbers := by
  induction t using TypeSig.induction generalizing t' with
  | generic isValue d ts ih =>
    cases h with
    | generic _ hd hs =>
      have same := forall₂_of_mem hs fun t ht _ h => ih t ht h
      simp only [TypeSig.lists, TypeSig.numbers, hs.length_eq,
        flatMap_eq_of_forall₂ (same.imp fun _ _ h => h.1),
        flatMap_eq_of_forall₂ (same.imp fun _ _ h => h.2), and_self]
  | array e ih =>
    cases h with
    | array he => simpa only [TypeSig.lists, TypeSig.numbers] using ih he
  | byRef e ih =>
    cases h with
    | byRef he => simpa only [TypeSig.lists, TypeSig.numbers] using ih he
  | pointer e ih =>
    cases h with
    | pointer he => simpa only [TypeSig.lists, TypeSig.numbers] using ih he
  | reference n => cases h; simp only [TypeSig.lists, TypeSig.numbers, and_self]
  | value n => cases h; simp only [TypeSig.lists, TypeSig.numbers, and_self]
  | primitive p => cases h; exact ⟨rfl, rfl⟩
  | typeParam n => cases h; exact ⟨rfl, rfl⟩
  | methodParam n => cases h; exact ⟨rfl, rfl⟩

/-- Alike types stay so under whatever relates the names in them. -/
theorem mono {t t' : TypeSig} (h : t.Alike R t') (imp : ∀ x ∈ t.handles, ∀ y, R x y → R' x y) :
    t.Alike R' t' := by
  induction t using TypeSig.induction generalizing t' with
  | generic isValue d ts ih =>
    rw [TypeSig.handles, List.forall_mem_cons] at imp
    cases h with
    | generic _ hd hs =>
      exact .generic _ (imp.1 _ hd) (forall₂_of_mem hs fun t ht _ h =>
        ih t ht h fun x hx => imp.2 x (List.mem_flatMap.2 ⟨t, ht, hx⟩))
  | array e ih =>
    cases h with
    | array he => exact .array (ih he (by simpa only [TypeSig.handles] using imp))
  | byRef e ih =>
    cases h with
    | byRef he => exact .byRef (ih he (by simpa only [TypeSig.handles] using imp))
  | pointer e ih =>
    cases h with
    | pointer he => exact .pointer (ih he (by simpa only [TypeSig.handles] using imp))
  | reference n =>
    rw [TypeSig.handles, List.forall_mem_singleton] at imp
    cases h with
    | reference hr => exact .reference (imp _ hr)
  | value n =>
    rw [TypeSig.handles, List.forall_mem_singleton] at imp
    cases h with
    | value hr => exact .value (imp _ hr)
  | primitive p => cases h; exact .primitive p
  | typeParam n => cases h; exact .typeParam n
  | methodParam n => cases h; exact .methodParam n

/-- What holds of every name that is put in holds of the names of the result. -/
theorem forall_handles {t t' : TypeSig} (h : t.Alike R t') {p : TypeHandle → Prop}
    (imp : ∀ x ∈ t.handles, ∀ y, R x y → p y) : ∀ y ∈ t'.handles, p y := by
  intro y hy
  obtain ⟨x, hx, hr⟩ := exists_mem_of_forall₂ h.handles hy
  exact imp x hx y hr

end TypeSig.Alike

/-- Whether one signature is another with its names replaced by such that `R` relates to
them. -/
structure MethodSig.Alike (R : TypeHandle → TypeHandle → Prop) (s s' : MethodSig) : Prop where
  hasThis : s'.hasThis = s.hasThis
  explicitThis : s'.explicitThis = s.explicitThis
  convention : s'.convention = s.convention
  genericCount : s'.genericCount = s.genericCount
  result : s.result.Alike R s'.result
  params : List.Forall₂ (TypeSig.Alike R) s.params s'.params

end HookImage
