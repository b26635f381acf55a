/-
# Interning

A growing list of rows in which equal keys share a row.  Rows are numbered from one in
the order of their first appearance, and a row never changes once it is there.
-/

import Std.Data.HashMap

namespace HookImage

/-- The row with a number, counted from one. -/
def nthRow? {ρ : Type} (rows : Array ρ) : Nat → Option ρ
  | 0 => none
  | n + 1 => rows[n]?

/-- Rows of type `ρ`, found again by their keys.  The index finds the rows and nothing
else, so two rows never have one key. -/
structure Interner {ρ κ : Type} [BEq κ] [Hashable κ] (key : ρ → κ) where
  rows : Array ρ
  /-- The number of the row of every key that has one. -/
  index : Std.HashMap κ Nat
  found : ∀ k n, index[k]? = some n ↔ (nthRow? rows n).map key = some k

namespace Interner

variable {ρ κ : Type} [BEq κ] [Hashable κ] {key : ρ → κ}

/-- The row with a number. -/
def row? (t : Interner key) (n : Nat) : Option ρ := nthRow? t.rows n

/-- Whether all rows of a table are the same rows of another one. -/
def Extends (t u : Interner key) : Prop := ∀ n row, t.row? n = some row → u.row? n = some row

/-- Every table extends itself. -/
theorem Extends.refl (t : Interner key) : t.Extends t := fun _ _ h => h

/-- What extends an extension extends the table. -/
theorem Extends.trans {t u v : Interner key} (h : t.Extends u) (k : u.Extends v) : t.Extends v :=
  fun n row hr => k n row (h n row hr)

/-- No row has a number above the number of rows. -/
theorem row?_le_size {t : Interner key} {n : Nat} {row : ρ} (h : t.row? n = some row) :
    n ≤ t.rows.size := by
  cases n with
  | zero => exact Nat.zero_le _
  | succ n => exact (Array.getElem?_eq_some_iff.1 h).1

/-- Every number from one to the number of rows is that of a row. -/
theorem row?_of_le_size {t : Interner key} {n : Nat} (h : 0 < n) (k : n ≤ t.rows.size) :
    ∃ row, t.row? n = some row := by
  obtain ⟨n, rfl⟩ := Nat.exists_eq_add_one.2 h
  exact ⟨t.rows[n], Array.getElem?_eq_getElem k⟩

/-- An extension has no fewer rows. -/
theorem Extends.size_le {t u : Interner key} (h : t.Extends u) : t.rows.size ≤ u.rows.size := by
  rcases Nat.eq_zero_or_pos t.rows.size with hs | hs
  · omega
  · obtain ⟨row, hr⟩ := row?_of_le_size hs (Nat.le_refl _)
    exact row?_le_size (h _ _ hr)

/-- A new row has the next number, and the others keep theirs. -/
theorem nthRow?_push (rows : Array ρ) (row : ρ) (n : Nat) :
    nthRow? (rows.push row) n = if n = rows.size + 1 then some row else nthRow? rows n := by
  cases n with
  | zero => simp [nthRow?]
  | succ n => simp only [nthRow?, Array.getElem?_push, Nat.add_right_cancel_iff]

variable [LawfulBEq κ]

/-- No rows. -/
def empty : Interner key where
  rows := #[]
  index := ∅
  found k n := by cases n <;> simp [nthRow?]

/-- The index of a table with a new row leads to it by its key, and otherwise leads where it led. -/
theorem found_push {rows : Array ρ} {index : Std.HashMap κ Nat}
    (found : ∀ k n, index[k]? = some n ↔ (nthRow? rows n).map key = some k) {row : ρ}
    (new : index[key row]? = none) (k : κ) (n : Nat) :
    (index.insert (key row) (rows.size + 1))[k]? = some n ↔
      (nthRow? (rows.push row) n).map key = some k := by
  rw [nthRow?_push, Std.HashMap.getElem?_insert]
  by_cases hn : n = rows.size + 1
  · subst hn
    by_cases hk : key row = k
    · simp [hk]
    · have none : nthRow? rows (rows.size + 1) = none := by simp [nthRow?]
      simp [hk, found, none]
  · by_cases hk : key row = k
    · subst hk
      have absent : (nthRow? rows n).map key ≠ some (key row) := fun h => by
        rw [(found _ _).2 h] at new
        cases new
      simp [hn, absent, Ne.symm hn]
    · simp [hn, hk, found]

/-- The number of the row with the key of `row`, which is added if there is none yet. -/
def add (t : Interner key) (row : ρ) : Nat × Interner key :=
  match t with
  | ⟨rows, index, found⟩ =>
    if new : index[key row]? = none then
      let n := rows.size + 1
      (n, ⟨rows.push row, index.insert (key row) n, found_push found new⟩)
    else (index[key row]?.getD 0, ⟨rows, index, found⟩)

/-- What an addition does: either there is a row with the key and nothing changes, or the
row becomes the last one. -/
theorem add_cases (t : Interner key) (row : ρ) :
    (∃ old, t.row? (t.add row).1 = some old ∧ key old = key row ∧ (t.add row).2 = t) ∨
      (t.add row).1 = t.rows.size + 1 ∧ (t.add row).2.rows = t.rows.push row := by
  obtain ⟨rows, index, found⟩ := t
  simp only [add]
  split
  · exact .inr ⟨rfl, rfl⟩
  · rename_i old
    obtain ⟨n, old⟩ := Option.ne_none_iff_exists'.1 old
    obtain ⟨r, hr, hk⟩ := Option.map_eq_some_iff.1 ((found _ _).1 old)
    rw [old]
    exact .inl ⟨r, hr, hk, rfl⟩

/-- Adding a row extends a table. -/
theorem extends_add (t : Interner key) (row : ρ) : t.Extends (t.add row).2 := by
  intro n r hr
  rcases t.add_cases row with ⟨_, _, _, same⟩ | ⟨_, pushed⟩
  · rw [same]
    exact hr
  · rw [row?, pushed, nthRow?_push, if_neg]
    · exact hr
    · have := row?_le_size hr
      omega

/-- The number that an addition gives is that of a row with the key. -/
theorem row?_add (t : Interner key) (row : ρ) :
    ∃ r, (t.add row).2.row? (t.add row).1 = some r ∧ key r = key row := by
  rcases t.add_cases row with ⟨old, hold, hk, same⟩ | ⟨number, pushed⟩
  · exact ⟨old, by rw [same]; exact hold, hk⟩
  · refine ⟨row, ?_, rfl⟩
    rw [row?, pushed, nthRow?_push, if_pos number]

/-- A row after an addition is an old row or the added one, and then the last. -/
theorem row?_add_cases {t : Interner key} {row r : ρ} {n : Nat}
    (h : (t.add row).2.row? n = some r) :
    t.row? n = some r ∨ n = t.rows.size + 1 ∧ r = row := by
  rcases t.add_cases row with ⟨_, _, _, same⟩ | ⟨_, pushed⟩
  · exact .inl (same ▸ h)
  · rw [row?, pushed, nthRow?_push] at h
    split at h
    · rename_i hn
      exact .inr ⟨hn, (Option.some.inj h).symm⟩
    · exact .inl h

end Interner
end HookImage
