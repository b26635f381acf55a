/-
# Compressed numbers that share a form

A compressed number has 29 bits.  A greater one is written all the same: it loses the bits that the
mark of the four-byte form takes, so that another number has the same form (`compressed_twin`).
What is read as a compressed number always has 29 bits (`compressed?_lt`).
-/

import Mathlib.Data.List.Basic
import HookImage.Proofs.Bytes.Reading

namespace HookImage
namespace Bytes

/-- The bits that the mark of the four-byte form takes do not count. -/
theorem toNat_mark_or_mod (n : UInt32) :
    (0xC0000000 ||| n).toNat = 0xC0000000 + n.toNat % 0x40000000 := by
  have low : n.toNat % 0x40000000 < Nat.pow 2 30 := Nat.mod_lt _ (by decide)
  have add (a : Nat) : Nat.pow 2 30 * a + n.toNat % 0x40000000 =
      Nat.pow 2 30 * a ||| n.toNat % 0x40000000 := Nat.two_pow_add_eq_or_of_lt low a
  have split : n.toNat = Nat.pow 2 30 * (n.toNat / 0x40000000) + n.toNat % 0x40000000 :=
    (Nat.div_add_mod _ _).symm
  have few : n.toNat / 0x40000000 < 4 := by
    have := n.toNat_lt
    omega
  have marked : ∀ a < 4, Nat.pow 2 30 * 3 ||| Nat.pow 2 30 * a = Nat.pow 2 30 * 3 := by decide
  calc (0xC0000000 ||| n).toNat
      = Nat.pow 2 30 * 3 ||| n.toNat := UInt32.toNat_or ..
    _ = (Nat.pow 2 30 * 3 ||| Nat.pow 2 30 * (n.toNat / 0x40000000)) ||| n.toNat % 0x40000000 := by
      rw [Nat.or_assoc, ← add, ← split]
    _ = 0xC0000000 + n.toNat % 0x40000000 := by
      rw [marked _ few, ← add]

/-- Numbers in four bytes that differ only in bits that the mark takes have one form. -/
theorem compressed_eq {n m : UInt32} (hn : 0x4000 ≤ n.toNat) (hm : 0x4000 ≤ m.toNat)
    (same : n.toNat % 0x40000000 = m.toNat % 0x40000000) : compressed n = compressed m := by
  have long {n : UInt32} (h : 0x4000 ≤ n.toNat) :
      compressed n = bigEndian 4 (0xC0000000 + n.toNat % 0x40000000) := by
    rw [compressed, if_neg, if_neg, toNat_mark_or_mod]
    all_goals
      rw [UInt32.lt_iff_toNat_lt, Nat.not_lt]
      exact Nat.le_trans (by decide) h
  rw [long hn, long hm, same]

/-- Another number with the form of a number that has no form of its own. -/
def twin (n : UInt32) : UInt32 :=
  if n < 0x20000000 then n
  else if n < 0x80000000 then n + 0x80000000
  else n - 0x40000000

/-- The twin of a number, as arithmetic on its value. -/
theorem toNat_twin (n : UInt32) : (twin n).toNat =
    if n.toNat < 0x20000000 then n.toNat
    else if n.toNat < 0x80000000 then n.toNat + 0x80000000
    else n.toNat - 0x40000000 := by
  have := n.toNat_lt
  have small : n < 0x20000000 ↔ n.toNat < 0x20000000 := UInt32.lt_iff_toNat_lt
  have lower : n < 0x80000000 ↔ n.toNat < 0x80000000 := UInt32.lt_iff_toNat_lt
  unfold twin
  simp only [small, lower]
  split
  · rfl
  split
  · rw [UInt32.toNat_add]
    show (n.toNat + 0x80000000) % 0x100000000 = _
    omega
  · rw [UInt32.toNat_sub]
    show (0x100000000 - 0x40000000 + n.toNat) % 0x100000000 = _
    omega

/-- **A number and its twin are written alike.** -/
theorem compressed_twin (n : UInt32) : compressed (twin n) = compressed n := by
  have value := toNat_twin n
  by_cases small : n.toNat < 0x20000000
  · rw [if_pos small] at value
    rw [UInt32.toNat_inj.1 value]
  · rw [if_neg small] at value
    apply compressed_eq <;> split at value <;> omega

/-- A number without a compressed form is not its own twin. -/
theorem twin_ne {n : UInt32} (h : 0x20000000 ≤ n.toNat) : twin n ≠ n := by
  have value := toNat_twin n
  intro same
  rw [same] at value
  split at value
  · omega
  · split at value <;> omega

/-- A twin is zero only where the number is. -/
theorem twin_pos {n : UInt32} : 0 < twin n ↔ 0 < n := by
  rw [UInt32.lt_iff_toNat_lt, UInt32.lt_iff_toNat_lt, toNat_twin]
  show 0 < _ ↔ 0 < _
  split
  · rfl
  · split <;> omega

/-- The first part of a split has the length that was asked for. -/
theorem length_of_split? {n : Nat} {bytes : Bytes} {p : Bytes × Bytes}
    (h : split? n bytes = some p) : p.1.length = n := by
  unfold split? at h
  split at h
  · cases h
    rwa [List.length_take, Nat.min_eq_left]
  · cases h

/-- No compressed number takes more than 29 bits. -/
theorem compressed?_lt {bytes rest : Bytes} {n : Nat} (h : compressed? bytes = some (n, rest)) :
    n < 0x20000000 := by
  cases bytes with
  | nil => cases h
  | cons b bytes =>
    rw [compressed?] at h
    split at h
    · cases h
      omega
    · split at h
      · obtain ⟨p, taken, read⟩ := Option.map_eq_some_iff.1 h
        obtain ⟨x, one⟩ := List.length_eq_one_iff.1 (length_of_split? taken)
        have := x.toNat_lt
        simp only [one, List.reverse_cons, List.reverse_nil, List.nil_append, List.cons_append,
          value, Prod.mk.injEq] at read
        omega
      · split at h
        · obtain ⟨p, taken, read⟩ := Option.map_eq_some_iff.1 h
          obtain ⟨x, y, z, three⟩ := List.length_eq_three.1 (length_of_split? taken)
          have := x.toNat_lt
          have := y.toNat_lt
          have := z.toNat_lt
          simp only [three, List.reverse_cons, List.reverse_nil, List.nil_append,
            List.cons_append, value, Prod.mk.injEq] at read
          omega
        · cases h

end Bytes

end HookImage
