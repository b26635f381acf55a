/-
# First bytes

The first byte of a method signature holds the calling convention and three marks, which can
be told apart (`methodHeader_low`, `methodHeader_generic` and so on).  It never is the first
byte of a field signature or of a signature of local variables (`methodHeader_ne`).
-/

import HookImage.Proofs.Success
import HookImage.Signature.Blob

namespace HookImage
namespace Blob

/-- The parts of a header lie in bits of their own. -/
theorem methodHeader_parts (s : MethodSig) :
    methodHeader s &&& 0x0F = conventionCode s.convention ∧
      methodHeader s &&& genericMark = (if s.genericCount > 0 then genericMark else 0) ∧
      methodHeader s &&& thisMark = (if s.hasThis then thisMark else 0) ∧
      methodHeader s &&& explicitThisMark = (if s.explicitThis then explicitThisMark else 0) := by
  obtain ⟨hasThis, explicitThis, convention, generics, _, _⟩ := s
  unfold methodHeader
  cases convention <;> cases hasThis <;> cases explicitThis <;> by_cases h : generics > 0 <;>
    simp only [h, if_true, if_false, Bool.false_eq_true] <;> exact ⟨rfl, rfl, rfl, rfl⟩

/-- The low half of the header of a method is its convention. -/
theorem methodHeader_low (s : MethodSig) :
    methodHeader s &&& 0x0F = conventionCode s.convention :=
  (methodHeader_parts s).1

/-- The header of a method has the mark of generic ones exactly if it has parameters of its own. -/
theorem methodHeader_generic (s : MethodSig) :
    methodHeader s &&& genericMark = if s.genericCount > 0 then genericMark else 0 :=
  (methodHeader_parts s).2.1

/-- The header of a method has the mark of a receiver exactly if there is one. -/
theorem methodHeader_this (s : MethodSig) :
    methodHeader s &&& thisMark = if s.hasThis then thisMark else 0 :=
  (methodHeader_parts s).2.2.1

/-- The header of a method has the mark of an explicit receiver exactly if there is one. -/
theorem methodHeader_explicitThis (s : MethodSig) :
    methodHeader s &&& explicitThisMark = if s.explicitThis then explicitThisMark else 0 :=
  (methodHeader_parts s).2.2.2

/-- No convention has a code above that of variable arguments. -/
theorem conventionCode_le (k : CallConvention) : conventionCode k ≤ conventionCode .varArg := by
  cases k <;> decide

/-- A byte with a low half above the conventions is the header of no method. -/
theorem methodHeader_ne {s : MethodSig} {b : UInt8} (h : conventionCode .varArg < b &&& 0x0F) :
    methodHeader s ≠ b := by
  rintro rfl
  rw [methodHeader_low] at h
  exact absurd (conventionCode_le s.convention) (UInt8.not_le.2 h)

/-- The signature of a method begins with its header. -/
theorem head?_method {s : MethodSig} {bytes : Bytes} (h : method s = .ok bytes) :
    bytes.head? = some (methodHeader s) := by
  obtain ⟨_, _, h⟩ := bind_eq_ok.1 h
  obtain ⟨_, _, h⟩ := bind_eq_ok.1 h
  obtain ⟨_, _, h⟩ := bind_eq_ok.1 h
  cases h
  rfl

/-- The signature of a field begins with the mark of fields. -/
theorem head?_field {t : TypeSig} {bytes : Bytes} (h : field t = .ok bytes) :
    bytes.head? = some fieldHeader := by
  obtain ⟨_, _, h⟩ := bind_eq_ok.1 h
  cases h
  rfl

/-- The signature of local variables begins with their mark. -/
theorem head?_locals {vs : List LocalVar} {bytes : Bytes} (h : locals vs = .ok bytes) :
    bytes.head? = some localsHeader := by
  obtain ⟨_, _, h⟩ := bind_eq_ok.1 h
  obtain ⟨_, _, h⟩ := bind_eq_ok.1 h
  cases h
  rfl

end Blob
end HookImage
