/-
# What validation leaves for writing

Validation looks at the same things as the writer of bodies, and finds instructions by their
positions where the writer has offsets.  It asks that the boundaries of a region are there and
not that they stand in order.  In a body whose numbers differ and whose code has less than
`2 ^ 31` bytes the order of regions is all that is left to go wrong: the body of a valid method is
refused exactly if one of its regions ends before it begins (`encode_eq_error_iff`).
-/

import HookImage.Proofs.Cil.Refusal
import HookImage.Proofs.Rebuild.Serializing

namespace HookImage

/-- Whether a range of instructions ends before it begins. -/
def MethodBody.EndsEarly (b : MethodBody) (start : InstrId) (stop : Option InstrId) : Prop :=
  ∃ id i j, stop = some id ∧ b.position? start = some i ∧ b.position? id = some j ∧ j < i

/-- Whether the protected range or the handler ends before it begins. -/
def Region.EndsEarly (b : MethodBody) (r : Region) : Prop :=
  b.EndsEarly r.tryStart r.tryEnd ∨ b.EndsEarly r.handlerStart r.handlerEnd

section Order

variable {b : MethodBody}

/-- A range that does not run forward ends before it begins. -/
theorem MethodBody.not_runsForward_iff (distinct : (b.instructions.map (·.id)).Nodup)
    (start : InstrId) (stop : Option InstrId) :
    ¬b.RunsForward start stop ↔ b.EndsEarly start stop := by
  simp only [RunsForward, EndsEarly, lastPosition?_eq_position? distinct, not_forall, exists_prop,
    Nat.not_le]

/-- A region that does not run forward ends early. -/
theorem Region.not_runsForward_iff (distinct : (b.instructions.map (·.id)).Nodup) (r : Region) :
    ¬r.RunsForward b ↔ r.EndsEarly b := by
  rw [RunsForward, EndsEarly, Decidable.not_and_iff_not_or_not,
    MethodBody.not_runsForward_iff distinct, MethodBody.not_runsForward_iff distinct]

end Order

/-- A run that does not give a result fails. -/
theorem exists_run_eq_error_iff {ε α σ : Type} {x : ExceptT ε (StateM σ) α} {s : σ} :
    (∃ fault s', x.run.run s = (.error fault, s')) ↔ ¬∃ a s', x.run.run s = (.ok a, s') := by
  rcases x.run.run s with ⟨fault | a, s'⟩
  · exact ⟨fun _ ⟨_, _, h⟩ => (nomatch h), fun _ => ⟨fault, s', rfl⟩⟩
  · exact ⟨fun ⟨_, _, h⟩ => (nomatch h), fun h => absurd ⟨a, s', rfl⟩ h⟩

namespace Validity

/-- **The body of a valid method is refused** exactly if one of its regions ends before it begins,
and for no other reason. -/
theorem encode_eq_error_iff {σ : Type} {image : Image} {m : SyntheticMethod}
    (valid : check image m = .ok ()) (distinct : (m.body.instructions.map (·.id)).Nodup)
    (few : m.body.regions.length < 2 ^ 27) (small : m.body.codeSize < 2 ^ 31)
    (intern : String → StateM σ Nat) (s : σ) :
    ((∃ fault s', (m.body.encode intern m.localSignature).run.run s = (.error fault, s')) ↔
      ∃ r ∈ m.body.regions, r.EndsEarly m.body) ∧
    ∀ fault s', (m.body.encode intern m.localSignature).run.run s = (.error fault, s') →
      fault = .regionEndsEarly := by
  have enc := encodable_of_check valid
  have bytes : m.body.regions.length * 24 + 4 < 0x100000000 := by omega
  constructor
  · rw [exists_run_eq_error_iff, Encode.exists_encode_eq_ok enc small bytes]
    simp only [not_forall, exists_prop, Region.not_runsForward_iff distinct]
  · exact fun fault s' refused => Encode.encode_eq_error_of_encodable enc small bytes refused

/-- A method whose handler runs backwards, which validation accepts. -/
def reversedMethod : SyntheticMethod := .ofBody "Tick" {} .reversedFinally

/-- An image that nothing was added to. -/
def freshImage : Image where
  name := "Hooks"
  symbols := .empty
  provenance := Image.attributeType "PatchInfoAttribute" (.ofRow .typeRef 1) (.ofRow .memberRef 1)

/-- The hypotheses are satisfiable: a valid method with a range that runs backwards. -/
theorem encode_eq_error_iff_reversed :
    check freshImage reversedMethod = .ok () ∧ ∃ fault s',
      (reversedMethod.body.encode countLiterals reversedMethod.localSignature).run.run 0 =
        (.error fault, s') := by
  have valid : check freshImage reversedMethod = .ok () := by
    cbv
  have size : reversedMethod.body.codeSize = 3 := by
    cbv
  have small : reversedMethod.body.codeSize < 2 ^ 31 := by
    rw [size]
    decide
  exact ⟨valid, (encode_eq_error_iff valid (by decide) (by decide) small countLiterals 0).1.2
    ⟨_, List.mem_singleton_self _, .inl ⟨⟨0⟩, 1, 0, rfl, rfl, rfl, by decide⟩⟩⟩

end Validity
end HookImage
