/-
# Why a body is not written

A body is refused for its layout, for one of its lines or for one of its regions
(`encode_eq_error`), and each part has its own reasons.  Two of them are singled out here.  Layout
ends where every short branch reaches its target, so none is refused for its distance
(`encode_ne_shortBranchTooFar`).  And where the rest of a body is in order, only a region that
ends before it begins is left to object to (`encode_eq_error_of_encodable`).
-/

import HookImage.Proofs.Cil.Encodable

namespace HookImage

/-! ### Computations that fail -/

section Failing

variable {ε α β σ : Type}

/-- Two steps fail if the first one does, or the second one after it. -/
theorem bind_eq_error {x : Except ε α} {f : α → Except ε β} {e : ε} :
    x >>= f = .error e ↔ x = .error e ∨ ∃ a, x = .ok a ∧ f a = .error e := by
  cases x with
  | error e' => exact ⟨fun h => .inl (by cases h; rfl), fun h => by
      rcases h with h | ⟨_, h, _⟩ <;> cases h; rfl⟩
  | ok a => exact ⟨fun h => .inr ⟨a, rfl, h⟩, fun h => by
      rcases h with h | ⟨_, ha, h⟩
      · cases h
      · cases ha
        exact h⟩

/-- Where a run over a list fails, a member of the list does. -/
theorem exists_of_mapM_eq_error {f : α → Except ε β} {xs : List α} {e : ε}
    (h : xs.mapM f = .error e) : ∃ x ∈ xs, f x = .error e := by
  induction xs with
  | nil => exact nomatch h
  | cons x xs ih =>
    rw [List.mapM_cons, bind_eq_error] at h
    rcases h with first | ⟨_, _, h⟩
    · exact ⟨x, List.mem_cons_self, first⟩
    · rcases bind_eq_error.1 h with rest | ⟨_, _, h⟩
      · obtain ⟨y, hy, failed⟩ := ih rest
        exact ⟨y, List.mem_cons_of_mem _ hy, failed⟩
      · cases h

/-- Two steps with a state fail if the first one does, or the second one after it. -/
theorem run_bind_eq_error {x : ExceptT ε (StateM σ) α} {f : α → ExceptT ε (StateM σ) β}
    {s s'' : σ} {e : ε} : (x >>= f).run.run s = (.error e, s'') ↔
      x.run.run s = (.error e, s'') ∨
        ∃ a s', x.run.run s = (.ok a, s') ∧ (f a).run.run s' = (.error e, s'') := by
  rw [ExceptT.run_bind, StateT.run_bind]
  show (match x.run.run s with | (r, s') => _) = _ ↔ _
  rcases x.run.run s with ⟨_ | a, s'⟩
  · exact ⟨fun h => .inl (by cases h; rfl), fun h => by
      rcases h with h | ⟨_, _, h, _⟩ <;> cases h; rfl⟩
  · exact ⟨fun h => .inr ⟨a, s', rfl, h⟩, fun h => by
      rcases h with h | ⟨_, _, ha, h⟩
      · cases h
      · cases ha
        exact h⟩

/-- A step without a state fails without changing the state. -/
theorem run_lift_eq_error {x : Except ε α} {e : ε} {s s' : σ} :
    (ExceptT.mk (pure x) : ExceptT ε (StateM σ) α).run.run s = (.error e, s') ↔
      x = .error e ∧ s = s' :=
  ⟨fun h => by cases h; exact ⟨rfl, rfl⟩, fun ⟨ha, hs⟩ => by rw [ha, hs]; rfl⟩

end Failing

namespace Encode

open Layout

variable {σ : Type} {b : MethodBody}

/-! ### Lines -/

/-- Looking a label up fails only because no instruction has the number. -/
theorem offsetOf_eq_error {labels : Labels} {id : InstrId} {fault : Malformation}
    (h : offsetOf labels id = .error fault) :
    labels[id]? = none ∧ fault = .missingInstruction id := by
  unfold offsetOf at h
  split at h
  · cases h
  · rename_i missing
    exact ⟨missing, (Except.error.inj h).symm⟩

/-- A distance is refused for an instruction that is not there, or for its size. -/
theorem distance_eq_error {labels : Labels} {next width : Nat} {far fault : Malformation}
    {id : InstrId} (h : distance labels next width far id = .error fault) :
    fault = .missingInstruction id ∨ fault = far ∧ ∃ target, labels[id]? = some target ∧
      ¬(-((Nat.pow 2 (8 * width - 1) : Nat) : Int) ≤ target - next ∧
        (target : Int) - next < (Nat.pow 2 (8 * width - 1) : Nat)) := by
  rcases bind_eq_error.1 h with missing | ⟨target, found, h⟩
  · exact .inl (offsetOf_eq_error missing).2
  · dsimp only at h
    split at h
    · cases h
    · rename_i outside
      refine .inr ⟨(Except.error.inj h).symm, target, offsetOf_eq_ok.1 found, ?_⟩
      simpa only [Bool.and_eq_true, decide_eq_true_eq] using outside

/-- An operand is refused for the distance of a short branch only where that is too far. -/
theorem operand_eq_shortBranchTooFar {labels : Labels} {p : PlacedLine}
    (h : operand labels p = .error .shortBranchTooFar) : ∃ id target,
      p.shortTarget? = some id ∧ labels[id]? = some target ∧ ¬isNear (target - p.next) = true := by
  unfold operand at h
  cases hoperand : p.instr.operand with
  | target id =>
    rw [hoperand] at h
    dsimp only at h
    split at h
    · rename_i short
      rcases distance_eq_error h with other | ⟨_, target, found, outside⟩
      · cases other
      · refine ⟨id, target, Line.shortTarget?_eq_some.2 ⟨eq_of_beq short, hoperand⟩, found,
          fun near => ?_⟩
        rw [isNear_eq_true] at near
        have half : (Nat.pow 2 (8 * 1 - 1) : Nat) = 128 := rfl
        rw [half] at outside
        omega
    · rcases distance_eq_error h with other | ⟨other, _⟩ <;> cases other
  | targets ids =>
    rw [hoperand] at h
    rcases bind_eq_error.1 h with failed | ⟨_, _, h⟩
    · obtain ⟨id, _, failed⟩ := exists_of_mapM_eq_error failed
      rcases distance_eq_error failed with other | ⟨other, _⟩ <;> cases other
    · cases h
  | _ =>
    rw [hoperand] at h
    cases h

/-- A line is refused for an operand of another layout, or for the operand itself. -/
theorem line_eq_error {intern : String → StateM σ Nat} {labels : Labels} {p : PlacedLine}
    {fault : Malformation} {s s' : σ}
    (h : (line intern labels p).run.run s = (.error fault, s')) :
    fault = .misfit p.instr.operand p.op ∨ operand labels p = .error fault := by
  unfold line at h
  split at h
  · split at h
    · rcases run_bind_eq_error.1 h with h | ⟨_, _, _, h⟩ <;> cases h
    · rcases run_bind_eq_error.1 h with failed | ⟨_, _, _, h⟩
      · exact .inr (run_lift_eq_error.1 failed).1
      · cases h
  · cases h
    exact .inl rfl

/-- Code is refused for one of its lines. -/
theorem exists_of_code_eq_error {intern : String → StateM σ Nat} {labels : Labels}
    {ps : List PlacedLine} {fault : Malformation} {s s' : σ}
    (h : (code intern labels ps).run.run s = (.error fault, s')) :
    ∃ p ∈ ps, fault = .misfit p.instr.operand p.op ∨ operand labels p = .error fault := by
  induction ps generalizing s with
  | nil => cases h
  | cons p ps ih =>
    rcases run_bind_eq_error.1 h with first | ⟨_, _, _, h⟩
    · exact ⟨p, List.mem_cons_self, line_eq_error first⟩
    · rcases run_bind_eq_error.1 h with rest | ⟨_, _, _, h⟩
      · obtain ⟨q, hq, why⟩ := ih rest
        exact ⟨q, List.mem_cons_of_mem _ hq, why⟩
      · cases h

/-! ### Regions -/

/-- The end of a region is refused only because the instruction behind it is missing. -/
theorem boundary_eq_error {labels : Labels} {codeSize : Nat} {stop : Option InstrId}
    {fault : Malformation} (h : boundary labels codeSize stop = .error fault) :
    ∃ id, stop = some id ∧ labels[id]? = none ∧ fault = .missingInstruction id := by
  cases stop with
  | none => cases h
  | some id => exact ⟨id, rfl, offsetOf_eq_error h⟩

/-- A region is refused for an instruction that is not there, for its order, or for what it
handles. -/
theorem clause_eq_error {labels : Labels} {codeSize : Nat} {r : Region} {fault : Malformation}
    (h : clause labels codeSize r = .error fault) :
    (∃ id ∈ r.anchors, labels[id]? = none ∧ fault = .missingInstruction id) ∨
      fault = .regionEndsEarly ∨ clauseExtra labels r = .error fault := by
  rcases bind_eq_error.1 h with missing | ⟨_, _, h⟩
  · exact .inl ⟨r.tryStart, by simp [Region.anchors], offsetOf_eq_error missing⟩
  rcases bind_eq_error.1 h with missing | ⟨_, _, h⟩
  · obtain ⟨id, stop, why⟩ := boundary_eq_error missing
    exact .inl ⟨id, by simp [Region.anchors, stop], why⟩
  rcases bind_eq_error.1 h with missing | ⟨_, _, h⟩
  · exact .inl ⟨r.handlerStart, by simp [Region.anchors], offsetOf_eq_error missing⟩
  rcases bind_eq_error.1 h with missing | ⟨_, _, h⟩
  · obtain ⟨id, stop, why⟩ := boundary_eq_error missing
    exact .inl ⟨id, by simp [Region.anchors, stop], why⟩
  split at h
  · cases h
    exact .inr (.inl rfl)
  · rcases bind_eq_error.1 h with failed | ⟨_, _, h⟩
    · exact .inr (.inr failed)
    · cases h

/-- No region is refused for a short branch. -/
theorem clauseExtra_ne_shortBranchTooFar {labels : Labels} {r : Region} :
    clauseExtra labels r ≠ .error .shortBranchTooFar := by
  intro h
  unfold clauseExtra at h
  split at h
  · split at h
    · cases (offsetOf_eq_error h).2
    · cases h
  · split at h
    · split at h
      · split at h <;> cases h
      · cases h
    · cases h

/-- The section of regions is refused for its size or for one of them. -/
theorem regions_eq_error {labels : Labels} {codeSize : Nat} {rs : List Region}
    {fault : Malformation} (h : regions labels codeSize rs = .error fault) :
    ¬rs.length * 24 + 4 < 0x100000000 ∧ fault = .tooManyRegions ∨
      ∃ r ∈ rs, clause labels codeSize r = .error fault := by
  unfold regions at h
  dsimp only at h
  split at h
  · rcases bind_eq_error.1 h with failed | ⟨_, _, h⟩
    · exact .inr (exists_of_mapM_eq_error failed)
    · cases h
  · rename_i many
    exact .inl ⟨many, (Except.error.inj h).symm⟩

/-! ### Bodies -/

/-- A body is refused for its layout, its code or its regions. -/
theorem encode_eq_error {intern : String → StateM σ Nat} {localSig : Option Token}
    {fault : Malformation} {s s' : σ}
    (h : (b.encode intern localSig).run.run s = (.error fault, s')) :
    ofBody b = .error fault ∨
      (∃ s', (code intern (bodyLabels b) (place (settle (draft b)))).run.run s =
        (.error fault, s')) ∨
      regions (bodyLabels b) b.codeSize b.regions = .error fault := by
  unfold MethodBody.encode at h
  rcases run_bind_eq_error.1 h with failed | ⟨layout, s₁, first, h⟩
  · exact .inl (run_lift_eq_error.1 failed).1
  obtain ⟨hlayout, rfl⟩ := run_lift_eq_ok.1 first
  obtain ⟨_, _, rfl⟩ := ofBody_eq_ok.1 hlayout
  rcases run_bind_eq_error.1 h with failed | ⟨_, _, _, h⟩
  · exact .inr (.inl ⟨s', failed⟩)
  split at h
  · cases h
  · rcases run_bind_eq_error.1 h with failed | ⟨_, _, _, h⟩
    · exact .inr (.inr (run_lift_eq_error.1 failed).1)
    · cases h

/-- No layout is refused for a short branch. -/
theorem ofBody_ne_shortBranchTooFar : ofBody b ≠ .error .shortBranchTooFar := by
  intro h
  unfold ofBody at h
  split at h
  · rename_i fault missing
    obtain ⟨i, _, found⟩ := List.exists_of_findSome?_eq_some missing
    split at found
    · split at found <;> cases found
      cases h
    · cases found
  · dsimp only at h
    split at h <;> cases h

/-- **No body is refused for the distance of a short branch**: those that are left short reach
their targets. -/
theorem encode_ne_shortBranchTooFar (intern : String → StateM σ Nat) (localSig : Option Token)
    (s s' : σ) : (b.encode intern localSig).run.run s ≠ (.error .shortBranchTooFar, s') := by
  intro h
  rcases encode_eq_error h with failed | ⟨s', failed⟩ | failed
  · exact ofBody_ne_shortBranchTooFar failed
  · obtain ⟨p, hp, misfit | failed⟩ := exists_of_code_eq_error failed
    · cases misfit
    · obtain ⟨id, target, short, label, far⟩ := operand_eq_shortBranchTooFar failed
      exact far (isNear_of_settle hp short label)
  · rcases regions_eq_error failed with ⟨_, other⟩ | ⟨r, _, failed⟩
    · cases other
    · rcases clause_eq_error failed with ⟨_, _, _, other⟩ | other | failed
      · cases other
      · cases other
      · exact clauseExtra_ne_shortBranchTooFar failed

/-- **Where all that a body names can be written**, it is refused for the order of a region
only. -/
theorem encode_eq_error_of_encodable (enc : b.Encodable) (small : b.codeSize < 0x80000000)
    (few : b.regions.length * 24 + 4 < 0x100000000) {intern : String → StateM σ Nat}
    {localSig : Option Token} {fault : Malformation} {s s' : σ}
    (h : (b.encode intern localSig).run.run s = (.error fault, s')) :
    fault = .regionEndsEarly := by
  rcases encode_eq_error h with failed | ⟨s', failed⟩ | failed
  · cases (ofBody_of_encodable enc small).symm.trans failed
  · obtain ⟨bytes, s'', written⟩ := exists_code_eq_ok enc small intern s
    cases written.symm.trans failed
  · rcases regions_eq_error failed with ⟨many, _⟩ | ⟨r, hr, failed⟩
    · exact absurd few many
    · rcases clause_eq_error failed with ⟨id, hid, missing, _⟩ | early | failed
      · obtain ⟨_, label, _⟩ := exists_bodyLabel (enc.anchors r hr id hid)
        cases missing.symm.trans label
      · exact early
      · obtain ⟨_, written⟩ := exists_clauseExtra enc hr
        cases written.symm.trans failed

end Encode
end HookImage
