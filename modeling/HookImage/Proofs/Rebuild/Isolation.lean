/-
# A bad target does not disturb the others

A target for which no method is added leaves the image and the placement as they were
(`Reconstruction.processTarget_gains`), and the work on the targets behind it does not depend on
what was noted about it (`Reconstruction.adds_process`).  With and without it a reconstruction comes
to the same image, from which validation takes the same methods.  Only the notes about the target
and the number of targets tell that it was there (`Snapshot.reconstruct_isolates`).
-/

import Mathlib
import HookImage.Proofs.Rebuild.Targets

namespace HookImage

namespace Reconstruction

variable {view : HostView} {options : Options}

/-- Targets are processed in two runs as they are in one. -/
theorem process_append (view : HostView) (options : Options) (r : Reconstruction)
    (before after : List (MethodId × List Interception)) :
    r.process view options ⟨before ++ after⟩ =
      (r.process view options ⟨before⟩).process view options ⟨after⟩ := List.foldl_append

/-- A target for which no method is added only leaves notes, and is counted. -/
theorem processTarget_of_methodCount {r : Reconstruction} (founded : r.placement.Founded r.image)
    {group : MethodId × List Interception}
    (bad : (r.processTarget view options group).image.methodCount = r.image.methodCount) :
    ∃ notes, r.processTarget view options group =
      ⟨r.image, r.placement, r.diagnostics ++ notes, r.targets + 1⟩ := by
  obtain ⟨-, -, added, -, gains, -, unchanged, -⟩ :=
    processTarget_gains view options founded group
  have none : added = [] := List.length_eq_zero_iff.1
    (Nat.add_left_cancel (gains.1.symm.trans bad))
  obtain ⟨same, same'⟩ := unchanged none
  obtain ⟨image, placement, before, targets⟩ := r
  obtain ⟨image', placement', notes, -, run⟩ :=
    adds_processTarget view options group image placement
  have left : processTarget view options ⟨image, placement, before, targets⟩ group =
    ⟨image', placement', before ++ notes, targets + 1⟩ := run before targets
  rw [left] at same same'
  cases same
  cases same'
  exact ⟨notes, left⟩

/-- Finishing sweeps the image and adds its notes. -/
theorem finish_mk (image : Image) (placement : Placement) (notes : Diagnostics) (targets : Nat) :
    finish ⟨image, placement, notes, targets⟩ =
      ⟨(Validity.sweep image).1, notes ++ (Validity.sweep image).2.toArray, targets,
        (Validity.sweep image).2.length⟩ := by
  simp only [finish, Diagnostics.append_list]

end Reconstruction

namespace Snapshot

open Reconstruction

variable {view : HostView} {options : Options}

/-- A reconstruction that starts gives a report. -/
theorem reconstruct_of_start {first : Reconstruction} (started : start view options = .ok first)
    (s : Snapshot) : s.reconstruct view options = .ok (first.process view options s).finish := by
  rw [reconstruct, started]
  rfl

/-- A reconstruction that does not start gives the reason. -/
theorem reconstruct_of_error {e : Error} (failed : start view options = .error e) (s : Snapshot) :
    s.reconstruct view options = .error e := by
  rw [reconstruct, failed]
  rfl

/-- **A bad target does not disturb the others.**  If no method is added for a target behind those
before it, a reconstruction without it gives the same image, and as many methods are taken out of
it.  The notes about the target stand between those about the other targets, and the target is
counted. -/
theorem reconstruct_isolates {before after : List (MethodId × List Interception)}
    {group : MethodId × List Interception}
    (bad : ∀ first, start view options = .ok first →
      ((first.process view options ⟨before⟩).processTarget view options group).image.methodCount =
        (first.process view options ⟨before⟩).image.methodCount) :
    (∀ e, reconstruct ⟨before ++ group :: after⟩ view options = .error e ↔
      reconstruct ⟨before ++ after⟩ view options = .error e) ∧
    ∀ report, reconstruct ⟨before ++ after⟩ view options = .ok report →
      ∃ report', reconstruct ⟨before ++ group :: after⟩ view options = .ok report' ∧
        report'.image = report.image ∧ report'.pruned = report.pruned ∧
        report'.targets = report.targets + 1 ∧ ∃ earlier notes later : Diagnostics,
          report.diagnostics = earlier ++ later ∧
          report'.diagnostics = earlier ++ notes ++ later := by
  rcases started : start view options with e | first
  · have failed (s : Snapshot) := reconstruct_of_error started s
    refine ⟨fun e' => by rw [failed, failed], fun report h => ?_⟩
    rw [failed] at h
    cases h
  have finished (s : Snapshot) := reconstruct_of_start started s
  refine ⟨fun e => by simp [finished], fun report h => ?_⟩
  -- The reconstruction behind the targets before, with and without the bad one.
  have split (groups : List (MethodId × List Interception)) :=
    process_append view options first before groups
  have founded := process_founded view options (start_founded started) ⟨before⟩
  obtain ⟨notes, left⟩ := processTarget_of_methodCount founded (bad first started)
  generalize first.process view options ⟨before⟩ = r at split left
  obtain ⟨image, placement, later, -, rest⟩ :=
    adds_process view options ⟨after⟩ r.image r.placement
  have without : r.process view options ⟨after⟩ =
    ⟨image, placement, r.diagnostics ++ later, r.targets + after.length⟩ := rest _ _
  have around : r.process view options ⟨group :: after⟩ =
      ⟨image, placement, r.diagnostics ++ notes ++ later, r.targets + 1 + after.length⟩ := by
    rw [show r.process view options ⟨group :: after⟩ =
      (r.processTarget view options group).process view options ⟨after⟩ from rfl, left]
    exact rest _ _
  rw [finished, split, without, finish_mk] at h
  cases h
  rw [finished, split, around, finish_mk]
  exact ⟨_, rfl, rfl, rfl, Nat.add_right_comm .., r.diagnostics, notes, _,
    Array.append_assoc, Array.append_assoc⟩

/-- A process with two methods of a clock, and one that no type declares. -/
def clockView : HostView :=
  { Placement.nestedView with
    method := fun id => [
      { id := ⟨1⟩, name := "Tick", declaringType := some ⟨1⟩, signature := {} },
      { id := ⟨2⟩, name := "Fade", signature := {} },
      { id := ⟨3⟩, name := "Chime", declaringType := some ⟨1⟩, signature := {} }
      ].find? fun m : MethodInfo => m.id == id
    body := fun _ => some (.ofCode [(.ret, .none)]) }

/-- A method with its transformation. -/
def transformed (n : UInt64) : MethodId × List Interception := (⟨n⟩, [Synthesis.adding n .succeeded])

/-- The hypothesis is satisfiable: there is no container for the target in the middle, and the
image is the one with the methods of the other two. -/
theorem reconstruct_isolates_clock : ∃ report report',
    reconstruct ⟨[transformed 1] ++ [transformed 3]⟩ clockView {} = .ok report ∧
    report.image.methodCount = 2 ∧
    reconstruct ⟨[transformed 1] ++ transformed 2 :: [transformed 3]⟩ clockView {} = .ok report' ∧
    report'.image = report.image ∧ report'.pruned = report.pruned ∧
    report'.targets = report.targets + 1 := by
  have facts : (match reconstruct ⟨[transformed 1] ++ [transformed 3]⟩ clockView {} with
      | .ok report => report.image.methodCount == 2
      | .error _ => false) = true := by cbv
  split at facts
  · rename_i report h
    obtain ⟨-, others⟩ := @reconstruct_isolates clockView {} [transformed 1] [transformed 3]
      (transformed 2) fun first started =>
        (methodCount_processTarget_eq_iff _ _ (process_founded _ _ (start_founded started) _) _).2
          (.inr ⟨_, rfl, .inr (.inl rfl)⟩)
    obtain ⟨report', h', image, pruned, targets, -⟩ := others report h
    exact ⟨report, report', h, eq_of_beq facts, h', image, pruned, targets⟩
  · cases facts

end Snapshot
end HookImage
