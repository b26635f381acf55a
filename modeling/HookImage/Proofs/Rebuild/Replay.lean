/-
# Transformations are replayed all or nothing

The transformations of a target take their turns one after the other, each with the body that
those before it made (`Synthesis.turns`).  A run edits a copy, and the copy takes the place of
the body only if the run succeeds (`Synthesis.apply_cases`).  So the clone has the body that the
successful transformations make of the original on their own; one that fails costs a note and a
tag, and without it the clone has the same body (`Synthesis.clone_replays`).
-/

import HookImage.Proofs.Success
import HookImage.Rebuild.Synthesis

namespace HookImage
namespace Synthesis

/-! ### Turns -/

/-- What the run of a transformation makes of a body, if it succeeds. -/
def edit? (m : MethodInfo) (b : MethodBody) (r : Interception) : Option MethodBody :=
  match r.kind with
  | .transform t _ _ =>
    match (t.run m b).ending with
    | .succeeded => some (t.run m b).body
    | .failed _ => none
    | .panicked _ => none
  | _ => none

/-- An interception with the body that it is run on. -/
structure Turn where
  interception : Interception
  body : MethodBody

/-- Whether the transformation succeeds at its turn. -/
def Turn.succeeds (m : MethodInfo) (t : Turn) : Bool := (edit? m t.body t.interception).isSome

/-- Whether a transformation is run at the turn and does not succeed. -/
def Turn.fails (m : MethodInfo) (t : Turn) : Bool :=
  t.interception.kind.tag = .transform ∧ !t.succeeds m

/-- The turns of interceptions: each one is run on what those before it left, and one that does
not succeed leaves the body as it was. -/
def turns (m : MethodInfo) : MethodBody → List Interception → List Turn
  | _, [] => []
  | b, r :: rs => ⟨r, b⟩ :: turns m ((edit? m b r).getD b) rs

/-- The turns are those of the transformations in their order. -/
@[simp] theorem map_turns (m : MethodInfo) (b : MethodBody) (rs : List Interception) :
    (turns m b rs).map (·.interception) = rs := by
  induction rs generalizing b with
  | nil => rfl
  | cons r rs ih => rw [turns, List.map_cons, ih]

/-- Whether a note says that the run of a transformation did not succeed. -/
structure Reports (m : MethodInfo) (t : Turn) (d : Diagnostic) : Prop where
  severity : d.severity = .error
  topic : d.topic = .transform
  method : d.method = some m.id
  handle : d.handle = some t.interception.handle

/-- A note about a turn reports it. -/
theorem reports_note (m : MethodInfo) (b : MethodBody) (r : Interception) (words : String) :
    Reports m ⟨r, b⟩ (note .error m.id r words) := ⟨rfl, rfl, rfl, rfl⟩

/-! ### One turn -/

section Turns

variable {m : MethodInfo} {b : MethodBody} {r : Interception} {rs : List Interception}

/-- **What a turn does**: it edits the body, or it fails and gives a note, or there is nothing to
run. -/
theorem apply_cases (m : MethodInfo) (b : MethodBody) (r : Interception) :
    (∃ b', edit? m b r = some b' ∧ apply m b r = (b', [])) ∨
    (edit? m b r = none ∧ Turn.fails m ⟨r, b⟩ ∧ ∃ d, Reports m ⟨r, b⟩ d ∧
      apply m b r = (b, [d])) ∨
    (edit? m b r = none ∧ ¬Turn.fails m ⟨r, b⟩ ∧ apply m b r = (b, [])) := by
  unfold edit? apply Turn.fails Turn.succeeds edit?
  cases hk : r.kind with
  | transform t underlying priority =>
    cases he : (t.run m b).ending with
    | succeeded =>
      refine .inl ⟨(t.run m b).body, ?_, ?_⟩ <;> simp only [he]
    | failed e =>
      exact .inr (.inl ⟨by simp only [he], by simp [he, InterceptionKind.tag], _,
        reports_note m b r s!"manipulator {t.describe} failed: {e.message}", by simp only [he]⟩)
    | panicked words =>
      exact .inr (.inl ⟨by simp only [he], by simp [he, InterceptionKind.tag], _,
        reports_note m b r (
          let words := words.getD "unknown panic"
          s!"manipulator {t.describe} panicked: {words}"), by simp only [he]⟩)
  | _ => exact .inr (.inr ⟨rfl, by simp [InterceptionKind.tag], rfl⟩)

/-- The body is what the run made of its copy if the run succeeded, and else what it was. -/
theorem fst_apply (m : MethodInfo) (b : MethodBody) (r : Interception) :
    (apply m b r).1 = (edit? m b r).getD b := by
  rcases apply_cases m b r with ⟨b', edited, applied⟩ | ⟨refused, -, d, -, applied⟩ |
    ⟨refused, -, applied⟩
  · rw [edited, applied]
    rfl
  · rw [refused, applied]
    rfl
  · rw [refused, applied]
    rfl

/-- The turns behind the first one meet the body that it leaves. -/
theorem applyAll_cons (m : MethodInfo) (b : MethodBody) (r : Interception)
    (rs : List Interception) : applyAll m b (r :: rs) =
      ((applyAll m ((edit? m b r).getD b) rs).1,
        (apply m b r).2 ++ (applyAll m ((edit? m b r).getD b) rs).2) := by
  rw [← fst_apply]
  rfl

/-- A turn that gives another body succeeds. -/
theorem succeeds_of_edit? {b' : MethodBody} (h : edit? m b r = some b') :
    Turn.succeeds m ⟨r, b⟩ = true := by
  rw [Turn.succeeds, h]
  rfl

/-- A turn that gives no other body does not succeed. -/
theorem not_succeeds_of_edit? (h : edit? m b r = none) : ¬Turn.succeeds m ⟨r, b⟩ = true := by
  rw [Turn.succeeds, h]
  exact Bool.false_ne_true

/-- A turn that gives another body does not fail. -/
theorem not_fails_of_edit? {b' : MethodBody} (h : edit? m b r = some b') :
    ¬Turn.fails m ⟨r, b⟩ = true := by
  rw [Turn.fails, succeeds_of_edit? h]
  simp

/-! ### All turns -/

/-- The body in the end is what the successful transformations make of the first one. -/
theorem foldlM_succeeding (m : MethodInfo) (b : MethodBody) (rs : List Interception) :
    (((turns m b rs).filter (·.succeeds m)).map (·.interception)).foldlM (edit? m) b =
      some (applyAll m b rs).1 := by
  induction rs generalizing b with
  | nil => rfl
  | cons r rs ih =>
    rw [turns, applyAll_cons]
    rcases edited : edit? m b r with _ | b'
    · rw [List.filter_cons_of_neg (not_succeeds_of_edit? edited)]
      exact ih b
    · rw [List.filter_cons_of_pos (succeeds_of_edit? edited), List.map_cons, List.foldlM_cons,
        edited]
      exact ih b'

/-- The notes are one for each transformation that fails, in their order. -/
theorem forall₂_reports (m : MethodInfo) (b : MethodBody) (rs : List Interception) :
    List.Forall₂ (Reports m) ((turns m b rs).filter (·.fails m)) (applyAll m b rs).2 := by
  induction rs generalizing b with
  | nil => exact .nil
  | cons r rs ih =>
    rw [turns, applyAll_cons]
    rcases apply_cases m b r with ⟨b', edited, applied⟩ | ⟨-, fails, d, reports, applied⟩ |
      ⟨-, idle, applied⟩
    · rw [List.filter_cons_of_neg (not_fails_of_edit? edited), applied]
      exact ih _
    · rw [List.filter_cons_of_pos fails, applied]
      exact .cons reports (ih _)
    · rw [List.filter_cons_of_neg idle, applied]
      exact ih _

/-- **What does not succeed can be left out**: with the same successful turns the body in the end
is the same. -/
theorem applyAll_of_sublist {kept : List Turn} (part : kept.Sublist (turns m b rs))
    (same : kept.filter (·.succeeds m) = (turns m b rs).filter (·.succeeds m)) :
    (applyAll m b (kept.map (·.interception))).1 = (applyAll m b rs).1 := by
  induction rs generalizing b kept with
  | nil =>
    rw [turns, List.sublist_nil] at part
    rw [part]
    rfl
  | cons r rs ih =>
    rw [turns] at part same
    rw [applyAll_cons]
    cases part with
    | cons_cons _ part =>
      rw [List.map_cons, applyAll_cons]
      refine ih part ?_
      by_cases succeeds : Turn.succeeds m ⟨r, b⟩ = true
      · rw [List.filter_cons_of_pos succeeds, List.filter_cons_of_pos succeeds] at same
        exact (List.cons.inj same).2
      · rwa [List.filter_cons_of_neg succeeds, List.filter_cons_of_neg succeeds] at same
    | cons _ part =>
      by_cases succeeds : Turn.succeeds m ⟨r, b⟩ = true
      · -- Turns behind a successful one cannot make up for it.
        have shorter := (part.filter (·.succeeds m)).length_le
        rw [same, List.filter_cons_of_pos succeeds, List.length_cons] at shorter
        exact absurd shorter (Nat.not_succ_le_self _)
      · have refused : edit? m b r = none := by
          rw [Turn.succeeds] at succeeds
          exact Option.not_isSome_iff_eq_none.1 succeeds
        rw [List.filter_cons_of_neg succeeds] at same
        rw [refused] at part same ⊢
        exact ih part same

end Turns

/-! ### Clones -/

section Clones

variable {ctx : Context} {bucket : Bucket} {method : SyntheticMethod} {notes : List Diagnostic}

/-- **When a target is cloned, and as what**: its body is the original with the transformations
replayed on it. -/
theorem clone_eq_ok : clone ctx bucket = .ok (some method, notes) ↔
    bucket.transforms ≠ [] ∧ ∃ m original signature paramNames,
      ctx.view.method bucket.target = some m ∧ ctx.view.body bucket.target = some original ∧
      staticSignature ctx.view m = .ok (signature, paramNames) ∧
      method = {
        name := m.name
        signature
        paramNames
        body := { (applyAll m original bucket.transforms).1 with
          maxStack := (applyAll m original bucket.transforms).1.estimateMaxStack }
        tags := bucket.transforms.flatMap fun r =>
          Provenance.tags ctx.view r bucket.target ctx.engine
        origin := some bucket.target } ∧
      notes = (applyAll m original bucket.transforms).2 := by
  constructor
  · intro h
    unfold clone at h
    split at h
    · cases h
    · rename_i some
      dsimp only at h
      split at h
      · cases h
      · rename_i m known
        split at h
        · cases h
        · rename_i original body
          obtain ⟨⟨signature, paramNames⟩, static, h⟩ := bind_eq_ok.1 h
          cases h
          exact ⟨fun none => some (List.isEmpty_iff.2 none), m, original, signature, paramNames,
            known, body, static, rfl, rfl⟩
  · rintro ⟨some, m, original, signature, paramNames, known, body, static, rfl, rfl⟩
    unfold clone
    rw [if_neg (fun none => some (List.isEmpty_iff.1 none))]
    dsimp only
    rw [known, body]
    exact bind_eq_ok.2 ⟨_, static, rfl⟩

/-- **Transformations are replayed all or nothing.**  The body of a clone is what the successful
transformations make of the original, apart from the depth of its stack, which is estimated.  For
each transformation that fails there is one note, and the tags are those of all transformations.
Without some of those that do not succeed, the clone has the same body. -/
theorem clone_replays (h : clone ctx bucket = .ok (some method, notes)) :
    ∃ m original edited,
      ctx.view.method bucket.target = some m ∧ ctx.view.body bucket.target = some original ∧
      (turns m original bucket.transforms).map (·.interception) = bucket.transforms ∧
      (((turns m original bucket.transforms).filter (·.succeeds m)).map
        (·.interception)).foldlM (edit? m) original = some edited ∧
      method.body = { edited with maxStack := edited.estimateMaxStack } ∧
      List.Forall₂ (Reports m) ((turns m original bucket.transforms).filter (·.fails m)) notes ∧
      method.tags = bucket.transforms.flatMap (fun r =>
        Provenance.tags ctx.view r bucket.target ctx.engine) ∧
      ∀ kept : List Turn, kept.Sublist (turns m original bucket.transforms) →
        kept.filter (·.succeeds m) =
          (turns m original bucket.transforms).filter (·.succeeds m) → kept ≠ [] →
        ∃ method' notes',
          clone ctx { bucket with transforms := kept.map (·.interception) } =
            .ok (some method', notes') ∧ method'.body = method.body := by
  obtain ⟨-, m, original, signature, paramNames, known, body, static, rfl, rfl⟩ := clone_eq_ok.1 h
  refine ⟨m, original, _, known, body, map_turns m original bucket.transforms,
    foldlM_succeeding m original bucket.transforms, rfl,
    forall₂_reports m original bucket.transforms, rfl, ?_⟩
  intro kept part same some
  have nonempty : kept.map (·.interception) ≠ [] := fun none => some (List.map_eq_nil_iff.1 none)
  refine ⟨_, _, clone_eq_ok.2 ⟨nonempty, m, original, signature, paramNames, known, body, static,
    rfl, rfl⟩, ?_⟩
  dsimp only
  rw [applyAll_of_sublist part same]

end Clones

/-! ### A target with transformations that fail -/

/-- A process with a static method that only returns. -/
def tickContext : Context where
  view := {
    method := fun id => some { id, name := "Tick", signature := {} }
    body := fun _ => some (.ofCode [(.ret, .none)])
    type := fun _ => none
    module := fun _ => none
    modules := []
    findType := fun _ => none
    patches := none }
  engine := none

/-- An interception whose transformation adds an instruction and then ends in a given way. -/
def adding (handle : UInt64) (ending : Ending) : Interception where
  handle := ⟨handle⟩
  target := some ⟨1⟩
  replacement := none
  kind := .transform {
    identity := handle.toNat
    run := fun _ b => ⟨(b.push .nop .none).2, ending⟩ } none none
  owner := none

/-- Between two transformations that succeed there is one that fails and one that dies. -/
def mixedBucket : Bucket where
  target := ⟨1⟩
  transforms := [adding 1 .succeeded, adding 2 (.failed (.typeNotFound ⟨7⟩)),
    adding 3 (.panicked none), adding 4 .succeeded]

/-- The hypothesis is satisfiable: two edits are left, two notes are made, and without the
transformation that fails the body is the same. -/
theorem clone_replays_mixed : ∃ method notes,
    clone tickContext mixedBucket = .ok (some method, notes) ∧
    method.body.instructions.map (·.opcode) = [.ret, .nop, .nop] ∧
    notes.map (·.handle) = [some ⟨2⟩, some ⟨3⟩] ∧
    ∃ method' notes', clone tickContext { mixedBucket with
        transforms := [adding 1 .succeeded, adding 3 (.panicked none), adding 4 .succeeded] } =
      .ok (some method', notes') ∧ method'.body = method.body := by
  have run := (@clone_eq_ok tickContext mixedBucket _ _).2
    ⟨List.cons_ne_nil _ _, _, _, _, _, rfl, rfl, rfl, rfl, rfl⟩
  obtain ⟨m, original, edited, known, body, -, -, -, -, -, without⟩ := clone_replays run
  cases known
  cases body
  refine ⟨_, _, run, rfl, rfl, ?_⟩
  exact without [_, _, _] (.cons_cons _ (.cons _ (.cons_cons _ (.cons_cons _ .slnil)))) rfl
    (List.cons_ne_nil _ _)

end Synthesis
end HookImage
