/-
# Nothing is dropped silently

The interceptions of a target call for pieces in a fixed order: copies for its redirects, the last
one first, copies for its native jumps in the same way, and the clone (`Reconstruction.pieces`).
The methods that are made for a target stand for some of them, and if one is missing there is an
error about the target (`Reconstruction.made_pieces`).  At the end validation leaves an error for
each method that it takes out and says nothing else (`Validity.methodCount_sweep`), and no one else
speaks of validation, so the numbers agree (`Snapshot.reconstruct_accounts`).
-/

import Mathlib
import HookImage.Proofs.Cil.Placement
import HookImage.Proofs.Rebuild.Isolation

namespace HookImage

/-- The number of errors of a topic is the number of notes that are one. -/
theorem Diagnostics.size_errors_ofTopic (ds : Diagnostics) (t : Topic) :
    (ds.errors.ofTopic t).size =
      ds.toList.countP fun d => d.topic == t && d.severity == .error := by
  unfold errors ofSeverity ofTopic
  rw [← Array.length_toList, Array.toList_filter, Array.toList_filter, List.filter_filter,
    List.countP_eq_length_filter]

namespace Reconstruction

variable {view : HostView} {options : Options}

/-! ### What interceptions call for -/

/-- What an interception calls for: a copy, numbered among those of its mechanism, or a clone. -/
inductive Piece where
  | copy (index : Nat) (r : Interception)
  | clone

/-- Copies for interceptions, the last one first, numbered from zero. -/
def Piece.copies (records : List Interception) : List Piece :=
  records.reverse.zipIdx.map fun (r, index) => .copy index r

/-- What the interceptions of a target call for, in order. -/
def pieces (options : Options) (records : List Interception) : List Piece :=
  (if options.copyReplacements then
    Piece.copies (Bucket.ofTag records .redirect) ++ Piece.copies (Bucket.ofTag records .native)
    else []) ++
  if records.any (·.kind.tag == .transform) then [.clone] else []

/-- How many methods the interceptions of a target call for: one for each redirect and for each
native jump, as far as they are copied, and one if there is a transformation. -/
def expected (options : Options) (records : List Interception) : Nat :=
  (if options.copyReplacements then
    records.countP (·.kind.tag == .redirect) + records.countP (·.kind.tag == .native) else 0) +
  if records.any (·.kind.tag == .transform) then 1 else 0

/-- There is a copy for each interception. -/
@[simp] theorem Piece.length_copies (records : List Interception) :
    (Piece.copies records).length = records.length := by
  simp [Piece.copies]

/-- There are as many pieces as are called for. -/
@[simp] theorem length_pieces (options : Options) (records : List Interception) :
    (pieces options records).length = expected options records := by
  unfold pieces expected
  rw [List.length_append]
  congr 1
  · split
    · simp [Bucket.ofTag, List.countP_eq_length_filter]
    · rfl
  · split <;> rfl

/-- Whether a method is what a piece becomes for a target, before its import. -/
inductive Piece.Gives (view : HostView) (options : Options) (target : MethodInfo) (bucket : Bucket) :
    Piece → SyntheticMethod → Prop
  | copy (index : Nat) (r : Interception) : Gives view options target bucket (.copy index r)
      (Synthesis.copy ⟨view, options.patchEngine⟩ target index r).1
  | clone {m : SyntheticMethod} {notes : List Diagnostic}
    (cloned : Synthesis.clone ⟨view, options.patchEngine⟩ bucket = .ok (some m, notes)) :
    Gives view options target bucket .clone m

/-- Each copy is what one of the interceptions gives. -/
theorem gives_copies (target : MethodInfo) (bucket : Bucket) (records : List Interception) :
    List.Forall₂ (Piece.Gives view options target bucket) (Piece.copies records)
      ((Synthesis.copyAll ⟨view, options.patchEngine⟩ target records).map (·.1)) := by
  rw [Piece.copies, Synthesis.copyAll, List.map_map, List.forall₂_map_left_iff,
    List.forall₂_map_right_iff, List.forall₂_same]
  exact fun p _ => .copy p.2 p.1

/-- A bucket has no transformations exactly if none was registered. -/
theorem transforms_eq_nil (id : MethodId) {records : List Interception} :
    (Bucket.classify id records).transforms = [] ↔
      records.any (·.kind.tag == .transform) = false := by
  have same : (Bucket.classify id records).transforms.length =
      (Bucket.ofTag records .transform).length := List.length_mergeSort _
  rw [← List.length_eq_zero_iff, same, List.length_eq_zero_iff, Bucket.ofTag,
    List.filter_eq_nil_iff, List.any_eq_false]

/-- **What is made for a target**: what its interceptions call for, in order.  If something is
missing, there is an error about the target. -/
theorem made_pieces (options : Options) {group : MethodId × List Interception} {target : MethodInfo}
    (known : view.method group.1 = some target) :
    ∃ kept, kept.Sublist (pieces options group.2) ∧
      List.Forall₂ (Piece.Gives view options target (.classify group.1 group.2)) kept
        (made view options target (.classify group.1 group.2)) ∧
      (kept ≠ pieces options group.2 →
        ∃ d ∈ (clones view options target (.classify group.1 group.2)).2, d.Blames group.1) := by
  let bucket := Bucket.classify group.1 group.2
  let front := if options.copyReplacements then
    Piece.copies (Bucket.ofTag group.2 .redirect) ++ Piece.copies (Bucket.ofTag group.2 .native)
    else []
  have copied : List.Forall₂ (Piece.Gives view options target bucket) front
      (copies view options target bucket).1 := by
    rw [copies_eq known]
    dsimp only [front]
    split
    · dsimp only
      rw [List.map_append]
      exact List.rel_append (gives_copies ..) (gives_copies ..)
    · exact .nil
  have called : pieces options group.2 =
    front ++ if group.2.any (·.kind.tag == .transform) then [.clone] else [] := rfl
  unfold made
  rcases clones_cases view options target bucket with
    ⟨idle, none⟩ | ⟨m, notes, cloned, one⟩ | ⟨d, blames, -, refused⟩
  · rw [(transforms_eq_nil group.1).1 idle, if_neg Bool.false_ne_true, List.append_nil] at called
    refine ⟨front, called ▸ .refl _, ?_, fun other => absurd called.symm other⟩
    rw [none, List.append_nil]
    exact copied
  · have transformed : group.2.any (·.kind.tag == .transform) = true := by
      rw [← Bool.not_eq_false, ← transforms_eq_nil group.1]
      exact (Synthesis.clone_eq_ok.1 cloned).1
    rw [if_pos transformed] at called
    refine ⟨front ++ [.clone], called ▸ .refl _, ?_, fun other => absurd called.symm other⟩
    rw [one]
    exact List.rel_append copied (.cons (.clone cloned) .nil)
  · refine ⟨front, ?_, ?_, fun _ => ⟨d, ?_, blames⟩⟩
    · rw [called]
      exact List.sublist_append_left _ _
    · rw [refused, List.append_nil]
      exact copied
    · rw [refused]
      exact List.mem_singleton_self _

/-- Whether a method is what a piece becomes for a target in the end. -/
def Piece.Becomes (view : HostView) (options : Options) (group : MethodId × List Interception)
    (p : Piece) (m' : SyntheticMethod) : Prop :=
  ∃ target m, view.method group.1 = some target ∧
    p.Gives view options target (.classify group.1 group.2) m ∧ m.ImportedAs view m'

/-- **What a target adds**: what its interceptions call for, in order, at the end of one container.
If something is missing, there is an error about the target. -/
theorem processTarget_accounts {r : Reconstruction} (founded : r.placement.Founded r.image)
    (group : MethodId × List Interception) :
    let r' := r.processTarget view options group
    ∃ added notes, r.image.Gains added r'.image ∧ r'.diagnostics = r.diagnostics ++ notes ∧
      added.length ≤ expected options group.2 ∧
      (added.length < expected options group.2 → ∃ d ∈ notes, Diagnostic.Blames d group.1) ∧
      ∃ kept, kept.Sublist (pieces options group.2) ∧
        List.Forall₂ (Piece.Becomes view options group) kept added := by
  intro r'
  obtain ⟨-, -, added, notes, gains, noted, -, outcome⟩ :=
    processTarget_gains view options founded group
  refine ⟨added, notes, gains, noted, ?_⟩
  rcases outcome with ⟨rfl, blamed⟩ | ⟨target, known, cloned, imported⟩
  · exact ⟨Nat.zero_le _, fun _ => blamed, [], List.nil_sublist _, .nil⟩
  · obtain ⟨kept, part, gives, missing⟩ := made_pieces options known
    have length : kept.length = added.length := gives.length_eq.trans imported.length_eq
    rw [← length, ← length_pieces]
    refine ⟨part.length_le, fun fewer => ?_, kept, part, ?_⟩
    · obtain ⟨d, hd, blames⟩ := missing fun all => Nat.lt_irrefl _ (all ▸ fewer)
      exact ⟨d, cloned d hd, blames⟩
    · exact forall₂_trans
        (fun _ m _ gives imported => ⟨target, m, known, gives, imported.importedAs⟩) gives imported

end Reconstruction

namespace Snapshot

open Reconstruction

variable {view : HostView} {options : Options}

/-- **Nothing is dropped silently.**  At its turn a target adds methods at the end of one container:
some of what its interceptions call for, in order.  It adds fewer than they call for only with an
error about it.  At the end validation takes out as many methods as are counted, with an error
for each. -/
theorem reconstruct_accounts {s : Snapshot} {report : Report}
    (h : s.reconstruct view options = .ok report) :
    ∃ first, start view options = .ok first ∧
      (∀ before group after, s.groups = before ++ group :: after →
        let r := first.process view options ⟨before⟩
        let r' := r.processTarget view options group
        ∃ added notes, r.image.Gains added r'.image ∧ r'.diagnostics = r.diagnostics ++ notes ∧
          added.length ≤ expected options group.2 ∧
          (added.length < expected options group.2 → ∃ d ∈ notes, Diagnostic.Blames d group.1) ∧
          ∃ kept, kept.Sublist (pieces options group.2) ∧
            List.Forall₂ (Piece.Becomes view options group) kept added) ∧
      (first.process view options s).image.methodCount =
        report.image.methodCount + report.pruned ∧
      (report.diagnostics.errors.ofTopic .validation).size = report.pruned := by
  obtain ⟨first, started, h⟩ := bind_eq_ok.1 h
  refine ⟨first, started, fun before group after _ => processTarget_accounts
    (process_founded view options (start_founded started) ⟨before⟩) group, ?_⟩
  obtain ⟨image, placement, notes, topics, run⟩ :=
    adds_process view options s first.image first.placement
  have done : first.process view options s = ⟨image, placement, first.diagnostics ++ notes, _⟩ :=
    run _ _
  obtain ⟨_, _, same⟩ := bind_eq_ok.1 started
  cases same
  rw [done, finish_mk] at h
  cases h
  rw [done]
  refine ⟨(Validity.methodCount_sweep image).symm, ?_⟩
  have earlier : notes.toList.countP (fun d => d.topic == .validation && d.severity == .error) = 0 :=
    List.countP_eq_zero.2 fun d hd => by simp [topics d (Array.mem_toList_iff.1 hd)]
  have swept : (Validity.sweep image).2.countP
      (fun d => d.topic == .validation && d.severity == .error) = (Validity.sweep image).2.length :=
    List.countP_eq_length.2 fun d hd => by simp [Validity.mem_sweep hd]
  rw [Diagnostics.size_errors_ofTopic, Array.toList_append, Array.toList_append, List.countP_append,
    List.countP_append, earlier, List.toList_toArray, swept]
  exact Nat.zero_add _

/-- The hypothesis is satisfiable: the target in the middle adds nothing, with an error about it, and
validation finds nothing wrong with the methods of the others. -/
theorem reconstruct_accounts_clock : ∃ report first notes,
    reconstruct ⟨[transformed 1, transformed 2, transformed 3]⟩ clockView {} = .ok report ∧
    start clockView {} = .ok first ∧
    ((first.process clockView {} ⟨[transformed 1]⟩).processTarget clockView {}
      (transformed 2)).diagnostics =
        (first.process clockView {} ⟨[transformed 1]⟩).diagnostics ++ notes ∧
    (∃ d ∈ notes, Diagnostic.Blames d ⟨2⟩) ∧
    report.image.methodCount = 2 ∧ (report.diagnostics.errors.ofTopic .validation).size = 0 := by
  have facts : (match reconstruct ⟨[transformed 1, transformed 2, transformed 3]⟩ clockView {} with
      | .ok report => report.image.methodCount == 2 && report.pruned == 0
      | .error _ => false) = true := by cbv
  split at facts
  · rename_i report h
    rw [Bool.and_eq_true] at facts
    obtain ⟨first, started, turn, -, validation⟩ := reconstruct_accounts h
    obtain ⟨added, notes, gains, noted, -, blamed, -⟩ :=
      turn [transformed 1] (transformed 2) [transformed 3] rfl
    have same := (methodCount_processTarget_eq_iff clockView {}
      (process_founded clockView {} (start_founded started) ⟨[transformed 1]⟩) (transformed 2)).2
        (.inr ⟨_, rfl, .inr (.inl rfl)⟩)
    have none : added.length = 0 := Nat.add_left_cancel (gains.1.symm.trans same)
    have one : expected {} (transformed 2).2 = 1 := by decide
    refine ⟨report, first, notes, h, started, noted, blamed ?_, eq_of_beq facts.1,
      validation.trans (eq_of_beq facts.2)⟩
    rw [none, one]
    exact Nat.zero_lt_one
  · cases facts

end Snapshot

end HookImage
