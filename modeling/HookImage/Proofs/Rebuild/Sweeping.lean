/-
# Validation is a filter

Validation first finds the invalid methods of an image, by their places, and then takes one after
the other out of its container.  It begins with the last one, so each is taken out while those
before it are where they were found: every removal meets the method that it is meant for, and
together they leave exactly the valid methods, in their order (`Validity.foldlM_remove_findings`,
`Validity.sweep_eq`).

A method that is left is as valid as it was before.  Checks read the symbols, the attribute and
the number of containers, and of the methods of an image only the constructor of the attribute can
be named, so it does not matter to them which other methods are there (`Validity.check_congr`).
-/

import Mathlib.Data.List.Forall2
import HookImage.Proofs.Success
import HookImage.Rebuild.Report

namespace HookImage

namespace Image

/-- The methods of the containers, by their numbers. -/
def methodLists (image : Image) : List (List SyntheticMethod) := image.containers.map (·.methods)

/-- The methods of an image are those of all its containers. -/
theorem methodCount_eq (image : Image) : image.methodCount = image.methodLists.flatten.length := by
  have counted (cs : List Container) (n : Nat) :
      ((cs.zipIdx n).flatMap fun p => p.1.methods.map (p.2, ·)).length =
        (cs.map (·.methods)).flatten.length := by
    induction cs generalizing n with
    | nil => rfl
    | cons c cs ih =>
      rw [List.zipIdx_cons, List.flatMap_cons, List.length_append, ih, List.length_map,
        List.map_cons, List.flatten_cons, List.length_append]
  exact counted image.containers 0

end Image

namespace Validity

variable {image image' : Image}

/-! ### What validation is to leave -/

/-- Whether a method is valid in an image. -/
def isValid (image : Image) (m : SyntheticMethod) : Bool := (check image m).isOk

/-- A method is valid if its check finds nothing. -/
theorem isValid_iff {m : SyntheticMethod} : isValid image m ↔ check image m = .ok () := by
  unfold isValid
  rcases check image m with fault | ⟨⟩
  · constructor <;> intro h <;> cases h
  · exact ⟨fun _ => rfl, fun _ => rfl⟩

/-- A method is invalid if its check finds a fault. -/
theorem isValid_eq_false_iff {m : SyntheticMethod} :
    isValid image m = false ↔ ∃ fault, check image m = .error fault := by
  unfold isValid
  rcases check image m with fault | ⟨⟩
  · exact ⟨fun _ => ⟨fault, rfl⟩, fun _ => rfl⟩
  · constructor
    · intro h
      cases h
    · rintro ⟨fault, h⟩
      cases h

/-- A container without its methods that are invalid in an image. -/
def prune (image : Image) (c : Container) : Container :=
  { c with methods := c.methods.filter (isValid image) }

/-- The notes about the invalid methods of a container, in order. -/
def removals (image : Image) (c : Container) : List Diagnostic :=
  c.methods.filterMap fun m =>
    match check image m with
    | .error fault => some (removal c.name m fault)
    | .ok () => none

/-! ### One removal after the other -/

/-- Takes the method of a finding out of an image, if it is there. -/
def remove (image : Image) (f : Finding) : Option Image :=
  (image.removeMethod f.container f.index).map (·.2)

/-- Removing what was found takes one method out of its container. -/
theorem eq_of_remove {f : Finding} (h : remove image f = some image') :
    image' = { image with containers := takeOut image.containers f } := by
  obtain ⟨⟨m, left⟩, removed, rfl⟩ := Option.map_eq_some_iff.1 h
  obtain ⟨c, -, removed⟩ := Option.bind_eq_some_iff.1 removed
  obtain ⟨m', -, removed⟩ := Option.bind_eq_some_iff.1 removed
  cases removed
  rfl

/-- Removals that all meet a method change nothing but the containers. -/
theorem eq_of_foldlM_remove {found : List Finding} (h : found.foldlM remove image = some image') :
    image' = { image with containers := found.foldl takeOut image.containers } := by
  induction found generalizing image with
  | nil =>
    cases h
    rfl
  | cons f found ih =>
    obtain ⟨image₁, first, rest⟩ := Option.bind_eq_some_iff.1 h
    cases eq_of_remove first
    exact ih rest

/-- Changing the member at a cut leaves what comes before it and behind it. -/
theorem modify_at {α : Type} (f : α → α) (before after : List α) (x : α) :
    (before ++ x :: after).modify before.length f = before ++ f x :: after := by
  induction before with
  | nil => rfl
  | cons y before ih => rw [List.cons_append, List.length_cons, List.modify_succ_cons, ih]; rfl

/-- The method behind some others of a container is taken out of it. -/
theorem remove_at {before after : List Container} {c : Container} {front back : List SyntheticMethod}
    {m : SyntheticMethod} (here : image.containers = before ++ c :: after)
    (methods : c.methods = front ++ m :: back) (note : Diagnostic) :
    remove image ⟨before.length, front.length, note⟩ =
      some { image with containers := before ++ { c with methods := front ++ back } :: after } := by
  have container : image.containers[before.length]? = some c := by simp [here]
  have method : c.methods[front.length]? = some m := by simp [methods]
  have erased : c.withoutMethod front.length = { c with methods := front ++ back } := by
    rw [Container.withoutMethod, methods, List.eraseIdx_append_of_length_le (Nat.le_refl _),
      Nat.sub_self, List.eraseIdx_cons_zero]
  simp only [remove, Image.removeMethod, container, method, Option.pure_def, Option.bind_some,
    Option.bind_eq_bind, Option.map_some]
  rw [here, modify_at, erased]

/-- The invalid ones among the last methods of a container, by their places. -/
def findingsFrom (image : Image) (name : String) (id : ContainerId) (ms : List SyntheticMethod)
    (start : Nat) : List Finding :=
  (ms.zipIdx start).filterMap fun (m, index) =>
    match check image m with
    | .error fault => some ⟨id, index, removal name m fault⟩
    | .ok () => none

/-- In one container, the last methods are filtered if the last finding is taken out first. -/
theorem foldlM_remove_findingsFrom (seen : Image) {before after : List Container} {c : Container}
    {ms : List SyntheticMethod} (front : List SyntheticMethod)
    (here : image.containers = before ++ c :: after)
    (methods : c.methods = front ++ ms) :
    (findingsFrom seen c.name before.length ms front.length).reverse.foldlM remove image =
      some { image with containers :=
        before ++ { c with methods := front ++ ms.filter (isValid seen) } :: after } := by
  induction ms generalizing front with
  | nil =>
    have same : { c with methods := front ++ [] } = c := by rw [← methods]
    rw [List.filter_nil, same, ← here]
    rfl
  | cons m ms ih =>
    have later := ih (front ++ [m]) (by rw [methods, List.append_assoc]; rfl)
    rw [List.length_append, List.length_singleton] at later
    cases checked : check seen m with
    | ok u =>
      have valid : isValid seen m = true := isValid_iff.2 checked
      have none : findingsFrom seen c.name before.length (m :: ms) front.length =
          findingsFrom seen c.name before.length ms (front.length + 1) := by
        rw [findingsFrom, List.zipIdx_cons, List.filterMap_cons_none (by simp [checked])]
        rfl
      rw [none, later, List.filter_cons_of_pos valid, List.append_assoc]
      rfl
    | error fault =>
      have invalid : isValid seen m = false := isValid_eq_false_iff.2 ⟨fault, checked⟩
      have found : findingsFrom seen c.name before.length (m :: ms) front.length =
          ⟨before.length, front.length, removal c.name m fault⟩ ::
            findingsFrom seen c.name before.length ms (front.length + 1) := by
        rw [findingsFrom, List.zipIdx_cons, List.filterMap_cons_some (by simp [checked]; rfl)]
        rfl
      rw [found, List.reverse_cons, List.foldlM_append, later, Option.bind_eq_bind,
        Option.bind_some, List.filter_cons_of_neg (by simp [invalid]), List.append_assoc,
        List.foldlM_cons]
      let left : Container := { c with methods := front ++ m :: ms.filter (isValid seen) }
      have here' : { image with containers := before ++ left :: after }.containers =
        before ++ left :: after := rfl
      exact congrArg (Option.bind · some) (remove_at here' rfl (removal c.name m fault))

/-- In an image, the last containers are filtered if the last finding is taken out first. -/
theorem foldlM_remove_flatMap (seen : Image) (before : List Container) {cs : List Container}
    (here : image.containers = before ++ cs) :
    ((cs.zipIdx before.length).flatMap (findingsIn seen)).reverse.foldlM remove image =
      some { image with containers := before ++ cs.map (prune seen) } := by
  induction cs generalizing before with
  | nil =>
    rw [List.map_nil, ← here]
    rfl
  | cons c cs ih =>
    have later := ih (before ++ [c]) (by rw [here, List.append_assoc]; rfl)
    rw [List.length_append, List.length_singleton, List.append_assoc] at later
    rw [List.zipIdx_cons, List.flatMap_cons, List.reverse_append, List.foldlM_append, later]
    exact foldlM_remove_findingsFrom seen [] rfl rfl

/-- **Every removal meets its method, and together they leave the valid ones.** -/
theorem foldlM_remove_findings (image : Image) :
    (findings image).reverse.foldlM remove image =
      some { image with containers := image.containers.map (prune image) } :=
  foldlM_remove_flatMap image [] rfl

/-- The notes of what was found are those of the containers in their order. -/
theorem notes_findings (image : Image) :
    (findings image).map (·.note) = image.containers.flatMap (removals image) := by
  have ofContainer (entry : Container × ContainerId) :
      (findingsIn image entry).map (·.note) = removals image entry.1 := by
    rw [findingsIn, removals, List.map_filterMap]
    conv_rhs => rw [← List.zipIdx_map_fst 0 entry.1.methods, List.filterMap_map]
    refine List.filterMap_congr fun p _ => ?_
    show Option.map _ (match check image p.1 with | .error fault => _ | .ok () => _) =
      (match check image p.1 with | .error fault => _ | .ok () => _)
    cases check image p.1 <;> rfl
  rw [findings, List.map_flatMap]
  conv_rhs => rw [← List.zipIdx_map_fst 0 image.containers, List.flatMap_map]
  exact congrArg (List.flatMap · _) (funext ofContainer)

/-- Validation keeps the valid methods of every container and leaves everything else. -/
theorem sweep_eq (image : Image) :
    sweep image = ({ image with containers := image.containers.map (prune image) },
      (image.containers.flatMap (removals image)).reverse) := by
  have left := eq_of_foldlM_remove (foldlM_remove_findings image)
  have notes : (findings image).reverse.map (·.note) =
      (image.containers.flatMap (removals image)).reverse := by
    rw [List.map_reverse, notes_findings]
  rw [left, ← notes]
  rfl

/-! ### The methods that are left -/

/-- What a token denotes depends on the symbols, the attribute and the number of containers
alone. -/
theorem denote_congr (symbols : image'.symbols = image.symbols)
    (provenance : image'.provenance = image.provenance)
    (containers : image'.containers.length = image.containers.length) :
    denote image' = denote image := by
  funext t
  simp only [denote, Image.definesType, symbols, provenance, containers]
  rfl

/-- Where tokens denote the same, the same instructions are valid. -/
theorem checkInstruction_congr (symbols : image'.symbols = image.symbols)
    (denotes : denote image' = denote image) (b : MethodBody) :
    checkInstruction image' b = checkInstruction image b := by
  funext i
  simp only [checkInstruction, checkToken, checkMember, checkParent, symbols, denotes]

/-- Where tokens denote the same, the same regions are valid. -/
theorem checkRegion_congr (denotes : denote image' = denote image) (b : MethodBody) :
    checkRegion image' b = checkRegion image b := by
  funext r
  simp only [checkRegion, checkCatch, denotes]

/-- **Checks do not see the methods of an image**, only its symbols, its attribute and how many
containers it has. -/
theorem check_congr (symbols : image'.symbols = image.symbols)
    (provenance : image'.provenance = image.provenance)
    (containers : image'.containers.length = image.containers.length) :
    check image' = check image := by
  have denotes := denote_congr symbols provenance containers
  funext m
  simp only [check, checkLocals, checkInstruction_congr symbols denotes, checkRegion_congr denotes,
    denotes]

/-- **Validation does not change what is valid.** -/
@[simp] theorem check_sweep (image : Image) : check (sweep image).1 = check image := by
  rw [sweep_eq]
  exact check_congr rfl rfl (List.length_map _)

/-- An image with valid methods only is left as it is. -/
theorem sweep_of_valid (valid : ∀ c ∈ image.containers, ∀ m ∈ c.methods, isValid image m) :
    sweep image = (image, []) := by
  have same (c : Container) (hc : c ∈ image.containers) : prune image c = c := by
    rw [prune, List.filter_eq_self.2 (valid c hc)]
  have silent (c : Container) (hc : c ∈ image.containers) : removals image c = [] := by
    refine List.filterMap_eq_nil_iff.2 fun m hm => ?_
    rw [isValid_iff.1 (valid c hc m hm)]
  rw [sweep_eq, List.map_congr_left same, List.map_id'' fun _ => rfl,
    List.flatMap_eq_nil_iff.2 silent]
  rfl

/-- What is left after validation is valid. -/
theorem check_of_mem_sweep {c : Container} (hc : c ∈ (sweep image).1.containers)
    {m : SyntheticMethod} (hm : m ∈ c.methods) : check image m = .ok () := by
  rw [sweep_eq] at hc
  obtain ⟨c, _, rfl⟩ := List.mem_map.1 hc
  exact isValid_iff.1 (List.mem_filter.1 hm).2

/-! ### What is noted -/

/-- The invalid methods of an image with their containers, in order. -/
def invalid (image : Image) : List (Container × SyntheticMethod) :=
  image.containers.flatMap fun c => (c.methods.filter (!isValid image ·)).map (c, ·)

/-- Whether a diagnostic is the error about an invalid method. -/
def Explains (image : Image) (entry : Container × SyntheticMethod) (note : Diagnostic) : Prop :=
  ∃ fault, check image entry.2 = .error fault ∧ note = removal entry.1.name entry.2 fault

/-- The notes about a container explain the removal of its invalid methods, in their order. -/
theorem removals_explain (image : Image) (c : Container) :
    List.Forall₂ (Explains image) ((c.methods.filter (!isValid image ·)).map (c, ·))
      (removals image c) := by
  unfold removals
  induction c.methods with
  | nil => exact .nil
  | cons m ms ih =>
    cases checked : check image m with
    | ok u =>
      have valid : isValid image m = true := isValid_iff.2 checked
      rw [List.filter_cons_of_neg (by simp [valid]), List.filterMap_cons_none (by simp [checked])]
      exact ih
    | error fault =>
      have invalid : isValid image m = false := isValid_eq_false_iff.2 ⟨fault, checked⟩
      rw [List.filter_cons_of_pos (by simp [invalid]), List.map_cons,
        List.filterMap_cons_some (by simp [checked]; rfl)]
      exact .cons ⟨fault, checked, rfl⟩ ih

/-- **Validation explains each method that it takes out**, the last one first. -/
theorem sweep_explains (image : Image) :
    List.Forall₂ (Explains image) (invalid image) (sweep image).2.reverse := by
  rw [sweep_eq, List.reverse_reverse]
  unfold invalid
  induction image.containers with
  | nil => exact .nil
  | cons c cs ih =>
    rw [List.flatMap_cons, List.flatMap_cons]
    exact List.rel_append (removals_explain image c) ih

/-- **Validation notes as many methods as it takes out.** -/
theorem methodCount_sweep (image : Image) :
    (sweep image).1.methodCount + (sweep image).2.length = image.methodCount := by
  have partition (cs : List Container) :
      ((cs.map (prune image)).map (·.methods)).flatten.length +
        (cs.flatMap fun c => (c.methods.filter (!isValid image ·)).map (c, ·)).length =
          (cs.map (·.methods)).flatten.length := by
    induction cs with
    | nil => rfl
    | cons c cs ih =>
      have first : (prune image c).methods.length +
          (c.methods.filter (!isValid image ·)).length = c.methods.length := by
        rw [prune, ← List.countP_eq_length_filter, ← List.countP_eq_length_filter]
        simpa using (List.length_eq_countP_add_countP (l := c.methods) (isValid image)).symm
      simp only [List.map_cons, List.flatten_cons, List.flatMap_cons, List.length_append,
        List.length_map] at ih ⊢
      omega
  rw [← List.length_reverse, ← (sweep_explains image).length_eq, Image.methodCount_eq,
    Image.methodCount_eq, sweep_eq]
  exact partition image.containers

/-- Every note of validation is an error. -/
theorem mem_sweep {d : Diagnostic} (h : d ∈ (sweep image).2) :
    d.severity = .error ∧ d.topic = .validation := by
  rw [sweep_eq, List.mem_reverse] at h
  obtain ⟨c, -, removed⟩ := List.mem_flatMap.1 h
  obtain ⟨m, -, noted⟩ := List.mem_filterMap.1 removed
  split at noted
  · cases noted
    exact ⟨rfl, rfl⟩
  · cases noted

/-- **Validation is a filter.**  It leaves in each container exactly the methods that are valid in
the image as it was, in their order, and everything else.  The methods can be taken out one after
the other, where each removal meets a method, and validation notes one error for each, the last one
first.  Methods are as valid afterwards as they were before; what is left is valid, and validation
takes nothing out of it. -/
theorem sweep_filters (image : Image) : ∃ left notes, sweep image = (left, notes) ∧
    left = { image with containers := image.containers.map fun c =>
      { c with methods := c.methods.filter fun m => (check image m).isOk } } ∧
    (findings image).reverse.foldlM remove image = some left ∧
    List.Forall₂ (Explains image) (invalid image) notes.reverse ∧
    (∀ note ∈ notes, note.severity = .error ∧ note.topic = .validation) ∧
    left.methodCount + notes.length = image.methodCount ∧
    (∀ m, check left m = check image m) ∧
    (∀ c ∈ left.containers, ∀ m ∈ c.methods, check left m = .ok ()) ∧
    sweep left = (left, []) := by
  have valid (c : Container) (hc : c ∈ (sweep image).1.containers) (m : SyntheticMethod)
      (hm : m ∈ c.methods) : check (sweep image).1 m = .ok () := by
    rw [check_sweep]
    exact check_of_mem_sweep hc hm
  refine ⟨(sweep image).1, (sweep image).2, rfl, congrArg Prod.fst (sweep_eq image), ?_,
    sweep_explains image, fun _ => mem_sweep, methodCount_sweep image,
    congrFun (check_sweep image), valid, ?_⟩
  · rw [foldlM_remove_findings, sweep_eq]
  · exact sweep_of_valid fun c hc m hm => isValid_iff.2 (valid c hc m hm)

end Validity

end HookImage
