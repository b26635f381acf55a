/-
# What a target adds

Work on a target ends early or adds methods (`Reconstruction.Fate`).  Where it ends early, the image
and the placement are what they were before: nothing is imported and no container is made before
there are methods to put into it, and a container that cannot be made leaves none of those around
it behind.  Else the methods come behind those of one container
(`Reconstruction.processTarget_gains`).

What was noted before does not matter for any of this, and neither does the number of targets
(`Reconstruction.adds_process`).
-/

import HookImage.Proofs.Import.Growth
import HookImage.Proofs.Rebuild.Housing
import HookImage.Proofs.Rebuild.Replay
import HookImage.Proofs.Rebuild.Sweeping
import HookImage.Proofs.Signature.Alike
import HookImage.Rebuild.Report

namespace HookImage

/-- Whether an entry is an error about a method. -/
def Diagnostic.Blames (d : Diagnostic) (m : MethodId) : Prop :=
  d.severity = .error ∧ d.method = some m

/-- Notes are added in the order of their list. -/
theorem Diagnostics.append_list (ds : Diagnostics) (notes : List Diagnostic) :
    ds ++ notes = ds ++ notes.toArray := Array.ext' (by simp)

/-! ### Methods of an image -/

namespace Image

/-- The methods of a container. -/
def methodsIn (image : Image) (id : ContainerId) : List SyntheticMethod :=
  (image.methodLists[id]?).getD []

/-- Whether an image has the methods of another one and some more, which come in their order behind
those of one container. -/
def Gains (image : Image) (added : List SyntheticMethod) (image' : Image) : Prop :=
  image'.methodCount = image.methodCount + added.length ∧
    ∃ id, ∀ k, image'.methodsIn k = image.methodsIn k ++ if k = id then added else []

/-- An image gains nothing to be itself. -/
theorem gains_nil (image : Image) : image.Gains [] image := by
  refine ⟨rfl, 0, fun k => ?_⟩
  split <;> rw [List.append_nil]

/-- Methods added to one container are added to the whole. -/
theorem length_flatten_modify {xs : List (List SyntheticMethod)} {id : Nat} (here : id < xs.length)
    (added : List SyntheticMethod) :
    (xs.modify id (· ++ added)).flatten.length = xs.flatten.length + added.length := by
  induction xs generalizing id with
  | nil => cases here
  | cons x xs ih =>
    cases id with
    | zero => simp; omega
    | succ id =>
      have rest := ih (Nat.lt_of_succ_lt_succ here)
      rw [List.modify_succ_cons, List.flatten_cons, List.flatten_cons, List.length_append,
        List.length_append, rest]
      omega

section Gaining

variable {image image' : Image} {added : List SyntheticMethod} {fresh : Nat} {id : ContainerId}

/-- A target adds as many containers as are new. -/
theorem length_of_methodLists
    (lists : image'.methodLists =
      (image.methodLists ++ List.replicate fresh []).modify id (· ++ added)) :
    image'.containers.length = image.methodLists.length + fresh := by
  have lengths := congrArg List.length lists
  rwa [List.length_modify, List.length_append, List.length_replicate, methodLists,
    List.length_map] at lengths

/-- New containers are empty, so only one container gains methods. -/
theorem methodsIn_of_methodLists (here : id < image'.containers.length)
    (lists : image'.methodLists =
      (image.methodLists ++ List.replicate fresh []).modify id (· ++ added)) (k : ContainerId) :
    image'.methodsIn k = image.methodsIn k ++ if k = id then added else [] := by
  have before : ((image.methodLists ++ List.replicate fresh [])[k]?).getD [] =
      image.methodsIn k := by
    rw [methodsIn, List.getElem?_append]
    split
    · rfl
    · rename_i outside
      rw [List.getElem?_eq_none (Nat.le_of_not_lt outside), List.getElem?_replicate]
      split <;> rfl
  rw [methodsIn, lists, List.getElem?_modify, ← before]
  by_cases same : id = k
  · subst same
    have found : id < (image.methodLists ++ List.replicate fresh []).length := by
      rw [List.length_append, List.length_replicate, ← length_of_methodLists lists]
      exact here
    rw [List.getElem?_eq_getElem found]
    simp
  · simp [same, Ne.symm same]

/-- An image gains what one of its containers gains. -/
theorem gains_of_methodLists (here : id < image'.containers.length)
    (lists : image'.methodLists =
      (image.methodLists ++ List.replicate fresh []).modify id (· ++ added)) :
    image.Gains added image' := by
  refine ⟨?_, id, methodsIn_of_methodLists here lists⟩
  rw [methodCount_eq, methodCount_eq, lists, length_flatten_modify]
  · simp
  · rw [List.length_append, List.length_replicate, ← length_of_methodLists lists]
    exact here

end Gaining

/-- A method that is added to a container that is there comes behind those of the container. -/
theorem exists_addMethod (image : Image) {id : ContainerId} (here : id < image.containers.length)
    (m : SyntheticMethod) : ∃ place image', image.addMethod id m = some (place, image') ∧
      image'.symbols = image.symbols ∧ image'.outline = image.outline ∧
      image'.roots = image.roots ∧
      image'.methodLists = image.methodLists.modify id (· ++ [m]) := by
  obtain ⟨place, added⟩ : ∃ place, image.addMethod id m = some (place, { image with
      containers := image.containers.modify id fun c => { c with methods := c.methods ++ [m] } }) :=
    ⟨_, by rw [addMethod, List.getElem?_eq_getElem here, Option.map_some]⟩
  refine ⟨place, _, added, rfl, ?_, rfl, ?_⟩
  · refine List.ext_getElem? fun k => ?_
    rw [outline, outline, List.getElem?_map, List.getElem?_modify, List.getElem?_map]
    by_cases same : id = k
    · simp only [same, if_true, Option.map_eq_map, Option.map_map]
      rfl
    · simp [same]
  · refine List.ext_getElem? fun k => ?_
    rw [methodLists, List.getElem?_map, List.getElem?_modify, methodLists, List.getElem?_modify,
      List.getElem?_map]
    by_cases same : id = k
    · simp only [same, if_true, Option.map_eq_map, Option.map_map]
      rfl
    · simp [same]

end Image

/-! ### Containers -/

namespace Placement

variable {view : HostView} {p p' : Placement} {image image' : Image} {id : TypeId}
  {c : ContainerId}

/-- Whether a placement leads to containers that stand for the types. -/
def Founded (p : Placement) (image : Image) : Prop :=
  ∀ (t : TypeId) (id : ContainerId), p.cache[t]? = some id → image.originals[id]? = some t

/-- A founded placement leads to containers that are there. -/
theorem Founded.lt_length (founded : p.Founded image) {t : TypeId} (cached : p.cache[t]? = some c) :
    c < image.containers.length := by
  rw [← Image.length_originals]
  exact (List.getElem?_eq_some_iff.1 (founded t c cached)).1

/-- A placement that creates a container stays founded, and knows the container, which is empty. -/
theorem founded_create (founded : p.Founded image) (t : TypeInfo) (nspace : String)
    (parent : Option ContainerId) :
    (p.create image t nspace parent).2.1.Founded (p.create image t nspace parent).2.2 ∧
      (p.create image t nspace parent).2.1.cache[t.id]? =
        some (p.create image t nspace parent).1 ∧
      (p.create image t nspace parent).2.2.originals = image.originals ++ [t.id] ∧
      (p.create image t nspace parent).2.2.methodLists = image.methodLists ++ [[]] := by
  obtain ⟨d, stands, -, -, empty, created⟩ := exists_create p image t nspace parent
  have originals := image.originals_addContainer d
  rw [created, originals, stands]
  refine ⟨fun u id cached => ?_, Std.HashMap.getElem?_insert_self, rfl, ?_⟩
  · rw [originals, getElem?_concat_eq_some, Image.length_originals, stands]
    rw [Std.HashMap.getElem?_insert] at cached
    split at cached
    · rename_i same
      exact .inr ⟨(Option.some.inj cached).symm, eq_of_beq same⟩
    · exact .inl (founded u id cached)
  · rw [Image.methodLists, Image.map_addContainer _ _ _ fun _ _ => rfl, empty]
    rfl

/-- A call that succeeds gives a container that stands for the type or its definition, and adds none
but empty ones. -/
theorem Gives.founded (founded : p.Founded image) {depth : Nat}
    {s : ContainerId × Placement × Image} (h : Gives view p image depth id s) :
    s.2.1.Founded s.2.2 ∧ (∃ t, collapse view id = .ok t ∧ s.2.1.cache[t.id]? = some s.1) ∧
      image.originals <+: s.2.2.originals ∧
      ∃ fresh, s.2.2.methodLists = image.methodLists ++ List.replicate fresh [] := by
  induction h with
  | found type cached =>
    exact ⟨founded, ⟨_, type, cached⟩, List.prefix_refl _, 0, (List.append_nil _).symm⟩
  | @root _ _ t type =>
    obtain ⟨founded', cached, originals, lists⟩ :=
      founded_create founded t (p.namespaceFor t.nspace) none
    exact ⟨founded', ⟨t, type, cached⟩, ⟨_, originals.symm⟩, 1, lists⟩
  | @within _ _ _ t s type _ _ _ ih =>
    obtain ⟨founded₁, -, earlier, fresh, lists₁⟩ := ih
    obtain ⟨founded', cached, originals, lists⟩ := founded_create founded₁ t "" (some s.1)
    refine ⟨founded', ⟨t, type, cached⟩, earlier.trans ⟨_, originals.symm⟩, fresh + 1,
      lists.trans ?_⟩
    rw [lists₁, List.append_assoc, List.replicate_succ']

/-- **A call that succeeds keeps a placement founded, and adds empty containers only.** -/
theorem founded_of_ok (founded : p.Founded image) {depth : Nat}
    (run : containerWithin view p image id depth = (.ok c, p', image')) :
    p'.Founded image' ∧ (∃ t, collapse view id = .ok t ∧ p'.cache[t.id]? = some c) ∧
      image.originals <+: image'.originals ∧
      ∃ fresh, image'.methodLists = image.methodLists ++ List.replicate fresh [] :=
  (containerWithin_eq_ok (s := (c, p', image')).1 run).founded founded

/-- Creating a container imports nothing. -/
@[simp] theorem symbols_create (p : Placement) (image : Image) (t : TypeInfo) (nspace : String)
    (parent : Option ContainerId) :
    (p.create image t nspace parent).2.2.symbols = image.symbols := by
  unfold create Image.addContainer
  dsimp only
  split
  · split <;> rfl
  · rfl

/-- Containers need no symbols. -/
@[simp]
theorem symbols_containerWithin (view : HostView) (p : Placement) (image : Image) (id : TypeId)
    (depth : Nat) : (containerWithin view p image id depth).2.2.symbols = image.symbols :=
  containerWithin_keeps (P := fun image' => image'.symbols = image.symbols)
    (fun p _ t nspace parent same => (symbols_create p _ t nspace parent).trans same) view p rfl id
    depth

end Placement

/-- Whether a method is what an import makes of another one. -/
def SyntheticMethod.ImportedAs (view : HostView) (m m' : SyntheticMethod) : Prop :=
  ∃ st, ((Importer.synthetic view m).run st).1.1 = m'

/-- Whether a method is what an import makes of another one, and a table has the rows that this
leaves. -/
def SyntheticMethod.ImportedInto (view : HostView) (s : SymbolTable) (m m' : SyntheticMethod) :
    Prop :=
  ∃ st failures st', (Importer.synthetic view m).run st = ((m', failures), st') ∧
    st'.symbols.Grows s

/-- What is imported into a table is imported. -/
theorem SyntheticMethod.ImportedInto.importedAs {view : HostView} {s : SymbolTable}
    {m m' : SyntheticMethod} (h : m.ImportedInto view s m') : m.ImportedAs view m' := by
  obtain ⟨st, failures, st', run, -⟩ := h
  exact ⟨st, by rw [run]⟩

/-- What is imported into a table is so into every table with its rows. -/
theorem SyntheticMethod.ImportedInto.mono {view : HostView} {s s' : SymbolTable}
    {m m' : SyntheticMethod} (h : m.ImportedInto view s m') (grows : s.Grows s') :
    m.ImportedInto view s' m' := by
  obtain ⟨st, failures, st', run, reach⟩ := h
  exact ⟨st, failures, st', run, reach.trans grows⟩

namespace Synthesis

variable {ctx : Context} {bucket : Bucket} {target : MethodInfo} {d : Diagnostic}

/-! ### Notes of synthesis -/

/-- The notes about a copy are about transformations. -/
theorem topic_of_mem_copy {index : Nat} {r : Interception}
    (h : d ∈ (copy ctx target index r).2) : d.topic = .transform := by
  unfold copy at h
  dsimp only at h
  split at h
  · cases h
  · split at h
    · cases h
    · rw [List.mem_singleton.1 h]
      rfl

/-- A method that is known has all its copies. -/
theorem copies_eq (known : ctx.view.method bucket.target = some target) :
    copies ctx bucket =
      .ok ((copyAll ctx target bucket.redirects ++ copyAll ctx target bucket.native).map (·.1),
        (copyAll ctx target bucket.redirects ++ copyAll ctx target bucket.native).flatMap (·.2)) := by
  unfold copies
  split
  · rename_i none
    rw [Bool.and_eq_true, List.isEmpty_iff, List.isEmpty_iff] at none
    rw [none.1, none.2]
    rfl
  · rw [known]

/-- The notes about copies are about transformations. -/
theorem topic_of_mem_copies {records : List Interception}
    (h : d ∈ (copyAll ctx target records).flatMap (·.2)) : d.topic = .transform := by
  obtain ⟨made, mem, noted⟩ := List.mem_flatMap.1 h
  obtain ⟨⟨r, index⟩, -, rfl⟩ := List.mem_map.1 mem
  exact topic_of_mem_copy noted

/-- A target without transformations is not cloned, and one with transformations is cloned unless
there is an error. -/
theorem clone_cases (ctx : Context) (bucket : Bucket) :
    (bucket.transforms = [] ∧ clone ctx bucket = .ok (none, [])) ∨
      (∃ m notes, clone ctx bucket = .ok (some m, notes)) ∨
      ∃ e, clone ctx bucket = .error e := by
  rcases cloned : clone ctx bucket with e | ⟨_ | m, notes⟩
  · exact .inr (.inr ⟨e, rfl⟩)
  · refine .inl ?_
    unfold clone at cloned
    split at cloned
    · rename_i none
      cases cloned
      exact ⟨List.isEmpty_iff.1 none, rfl⟩
    · dsimp only at cloned
      split at cloned
      · cases cloned
      · split at cloned
        · cases cloned
        · obtain ⟨_, _, cloned⟩ := bind_eq_ok.1 cloned
          cases cloned
  · exact .inr (.inl ⟨m, notes, rfl⟩)

/-- The notes about a clone are about transformations. -/
theorem topic_of_mem_clone {m : SyntheticMethod} {notes : List Diagnostic}
    (cloned : clone ctx bucket = .ok (some m, notes)) (h : d ∈ notes) : d.topic = .transform := by
  obtain ⟨-, target, original, -, -, -, -, -, -, rfl⟩ := clone_eq_ok.1 cloned
  obtain ⟨turn, -, reports⟩ := exists_mem_of_forall₂
    (forall₂_reports target original bucket.transforms) h
  exact reports.topic

end Synthesis

namespace Reconstruction

variable {view : HostView} {options : Options} {n k : Nat}

/-! ### Steps that keep to themselves -/

/-- Whether a step makes of the image and the placement what it makes of them whatever was noted
before and however many targets there were.  It notes something behind that, but nothing about
validation, and counts some targets. -/
def Adds (n : Nat) (step : Reconstruction → Reconstruction) : Prop :=
  ∀ image placement, ∃ image' placement' added,
    (∀ d ∈ added, Diagnostic.topic d ≠ .validation) ∧
      ∀ notes targets, step ⟨image, placement, notes, targets⟩ =
        ⟨image', placement', notes ++ added, targets + n⟩

/-- Steps one after the other add what both add. -/
theorem Adds.comp {f g : Reconstruction → Reconstruction} (hg : Adds n g) (hf : Adds k f) :
    Adds (n + k) fun r => f (g r) := by
  intro image placement
  obtain ⟨image₁, placement₁, added, topics, run⟩ := hg image placement
  obtain ⟨image₂, placement₂, more, topics', run'⟩ := hf image₁ placement₁
  refine ⟨image₂, placement₂, added ++ more, fun d hd => ?_, fun notes targets => ?_⟩
  · exact (Array.mem_append.1 hd).elim (topics d) (topics' d)
  · show f (g _) = _
    rw [run, run', Array.append_assoc, Nat.add_assoc]

/-- A run of steps adds what each of them adds. -/
theorem adds_foldl {α : Type} {step : Reconstruction → α → Reconstruction}
    (h : ∀ x, Adds n fun r => step r x) (xs : List α) :
    Adds (xs.length * n) fun r => xs.foldl step r := by
  induction xs with
  | nil =>
    intro image placement
    refine ⟨image, placement, #[], by simp, fun notes targets => ?_⟩
    rw [Array.append_empty, List.length_nil, Nat.zero_mul, Nat.add_zero]
    rfl
  | cons x xs ih =>
    rw [List.length_cons, Nat.succ_mul, Nat.add_comm]
    exact (h x).comp ih

/-- Notes are added behind those there are, and change nothing else. -/
theorem noteAll_mk (image : Image) (placement : Placement) (before : Diagnostics) (targets : Nat)
    (notes : List Diagnostic) : noteAll ⟨image, placement, before, targets⟩ notes =
      ⟨image, placement, before ++ notes.toArray, targets⟩ := by
  simp only [noteAll, Diagnostics.append_list]

/-- A method that is added is no target, and is validated only later. -/
theorem adds_addMethod (view : HostView) (id : ContainerId) (m : SyntheticMethod) :
    Adds 0 fun r => addMethod view id r m := by
  intro image placement
  obtain ⟨⟨m', failures⟩, symbols, added, -, topics, run⟩ :=
    Importer.growing_synthetic view m image.symbols
  have others : ∀ d ∈ added, d.topic ≠ .validation := fun d hd => by
    rw [topics d hd]
    decide
  rcases placed : { image with symbols }.addMethod id m' with _ | ⟨place, image'⟩
  · refine ⟨{ image with symbols }, placement, added, others, fun notes targets => ?_⟩
    simp only [addMethod, run, placed, Nat.add_zero]
  · refine ⟨image', placement, added, others, fun notes targets => ?_⟩
    simp only [addMethod, run, placed, Nat.add_zero]

/-! ### One target -/

/-- The methods that are made for a target, before their import. -/
def made (view : HostView) (options : Options) (target : MethodInfo) (bucket : Bucket) :
    List SyntheticMethod :=
  (copies view options target bucket).1 ++ (clones view options target bucket).1

/-- The copies for a known target are those of redirects and of native jumps. -/
theorem copies_eq {target : MethodInfo} {bucket : Bucket}
    (known : view.method bucket.target = some target) :
    copies view options target bucket = if options.copyReplacements then
      let all := Synthesis.copyAll ⟨view, options.patchEngine⟩ target bucket.redirects ++
        Synthesis.copyAll ⟨view, options.patchEngine⟩ target bucket.native
      (all.map (·.1), all.flatMap (·.2)) else ([], []) := by
  unfold copies
  rw [Synthesis.copies_eq known]

/-- There is no clone without transformations; else there is one, or an error that blames the
target. -/
theorem clones_cases (view : HostView) (options : Options) (target : MethodInfo)
    (bucket : Bucket) :
    (bucket.transforms = [] ∧ clones view options target bucket = ([], [])) ∨
      (∃ m notes, Synthesis.clone ⟨view, options.patchEngine⟩ bucket = .ok (some m, notes) ∧
        clones view options target bucket = ([m], notes)) ∨
      ∃ d : Diagnostic, d.Blames bucket.target ∧ d.topic = .body ∧
        clones view options target bucket = ([], [d]) := by
  unfold clones
  rcases Synthesis.clone_cases ⟨view, options.patchEngine⟩ bucket with
    ⟨none, idle⟩ | ⟨m, notes, cloned⟩ | ⟨e, refused⟩
  · rw [idle]
    exact .inl ⟨none, rfl⟩
  · rw [cloned]
    exact .inr (.inl ⟨m, notes, rfl, rfl⟩)
  · rw [refused]
    refine .inr (.inr ?_)
    split
    · rename_i impossible
      cases impossible
    · exact ⟨_, ⟨rfl, rfl⟩, rfl, rfl⟩
    · exact ⟨_, ⟨rfl, rfl⟩, rfl, rfl⟩

/-- No note about the methods of a target is one of validation. -/
theorem topic_of_mem_made {target : MethodInfo} {bucket : Bucket}
    (known : view.method bucket.target = some target) {d : Diagnostic}
    (h : d ∈ (copies view options target bucket).2 ++ (clones view options target bucket).2) :
    d.topic ≠ .validation := by
  have transform (same : d.topic = .transform) : d.topic ≠ .validation := by
    rw [same]
    decide
  rcases List.mem_append.1 h with copied | cloned
  · rw [copies_eq known] at copied
    split at copied
    · dsimp only at copied
      rw [List.flatMap_append, List.mem_append] at copied
      exact transform (copied.elim Synthesis.topic_of_mem_copies Synthesis.topic_of_mem_copies)
    · cases copied
  · rcases clones_cases view options target bucket with
      ⟨-, idle⟩ | ⟨m, notes, run, same⟩ | ⟨blame, -, topic, same⟩
    · rw [idle] at cloned
      cases cloned
    · rw [same] at cloned
      exact transform (Synthesis.topic_of_mem_clone run cloned)
    · rw [same, List.mem_singleton] at cloned
      rw [cloned, topic]
      decide

/-- Notes that are added in two runs are added in one. -/
@[simp] theorem noteAll_noteAll (r : Reconstruction) (notes more : List Diagnostic) :
    (r.noteAll notes).noteAll more = r.noteAll (notes ++ more) := by
  simp only [noteAll, Diagnostics.append_list, Array.append_assoc, List.append_toArray]

/-- What is noted about raw redirects comes first. -/
theorem exists_rawNotes (bucket : Bucket) : ∃ raw : List Diagnostic,
    (∀ d ∈ raw, d.topic ≠ .validation) ∧ ∀ r : Reconstruction,
      (if bucket.raw.isEmpty then r else r.noteAll
        [note .info .classify bucket.target
          s!"{bucket.raw.length} raw detours are not reconstructed"]) = r.noteAll raw := by
  by_cases h : bucket.raw.isEmpty
  · refine ⟨[], by simp, fun r => ?_⟩
    rw [if_pos h]
    simp only [noteAll, Diagnostics.append_list, Array.append_empty]
  · exact ⟨_, by simp [note], fun r => if_neg h⟩

/-- A target that is not known leaves an error that blames it, and no method. -/
theorem processBucket_of_unknown (options : Options) {bucket : Bucket}
    (unknown : view.method bucket.target = none) :
    ∃ notes : List Diagnostic, (∀ d ∈ notes, d.topic ≠ .validation) ∧
      (∃ d ∈ notes, d.Blames bucket.target) ∧
      ∀ r, processBucket view options r bucket = r.noteAll notes := by
  obtain ⟨raw, topics, noted⟩ := exists_rawNotes bucket
  refine ⟨raw ++ [note .error .body bucket.target
    "intercepted method is unknown to the runtime view"], fun d hd => ?_,
    ⟨_, List.mem_append_right _ (List.mem_singleton_self _), rfl, rfl⟩, fun r => ?_⟩
  · rcases List.mem_append.1 hd with hd | hd
    · exact topics d hd
    · rw [List.mem_singleton.1 hd]
      exact Topic.noConfusion
  · unfold processBucket
    dsimp only
    rw [noted, unknown]
    exact noteAll_noteAll _ _ _

/-- A known target leaves notes, and its methods are placed if there are any. -/
theorem processBucket_of_known (options : Options) {bucket : Bucket} {target : MethodInfo}
    (known : view.method bucket.target = some target) :
    ∃ notes : List Diagnostic, (∀ d ∈ notes, d.topic ≠ .validation) ∧
      (∀ d ∈ (clones view options target bucket).2, d ∈ notes) ∧
      ∀ r, processBucket view options r bucket =
        if made view options target bucket = [] then r.noteAll notes
        else (r.noteAll notes).place view target bucket.target (made view options target bucket) := by
  obtain ⟨raw, topics, noted⟩ := exists_rawNotes bucket
  refine ⟨raw ++ ((copies view options target bucket).2 ++ (clones view options target bucket).2),
    fun d hd => ?_, fun d hd => List.mem_append_right _ (List.mem_append_right _ hd), fun r => ?_⟩
  · exact (List.mem_append.1 hd).elim (topics d) (topic_of_mem_made known)
  · unfold processBucket
    dsimp only
    rw [noted, known]
    dsimp only
    rw [noteAll_noteAll]
    simp only [List.isEmpty_iff]
    rfl

/-- What becomes of a target, with what is noted: the reconstruction that is left, given what was
noted before and how many targets there are. -/
inductive Fate (view : HostView) (options : Options) (image : Image) (placement : Placement)
    (bucket : Bucket) (notes : List Diagnostic) : (Diagnostics → Nat → Reconstruction) → Prop
  /-- The process does not know the target. -/
  | unknown (unknown : view.method bucket.target = none)
    (blamed : ∃ d ∈ notes, d.Blames bucket.target) :
    Fate view options image placement bucket notes fun before targets =>
      noteAll ⟨image, placement, before, targets⟩ notes
  /-- No methods are made for the target. -/
  | idle {target : MethodInfo} (known : view.method bucket.target = some target)
    (noted : ∀ d ∈ (clones view options target bucket).2, d ∈ notes)
    (empty : made view options target bucket = []) :
    Fate view options image placement bucket notes fun before targets =>
      noteAll ⟨image, placement, before, targets⟩ notes
  /-- No type declares the target. -/
  | homeless {target : MethodInfo} (known : view.method bucket.target = some target)
    (alone : target.declaringType = none) (blamed : ∃ d ∈ notes, d.Blames bucket.target) :
    Fate view options image placement bucket notes fun before targets =>
      noteAll ⟨image, placement, before, targets⟩ notes
  /-- There is no container for the type that declares the target, and none is made. -/
  | outside {target : MethodInfo} {type : TypeId} {e : Error}
    (known : view.method bucket.target = some target) (declared : target.declaringType = some type)
    (run : placement.container view image type = (.error e, placement, image))
    (blamed : ∃ d ∈ notes, d.Blames bucket.target) :
    Fate view options image placement bucket notes fun before targets =>
      noteAll ⟨image, placement, before, targets⟩ notes
  /-- The methods of the target go into its container. -/
  | placed {target : MethodInfo} {type : TypeId} {container : ContainerId} {placement' : Placement}
    {image' : Image} (known : view.method bucket.target = some target)
    (noted : ∀ d ∈ (clones view options target bucket).2, d ∈ notes)
    (nonempty : made view options target bucket ≠ [])
    (declared : target.declaringType = some type)
    (run : placement.container view image type = (.ok container, placement', image')) :
    Fate view options image placement bucket notes fun before targets =>
      (made view options target bucket).foldl (addMethod view container)
        (noteAll ⟨image', placement', before, targets⟩ notes)

/-- **What becomes of a target** does not depend on what was noted before. -/
theorem processBucket_fate (view : HostView) (options : Options) (image : Image)
    (placement : Placement) (bucket : Bucket) :
    ∃ notes result, (∀ d ∈ notes, Diagnostic.topic d ≠ .validation) ∧
      Fate view options image placement bucket notes result ∧ ∀ before targets,
        processBucket view options ⟨image, placement, before, targets⟩ bucket =
          result before targets := by
  rcases known : view.method bucket.target with _ | target
  · obtain ⟨notes, topics, blamed, run⟩ := processBucket_of_unknown options known
    exact ⟨notes, _, topics, .unknown known blamed, fun before targets => run _⟩
  obtain ⟨notes, topics, noted, run⟩ := processBucket_of_known options known
  by_cases empty : made view options target bucket = []
  · refine ⟨notes, _, topics, .idle known noted empty, fun before targets => ?_⟩
    rw [run, if_pos empty]
  simp only [if_neg empty] at run
  have fault {d : Diagnostic} (topic : d.topic = .container) (blames : d.Blames bucket.target) :
      (∀ d' ∈ notes ++ [d], d'.topic ≠ .validation) ∧
        ∃ d' ∈ notes ++ [d], d'.Blames bucket.target := by
    refine ⟨fun d' hd => ?_, d, List.mem_append_right _ (List.mem_singleton_self _), blames⟩
    rcases List.mem_append.1 hd with hd | hd
    · exact topics d' hd
    · rw [List.mem_singleton.1 hd, topic]
      exact Topic.noConfusion
  rcases declared : target.declaringType with _ | type
  · obtain ⟨topics', blamed⟩ := fault rfl (⟨rfl, rfl⟩ : (note .error .container bucket.target
      s!"{target.name} has no declaring type").Blames bucket.target)
    refine ⟨_, _, topics', .homeless known declared blamed, fun before targets => ?_⟩
    rw [run, place, declared]
    exact noteAll_noteAll _ _ _
  · rcases placing : placement.container view image type with ⟨e | container, placement', image'⟩
    -- No container around the missing one was made on the way.
    · obtain ⟨rfl, rfl⟩ := Placement.eq_of_error placing
      obtain ⟨topics', blamed⟩ := fault rfl (⟨rfl, rfl⟩ : (note .error .container bucket.target
        s!"cannot create container for {target.name}: {e.message}").Blames bucket.target)
      refine ⟨_, _, topics', .outside known declared placing blamed, fun before targets => ?_⟩
      rw [run, place, declared]
      dsimp only [noteAll]
      rw [placing]
      exact noteAll_noteAll ⟨image', placement', before, targets⟩ _ _
    · refine ⟨notes, _, topics, .placed known noted empty declared placing,
        fun before targets => ?_⟩
      rw [run, place, declared]
      dsimp only [noteAll]
      rw [placing]

/-- What becomes of a target at its turn. -/
theorem processTarget_fate (view : HostView) (options : Options) (r : Reconstruction)
    (group : MethodId × List Interception) :
    ∃ notes result, Fate view options r.image r.placement (.classify group.1 group.2) notes result ∧
      (∀ d ∈ notes, Diagnostic.topic d ≠ .validation) ∧
      r.processTarget view options group = result r.diagnostics (r.targets + 1) := by
  obtain ⟨notes, result, topics, fate, run⟩ :=
    processBucket_fate view options r.image r.placement (.classify group.1 group.2)
  exact ⟨notes, result, fate, topics, run _ _⟩

/-- Whatever becomes of a target, its notes are added and none of them is one of validation. -/
theorem Fate.adds {image : Image} {placement : Placement} {bucket : Bucket}
    {notes : List Diagnostic} {result : Diagnostics → Nat → Reconstruction}
    (h : Fate view options image placement bucket notes result)
    (topics : ∀ d ∈ notes, d.topic ≠ .validation) :
    ∃ image' placement' added, (∀ d ∈ added, Diagnostic.topic d ≠ .validation) ∧
      (∀ d ∈ notes, d ∈ added) ∧ ∀ before targets,
        result before targets = ⟨image', placement', before ++ added, targets⟩ := by
  have noted : ∀ d ∈ notes, d ∈ notes.toArray := fun d hd => List.mem_toArray.2 hd
  have others : ∀ d ∈ notes.toArray, d.topic ≠ .validation := fun d hd =>
    topics d (List.mem_toArray.1 hd)
  cases h with
  | unknown _ _ | idle _ _ _ | homeless _ _ _ | outside _ _ _ _ =>
    exact ⟨image, placement, _, others, noted, fun _ _ => noteAll_mk ..⟩
  | @placed target _ container placement₁ image₁ _ _ _ _ _ =>
    obtain ⟨image', placement', more, topics', run⟩ :=
      adds_foldl (adds_addMethod view container) (made view options target bucket) image₁ placement₁
    refine ⟨image', placement', notes.toArray ++ more, fun d hd => ?_,
      fun d hd => Array.mem_append_left _ (noted d hd), fun before targets => ?_⟩
    · exact (Array.mem_append.1 hd).elim (others d) (topics' d)
    · dsimp only
      rw [noteAll_mk, ← Array.append_assoc]
      exact run _ targets

/-- **Work on a target keeps to itself**: nothing that was noted before changes what is made. -/
theorem adds_processTarget (view : HostView) (options : Options)
    (group : MethodId × List Interception) :
    Adds 1 fun r => r.processTarget view options group := by
  intro image placement
  obtain ⟨notes, result, topics, fate, run⟩ :=
    processBucket_fate view options image placement (.classify group.1 group.2)
  obtain ⟨image', placement', added, others, -, same⟩ := fate.adds topics
  refine ⟨image', placement', added, others, fun before targets => ?_⟩
  rw [← same, ← run]
  rfl

/-- **Processing adds one target for each of the snapshot.** -/
theorem adds_process (view : HostView) (options : Options) (s : Snapshot) :
    Adds s.groups.length fun r => r.process view options s := by
  rw [← Nat.mul_one s.groups.length]
  exact adds_foldl (adds_processTarget view options) s.groups

/-! ### What a target gains -/

/-- A method that is imported and added is gained by its container, and by no other. -/
theorem addMethod_gains (view : HostView) {r : Reconstruction} {id : ContainerId}
    (here : id < r.image.containers.length) (m : SyntheticMethod) :
    let r' := addMethod view id r m
    r.image.symbols.Grows r'.image.symbols ∧
      ∃ m', m.ImportedInto view r'.image.symbols m' ∧ r'.placement = r.placement ∧
        r'.image.outline = r.image.outline ∧ r'.image.roots = r.image.roots ∧
        r'.image.methodLists = r.image.methodLists.modify id (· ++ [m']) := by
  obtain ⟨image, placement, notes, targets⟩ := r
  have grows := (Importer.growing_synthetic view m).grows ⟨image.symbols, notes⟩
  rcases run : (Importer.synthetic view m).run ⟨image.symbols, notes⟩ with ⟨⟨m', failures⟩, st⟩
  rw [run] at grows
  obtain ⟨place, image', placed, symbols, outline, roots, lists⟩ :=
    Image.exists_addMethod { image with symbols := st.symbols } here m'
  have reach : st.symbols.Grows image'.symbols := symbols ▸ .refl _
  simp only [addMethod, run, placed]
  exact ⟨grows.trans reach, m', ⟨_, failures, st, run, reach⟩, trivial, outline, roots, lists⟩

/-- Methods that are imported and added are gained by their container in their order. -/
theorem foldl_addMethod_gains (view : HostView) (r : Reconstruction) {id : ContainerId}
    (here : id < r.image.containers.length) (ms : List SyntheticMethod) :
    let r' := ms.foldl (addMethod view id) r
    r.image.symbols.Grows r'.image.symbols ∧
      ∃ added, List.Forall₂ (·.ImportedInto view r'.image.symbols) ms added ∧
        r'.placement = r.placement ∧
        r'.image.outline = r.image.outline ∧ r'.image.roots = r.image.roots ∧
        r'.image.methodLists = r.image.methodLists.modify id (· ++ added) := by
  induction ms generalizing r with
  | nil =>
    refine ⟨.refl _, [], .nil, rfl, rfl, rfl, ?_⟩
    have unchanged : (· ++ ([] : List SyntheticMethod)) = fun ms => ms := funext List.append_nil
    rw [unchanged]
    exact (List.modify_id _ _).symm
  | cons m ms ih =>
    obtain ⟨grows, m', imported, placement, outline, roots, lists⟩ := addMethod_gains view here m
    obtain ⟨grows', added, all, placement', outline', roots', lists'⟩ :=
      ih (addMethod view id r m) (Image.length_congr outline ▸ here)
    refine ⟨grows.trans grows', m' :: added, .cons (imported.mono grows') all,
      placement'.trans placement, outline'.trans outline, roots'.trans roots, ?_⟩
    have both : (· ++ added) ∘ (· ++ [m']) = (· ++ m' :: added) := funext fun ms => by
      rw [Function.comp_apply, List.append_assoc, List.singleton_append]
    rw [List.foldl_cons, lists', lists, List.modify_modify_eq, both]

/-- Methods that are put into the container of a type are what an image gains, and nothing else
changes. -/
theorem placed_gains {image image' : Image} {p p' : Placement} {type : TypeId}
    {container : ContainerId} (founded : p.Founded image)
    (run : p.container view image type = (.ok container, p', image'))
    (ms : List SyntheticMethod) (before : Diagnostics) (targets : Nat) (notes : List Diagnostic) :
    let r' := ms.foldl (addMethod view container) (noteAll ⟨image', p', before, targets⟩ notes)
    r'.placement = p' ∧ r'.image.outline = image'.outline ∧ r'.image.roots = image'.roots ∧
      image.symbols.Grows r'.image.symbols ∧
      (∀ k, k ≠ container → r'.image.methodsIn k = image.methodsIn k) ∧
      ∃ added, image.Gains added r'.image ∧
        List.Forall₂ (·.ImportedInto view r'.image.symbols) ms added := by
  intro r'
  obtain ⟨founded', ⟨_, -, cached⟩, -, fresh, lists'⟩ := Placement.founded_of_ok founded run
  have here := founded'.lt_length cached
  obtain ⟨grows, added, imported, placement, outline, roots, lists⟩ := foldl_addMethod_gains view
    (noteAll ⟨image', p', before, targets⟩ notes) here ms
  have symbols : image'.symbols = image.symbols := by
    have same := Placement.symbols_containerWithin view p image type nestingLimit
    rw [← Placement.container, run] at same
    exact same
  have here' : container < r'.image.containers.length := Image.length_congr outline ▸ here
  have all := lists.trans (congrArg (·.modify container (· ++ added)) lists')
  refine ⟨placement, outline, roots, symbols ▸ grows, fun k other => ?_, added,
    Image.gains_of_methodLists here' all, imported⟩
  rw [Image.methodsIn_of_methodLists here' all, if_neg other, List.append_nil]

/-- What is left of a target: the methods that were made for it, imported, or an error about it. -/
theorem Fate.gains {image : Image} {placement : Placement} {bucket : Bucket}
    {notes : List Diagnostic} {result : Diagnostics → Nat → Reconstruction}
    (h : Fate view options image placement bucket notes result) (founded : placement.Founded image)
    (before : Diagnostics) (targets : Nat) :
    let r' := result before targets
    r'.placement.Founded r'.image ∧ image.symbols.Grows r'.image.symbols ∧
      ∃ added, image.Gains added r'.image ∧
        (added = [] → r'.image = image ∧ r'.placement = placement) ∧
        (added = [] ∧ (∃ d ∈ notes, d.Blames bucket.target) ∨
          ∃ target, view.method bucket.target = some target ∧
            (∀ d ∈ (clones view options target bucket).2, d ∈ notes) ∧
            List.Forall₂ (·.ImportedInto view r'.image.symbols)
              (made view options target bucket) added) := by
  cases h with
  | unknown _ blamed | homeless _ _ blamed | outside _ _ _ blamed =>
    exact ⟨founded, .refl _, [], image.gains_nil, fun _ => ⟨rfl, rfl⟩, .inl ⟨rfl, blamed⟩⟩
  | idle known noted empty =>
    refine ⟨founded, .refl _, [], image.gains_nil, fun _ => ⟨rfl, rfl⟩,
      .inr ⟨_, known, noted, ?_⟩⟩
    rw [empty]
    exact .nil
  | placed known noted nonempty _ run =>
    obtain ⟨founded', -⟩ := Placement.founded_of_ok founded run
    obtain ⟨placement', outline, -, grows, -, added, gains, imported⟩ :=
      placed_gains founded run (made view options _ bucket) before targets notes
    refine ⟨fun t id cached => ?_, grows, added, gains, ?_, .inr ⟨_, known, noted, imported⟩⟩
    · rw [placement'] at cached
      rw [Image.originals_congr outline]
      exact founded' t id cached
    · rintro rfl
      exact absurd (List.forall₂_nil_right_iff.1 imported) nonempty

/-- **A target adds methods to one container or changes nothing.**  The methods are those made for
it, imported; if there are none because of the target, there is an error about it. -/
theorem processTarget_gains (view : HostView) (options : Options) {r : Reconstruction}
    (founded : r.placement.Founded r.image) (group : MethodId × List Interception) :
    let r' := r.processTarget view options group
    r'.placement.Founded r'.image ∧ r.image.symbols.Grows r'.image.symbols ∧
      ∃ added notes, r.image.Gains added r'.image ∧ r'.diagnostics = r.diagnostics ++ notes ∧
        (added = [] → r'.image = r.image ∧ r'.placement = r.placement) ∧
        (added = [] ∧ (∃ d ∈ notes, Diagnostic.Blames d group.1) ∨
          ∃ target, view.method group.1 = some target ∧
            (∀ d ∈ (clones view options target (.classify group.1 group.2)).2, d ∈ notes) ∧
            List.Forall₂ (·.ImportedInto view r'.image.symbols)
              (made view options target (.classify group.1 group.2)) added) := by
  obtain ⟨notes, result, fate, topics, run⟩ := processTarget_fate view options r group
  obtain ⟨_, _, all, -, noted, same⟩ := fate.adds topics
  obtain ⟨founded', grows, added, gains, unchanged, outcome⟩ :=
    fate.gains founded r.diagnostics (r.targets + 1)
  dsimp only
  rw [run]
  refine ⟨founded', grows, added, all, gains, by rw [same], unchanged, ?_⟩
  rcases outcome with ⟨nothing, d, hd, blames⟩ | ⟨target, known, cloned, imported⟩
  · exact .inl ⟨nothing, d, noted d hd, blames⟩
  · exact .inr ⟨target, known, fun d hd => noted d (cloned d hd), imported⟩

/-- **When a target adds no method**: nobody knows it, or nothing is made for it, or there is no
container for what is made. -/
theorem methodCount_processTarget_eq_iff (view : HostView) (options : Options) {r : Reconstruction}
    (founded : r.placement.Founded r.image) (group : MethodId × List Interception) :
    (r.processTarget view options group).image.methodCount = r.image.methodCount ↔
      view.method group.1 = none ∨ ∃ target, view.method group.1 = some target ∧
        (made view options target (.classify group.1 group.2) = [] ∨
          target.declaringType = none ∨ ∃ type e, target.declaringType = some type ∧
            (r.placement.container view r.image type).1 = .error e) := by
  obtain ⟨notes, result, fate, -, run⟩ := processTarget_fate view options r group
  rw [run]
  cases fate with
  | unknown unknown _ => exact ⟨fun _ => .inl unknown, fun _ => rfl⟩
  | idle known _ empty => exact ⟨fun _ => .inr ⟨_, known, .inl empty⟩, fun _ => rfl⟩
  | homeless known alone _ =>
    exact ⟨fun _ => .inr ⟨_, known, .inr (.inl alone)⟩, fun _ => rfl⟩
  | outside known declared refused _ =>
    exact ⟨fun _ => .inr ⟨_, known, .inr (.inr ⟨_, _, declared, congrArg Prod.fst refused⟩)⟩,
      fun _ => rfl⟩
  | placed known _ nonempty declared placing =>
    obtain ⟨-, -, -, -, -, added, gains, imported⟩ :=
      placed_gains founded placing (made view options _ _) r.diagnostics (r.targets + 1) notes
    constructor
    · intro same
      have none : added.length = 0 := Nat.add_left_cancel (gains.1.symm.trans same)
      rw [← imported.length_eq] at none
      exact absurd (List.length_eq_zero_iff.1 none) nonempty
    · rintro (unknown | ⟨target, known', empty | alone | ⟨type, e, declared', refused⟩⟩)
      · cases known.symm.trans unknown
      · cases known.symm.trans known'
        exact absurd empty nonempty
      · cases known.symm.trans known'
        cases declared.symm.trans alone
      · cases known.symm.trans known'
        cases declared.symm.trans declared'
        cases (congrArg Prod.fst placing).symm.trans refused

/-- A reconstruction starts with a founded placement. -/
theorem start_founded {r : Reconstruction} (h : start view options = .ok r) :
    r.placement.Founded r.image := by
  obtain ⟨image, -, h⟩ := bind_eq_ok.1 h
  cases h
  intro t id cached
  rw [Std.HashMap.getElem?_empty] at cached
  cases cached

/-- Processing targets keeps the placement founded. -/
theorem process_founded (view : HostView) (options : Options) {r : Reconstruction}
    (founded : r.placement.Founded r.image) (s : Snapshot) :
    (r.process view options s).placement.Founded (r.process view options s).image :=
  List.foldlRecOn (motive := fun r : Reconstruction => r.placement.Founded r.image) s.groups _
    founded fun _ kept group _ => (processTarget_gains view options kept group).1

end Reconstruction
end HookImage
