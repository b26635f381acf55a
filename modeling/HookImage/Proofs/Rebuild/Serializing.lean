/-
# When a reconstruction can be written

Validation takes out the methods that it finds invalid, so that the rest can be written.  It
does not look at everything that writing needs: at the order in which the boundaries of a
region stand, at the tables of the types in a signature, at the number of parameters, and at
the members that only removed methods name.  For a reconstruction below `2 ^ 31` bytes these
are the only obstacles (`reconstruct_write_iff`).
-/

import Mathlib
import HookImage.Proofs.Image.Written
import HookImage.Proofs.Import.Growth
import HookImage.Proofs.Rebuild.Forest
import HookImage.Proofs.Rebuild.Sweeping

namespace HookImage

/-! ### Valid methods -/

namespace Validity

/-- The operand of a valid instruction fits, is not symbolic, and names instructions that are
there. -/
theorem checkInstruction_eq_ok {image : Image} {b : MethodBody} {i : Instruction}
    (h : checkInstruction image b i = .ok ()) :
    i.operand.fits i.opcode.operandKind ∧ ¬i.operand.isSymbolic ∧
      ∀ id ∈ i.operand.instrIds, id ∈ b.instructions.map (·.id) := by
  unfold checkInstruction at h
  split at h
  · exact nomatch h
  · rename_i fits
    split at h
    · exact nomatch h
    · rename_i imported
      refine ⟨by simpa using fits, imported, ?_⟩
      split at h
      · rename_i t ht
        rw [ht]
        exact fun _ h => (nomatch h)
      · unfold checkTargets at h
        split at h
        · exact nomatch h
        · rename_i found
          intro id hid
          have := List.find?_eq_none.1 found id hid
          exact MethodBody.isNone_position?.1 (Bool.eq_false_iff.2 this)

/-- A valid clause catches the token of a type. -/
theorem checkCatch_eq_ok {image : Image} {r : Region} (h : checkCatch image r = .ok ()) :
    ∃ type token, r.catchType = some type ∧ Region.catchToken? type = some token ∧
      denote image token = some .type := by
  unfold checkCatch at h
  split at h
  · cases h
  · rename_i type caught
    split at h
    · cases h
    · rename_i token found
      split at h
      · rename_i same
        exact ⟨type, token, caught, found, eq_of_beq same⟩
      · cases h

/-- A valid region has its anchors, a filter its start, and a clause a type that it catches. -/
theorem checkRegion_eq_ok {image : Image} {b : MethodBody} {r : Region}
    (h : checkRegion image b r = .ok ()) :
    (∀ id ∈ r.anchors, id ∈ b.instructions.map (·.id)) ∧ (r.isFilter → r.filterStart.isSome) ∧
      (r.isCatch → ∃ type token, r.catchType = some type ∧
        Region.catchToken? type = some token ∧ denote image token = some .type) := by
  unfold checkRegion at h
  split at h
  · exact nomatch h
  · rename_i found
    refine ⟨fun id hid => ?_, ?_⟩
    · have := List.find?_eq_none.1 found id hid
      exact MethodBody.isNone_position?.1 (Bool.eq_false_iff.2 this)
    · split at h
      · exact nomatch h
      · rename_i filters
        refine ⟨fun filter => ?_, fun typed => ?_⟩
        · cases missing : r.filterStart with
          | none => exact absurd (by simp [filter, missing]) filters
          | some id => rfl
        · rw [if_pos typed] at h
          exact checkCatch_eq_ok h

/-- The instructions and the regions of a valid method are valid. -/
theorem check_eq_ok {image : Image} {m : SyntheticMethod} (h : check image m = .ok ()) :
    (∀ i ∈ m.body.instructions, checkInstruction image m.body i = .ok ()) ∧
      ∀ r ∈ m.body.regions, checkRegion image m.body r = .ok () := by
  unfold check at h
  dsimp only at h
  split at h
  · cases h
  split at h
  · cases h
  split at h
  · cases h
  obtain ⟨_, _, h⟩ := bind_eq_ok.1 h
  obtain ⟨_, instructions, regions⟩ := bind_eq_ok.1 h
  exact ⟨forM_eq_ok.1 instructions, forM_eq_ok.1 regions⟩

/-- **The body of a valid method is encodable.** -/
theorem encodable_of_check {image : Image} {m : SyntheticMethod} (h : check image m = .ok ()) :
    m.body.Encodable := by
  obtain ⟨instructions, regions⟩ := check_eq_ok h
  exact {
    fits := fun i hi => (checkInstruction_eq_ok (instructions i hi)).1
    imported := fun i hi => (checkInstruction_eq_ok (instructions i hi)).2.1
    targets := fun i hi => (checkInstruction_eq_ok (instructions i hi)).2.2
    anchors := fun r hr => (checkRegion_eq_ok (regions r hr)).1
    filters := fun r hr => (checkRegion_eq_ok (regions r hr)).2.1
    catches := fun r hr _ typed => by
      obtain ⟨type, token, caught, found, -⟩ := (checkRegion_eq_ok (regions r hr)).2.2 typed
      exact ⟨type, caught, by rw [found]; rfl⟩ }

end Validity

/-! ### Images under construction -/

namespace Image.Consistent

variable {image : Image}

/-- Whether an image is consistent is due to its symbols and its attribute alone. -/
theorem of_same {image' : Image} (h : image.Consistent)
    (provenance : image'.provenance = image.provenance) (symbols : image'.symbols = image.symbols) :
    image'.Consistent where
  provenance := provenance ▸ h.provenance
  instantiations := symbols ▸ h.instantiations

/-- An import leaves an image consistent: it adds instantiations of members only. -/
theorem of_grows (h : image.Consistent) {symbols : SymbolTable}
    (grows : image.symbols.Grows symbols) :
    { image with symbols }.Consistent where
  provenance := h.provenance
  instantiations n row hr := (grows.added n row hr).elim (h.instantiations n row) id

/-- Adding a container keeps an image consistent. -/
theorem addContainer (h : image.Consistent) (c : Container) :
    (image.addContainer c).2.Consistent := by
  unfold Image.addContainer
  dsimp only
  split
  · split
    · exact h.of_same rfl rfl
    · exact h.of_same rfl rfl
  · exact h.of_same rfl rfl

/-- Adding a method keeps an image consistent. -/
theorem addMethod (h : image.Consistent) {id : ContainerId} {m : SyntheticMethod}
    {p : Nat × Image} (added : image.addMethod id m = some p) : p.2.Consistent := by
  obtain ⟨c, _, rfl⟩ := Option.map_eq_some_iff.1 added
  exact h.of_same rfl rfl

end Image.Consistent

/-- A new image is consistent. -/
theorem Image.create_consistent {name : String} {core : ModuleInfo} {attributeName : String}
    {loaded : List ModuleInfo} {image : Image}
    (h : Image.create name core attributeName loaded = .ok image) : image.Consistent := by
  have modules (as : List ModuleInfo) (s : SymbolTable) :
      s.Grows (as.foldl (fun s a => (s.assemblyRef a).2) s) := by
    induction as generalizing s with
    | nil => exact .refl s
    | cons a as ih => exact (s.grows_assemblyRef a).trans (ih _)
  unfold create at h
  dsimp only at h
  obtain ⟨⟨base, symbols⟩, hbase, h⟩ := bind_eq_ok.1 h
  obtain ⟨signature, _, h⟩ := bind_eq_ok.1 h
  cases h
  have grows := (((modules loaded .empty).trans (SymbolTable.grows_assemblyRef _ core)).trans
    (SymbolTable.grows_typeRef hbase)).trans (symbols.grows_memberRef ⟨base, ".ctor", signature⟩)
  obtain ⟨_, rfl, _⟩ := SymbolTable.typeRef_eq_ok hbase
  exact {
    provenance := ⟨_, _, _, rfl, Token.table?_ofRow _ _⟩
    instantiations := fun n row hr => (grows.added n row hr).resolve_left fun none => by
      cases n <;> exact nomatch none }

namespace Placement

/-- A placement that creates a container keeps the image consistent. -/
theorem create_consistent {image : Image} (h : image.Consistent) (p : Placement) (t : TypeInfo)
    (nspace : String) (parent : Option ContainerId) :
    (p.create image t nspace parent).2.2.Consistent :=
  h.addContainer _

/-- A call of a placement keeps the image consistent, even if it fails. -/
theorem containerWithin_consistent {image : Image} (h : image.Consistent) (view : HostView)
    (p : Placement) (id : TypeId) (depth : Nat) :
    (containerWithin view p image id depth).2.2.Consistent :=
  containerWithin_keeps (P := Image.Consistent)
    (fun p _ t nspace parent h => create_consistent h p t nspace parent) view p h id depth

end Placement

namespace Reconstruction

variable {view : HostView} {options : Options} {r : Reconstruction}

/-- Importing a method and adding it keeps the image consistent. -/
theorem addMethod_consistent {id : ContainerId} {m : SyntheticMethod} (h : r.image.Consistent) :
    (r.addMethod view id m).image.Consistent := by
  obtain ⟨image, placement, notes, targets⟩ := r
  have imported := h.of_grows ((Importer.growing_synthetic view m).grows ⟨image.symbols, notes⟩)
  unfold addMethod
  dsimp only
  rcases run : (Importer.synthetic view m).run ⟨image.symbols, notes⟩ with ⟨⟨m', n⟩, st⟩
  rw [run] at imported
  dsimp only
  split
  · rename_i added
    exact imported.addMethod added
  · exact imported

/-- Notes keep the image consistent. -/
theorem noteAll_consistent (h : r.image.Consistent) (notes : List Diagnostic) :
    (r.noteAll notes).image.Consistent := h

/-- Placing the methods of a target keeps the image consistent. -/
theorem place_consistent (h : r.image.Consistent) (target : MethodInfo) (id : MethodId)
    (methods : List SyntheticMethod) : (r.place view target id methods).image.Consistent := by
  unfold place
  split
  · exact h
  · rename_i type _
    have here := Placement.containerWithin_consistent h view r.placement type nestingLimit
    split
    · rename_i failed
      rw [← Placement.container, failed] at here
      exact here
    · rename_i placed
      rw [← Placement.container, placed] at here
      exact List.foldlRecOn (motive := fun r : Reconstruction => r.image.Consistent) methods _ here
        fun _ hr _ _ => addMethod_consistent hr

/-- A bucket keeps the image consistent. -/
theorem processBucket_consistent (h : r.image.Consistent) (bucket : Bucket) :
    (r.processBucket view options bucket).image.Consistent := by
  unfold processBucket
  dsimp only
  have noted (notes : List Diagnostic) :
      (if bucket.raw.isEmpty then r else r.noteAll notes).image.Consistent := by
    split <;> exact h
  split
  · exact noted _
  · split
    · exact noted _
    · exact place_consistent (noteAll_consistent (noted _) _) _ _ _

/-- A target keeps the image consistent. -/
theorem processTarget_consistent (h : r.image.Consistent) (group : MethodId × List Interception) :
    (r.processTarget view options group).image.Consistent := by
  have counted : { r with targets := r.targets + 1 }.image.Consistent := h
  exact processBucket_consistent counted _

/-- **Processing targets keeps the image consistent.** -/
theorem process_consistent (h : r.image.Consistent) (s : Snapshot) :
    (r.process view options s).image.Consistent :=
  List.foldlRecOn (motive := fun r : Reconstruction => r.image.Consistent) s.groups _ h
    fun _ hr _ _ => processTarget_consistent hr _

/-- A reconstruction starts with a consistent image. -/
theorem start_consistent (h : start view options = .ok r) : r.image.Consistent := by
  obtain ⟨image, created, h⟩ := bind_eq_ok.1 h
  cases h
  exact Image.create_consistent created

/-- The bodies that are left after validation are encodable. -/
theorem finish_encodable {c : Container} (hc : c ∈ r.finish.image.containers)
    {m : SyntheticMethod} (hm : m ∈ c.methods) : m.body.Encodable :=
  Validity.encodable_of_check (Validity.check_of_mem_sweep hc hm)

end Reconstruction

/-- **A reconstruction is written** exactly if the ranges of its regions run forward, the types
of its signatures have a byte form, its parameters have numbers of sixteen bits, and every
member has a parent that a column can refer to. -/
theorem Snapshot.reconstruct_write_iff {s : Snapshot} {view : HostView} {options : Options}
    {report : Report} (h : s.reconstruct view options = .ok report) (fits : report.image.Fits) :
    (∃ bytes, report.image.write = .ok bytes) ↔ report.image.Writable := by
  obtain ⟨r, started, h⟩ := bind_eq_ok.1 h
  cases h
  have kept : (r.process view options s).image.Consistent :=
    Reconstruction.process_consistent (Reconstruction.start_consistent started) s
  exact Image.exists_write_eq_ok (kept.of_same rfl rfl)
    (fun c hc m hm => Reconstruction.finish_encodable hc hm) fits

/-! ### A range that runs backwards -/

/-- A body in which the protected range of a region ends before it begins. -/
def MethodBody.reversedFinally : MethodBody :=
  { MethodBody.ofCode [(.nop, .none), (.nop, .none), (.ret, .none)] with
    regions := [.finalizing ⟨1⟩ (some ⟨0⟩) ⟨1⟩ (some ⟨2⟩)] }

/-- A process with one method. -/
def HostView.ofBody (b : MethodBody) : HostView where
  method id :=
    if id = ⟨1⟩ then
      some { id := ⟨1⟩, name := "Tick", declaringType := some ⟨1⟩, signature := {} }
    else none
  body id := if id = ⟨1⟩ then some b else none
  type id :=
    if id = ⟨1⟩ then some { id := ⟨1⟩, module := some ⟨1⟩, nspace := "Game", name := "Clock" }
    else none
  module _ := none
  modules := []
  findType _ := none
  patches := none

/-- An interception whose transformation changes nothing. -/
def Snapshot.unchanged : Snapshot where
  groups := [(⟨1⟩, [{
    handle := ⟨1⟩
    target := some ⟨1⟩
    replacement := none
    kind := .transform { identity := 0, label := none, run := fun _ b => .edited b } none none
    owner := none }])]

/-- The hypotheses are satisfiable: validation keeps a range that runs backwards, and the image
cannot be written. -/
theorem Snapshot.reconstruct_write_iff_reversed :
    ∃ report, Snapshot.unchanged.reconstruct (.ofBody .reversedFinally) {} = .ok report ∧
      report.image.Fits ∧ ¬∃ bytes, report.image.write = .ok bytes := by
  have facts : (match Snapshot.unchanged.reconstruct (.ofBody .reversedFinally) {} with
      | .ok report => decide report.image.Fits && !decide report.image.Writable
      | .error _ => false) = true := by
    cbv
  split at facts
  · rename_i report h
    rw [Bool.and_eq_true, decide_eq_true_eq, Bool.not_eq_true', decide_eq_false_iff_not] at facts
    exact ⟨report, h, facts.1, fun written => facts.2 ((reconstruct_write_iff h facts.1).1 written)⟩
  · cases facts

end HookImage
