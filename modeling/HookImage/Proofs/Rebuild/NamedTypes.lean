/-
# Types that signatures name

Importing a method makes a type row of every type that its signature and its local variables name by
where it lies, and leaves the tokens that stand there already as they are
(`Importer.synthetic_handles`).  Validation asks of these types only that they are tokens.  It looks
up the types of catch clauses, operands and members in the image, but not these: a token that stood
in a method before its import is kept whether there is such a row or not.

So what a valid signature names are tokens, and all of them name types of the image exactly if those
do that were there before the import (`Validity.sweep_names_types`).  In a reconstruction they come
from the host or from an edit (`Snapshot.reconstruct_names_types`).
-/

import Mathlib
import HookImage.Proofs.Import.Methods
import HookImage.Proofs.Rebuild.Resolving
import HookImage.Proofs.Rebuild.Sources

namespace HookImage

/-- The types that the signature and the local variables of a method name. -/
def SyntheticMethod.typeHandles (m : SyntheticMethod) : List TypeHandle :=
  m.signature.handles ++ m.body.locals.toList.flatMap (·.type.handles)

/-- Whether a token names a type that an image defines, refers to or constructs. -/
def Image.HasType (image : Image) (t : Token) : Prop :=
  (t.table? = some .typeDef ∨ t.table? = some .typeRef ∨ t.table? = some .typeSpec) ∧
    image.HasRow t

/-! ### Handles of an imported method -/

/-- Signatures of the same form have related names, one by one. -/
theorem MethodSig.Alike.handles {R : TypeHandle → TypeHandle → Prop} {s s' : MethodSig}
    (h : s.Alike R s') : List.Forall₂ R s.handles s'.handles :=
  List.rel_append h.result.handles (List.rel_flatMap h.params fun _ _ alike => alike.handles)

namespace Importer

variable {view : HostView} {imp : Importer} {S : SymbolTable} {st st' : ImportState}
  {m m' : SyntheticMethod} {n : Nat}

/-- Whether a handle is another one, or what an import makes of it. -/
def Follows (view : HostView) (s : SymbolTable) (h h' : TypeHandle) : Prop :=
  h' = h ∨ Renders view s h h'

/-- What is not imported follows itself. -/
theorem forall₂_follows_self (hs : List TypeHandle) :
    List.Forall₂ (Follows view S) hs hs :=
  List.forall₂_same.2 fun _ _ => .inl rfl

/-- The names in the types of local variables follow those before the import. -/
theorem locals_handles (small : S.Small) (run : (imp.locals m).run st = ((m', n), st'))
    (reach : st'.symbols.Grows S) :
    List.Forall₂ (Follows imp.view S) (m.body.locals.toList.flatMap (·.type.handles))
      (m'.body.locals.toList.flatMap (·.type.handles)) := by
  unfold locals at run
  obtain ⟨imported | ls, st₁, imported, run⟩ := exists_of_run_bind run
  · cases run
    exact forall₂_follows_self _
  · have follows (h : List.Forall₂ (ImportsLocal imp.view S) m.body.locals.toList ls) :
        List.Forall₂ (Follows imp.view S) (m.body.locals.toList.flatMap (·.type.handles))
          (ls.flatMap (·.type.handles)) :=
      List.rel_flatMap h fun _ _ local' => local'.type.handles.imp fun _ _ => .inr
    dsimp only at run
    split at run
    · cases run
      exact follows (localVars_import small imported reach)
    · obtain ⟨o, st₂, signed, last⟩ := exists_of_run_bind run
      cases last
      have reach₁ := Growing.reaches (growing_bind (imp.growing_blob _ _) fun _ bytes _ _ =>
        growing_row fun s => s.grows_standAloneSig bytes) signed reach
      exact follows (localVars_import small imported reach₁)

/-- The names in the signature follow those before the import. -/
theorem signature_handles (run : (synthetic view m).run st = ((m', n), st'))
    (reach : st'.symbols.Grows S) (small : S.Small) :
    List.Forall₂ (Follows view S) m.signature.handles m'.signature.handles := by
  obtain ⟨-, k, st₁, reach₁, attempted⟩ := synthetic_attempts run reach
  rcases attempt_cases attempted with imported | same
  · exact (signature_alike imported reach₁ small).handles.imp fun _ _ => .inr
  · rw [same]
    exact forall₂_follows_self _

/-- **An import keeps the tokens of a method's types** and makes type rows of some of the others. -/
theorem synthetic_handles (run : (synthetic view m).run st = ((m', n), st'))
    (reach : st'.symbols.Grows S) (small : S.Small) :
    List.Forall₂ (Follows view S) m.typeHandles m'.typeHandles := by
  refine List.rel_append (signature_handles run reach small) ?_
  unfold synthetic at run
  obtain ⟨⟨signature, a⟩, st₁, -, run⟩ := exists_of_run_bind run
  obtain ⟨⟨m₁, b⟩, st₂, hl, run⟩ := exists_of_run_bind run
  obtain ⟨⟨regions, c⟩, st₃, hr, run⟩ := exists_of_run_bind run
  obtain ⟨⟨instructions, d⟩, st₄, hi, run⟩ := exists_of_run_bind run
  obtain ⟨same, rfl⟩ := Prod.mk.inj run
  obtain ⟨rfl, -⟩ := Prod.mk.inj same
  have reach₃ := (growing_each (growing_instruction _) _).reaches hi reach
  exact locals_handles small hl ((growing_each (growing_region _) _).reaches hr reach₃)

end Importer

/-! ### Types of an image -/

/-- Whether a handle is the token of a type of an image. -/
def TypeHandle.NamesType (image : Image) (h : TypeHandle) : Prop :=
  ∃ t, h = .token t ∧ image.HasType t

namespace Validity

variable {image : Image} {view : HostView} {m m' : SyntheticMethod}

/-- A signature denotes no type. -/
theorem denoteSignature_ne_type (blob : Bytes) : denoteSignature blob ≠ .type := by
  unfold denoteSignature
  split
  · exact Denotation.noConfusion
  · split
    · exact Denotation.noConfusion
    · split <;> exact Denotation.noConfusion

/-- A row of the symbol table is a type exactly if it refers to one or constructs one. -/
theorem resolve_type_iff {t : Token} :
    (image.symbols.resolve t = some .typeRef ∨ image.symbols.resolve t = some .typeSpec) ↔
      (t.table? = some .typeRef ∨ t.table? = some .typeSpec) ∧ image.HasRow t := by
  have counted {ρ κ : Type} [BEq κ] [Hashable κ] {key : ρ → κ} (u : Interner key) :
      (∃ row, u.row? t.row = some row) ↔ 1 ≤ t.row ∧ t.row ≤ u.rows.size :=
    ⟨fun ⟨_, row⟩ => Interner.row?_bounds row, fun ⟨first, last⟩ =>
      Interner.row?_of_le_size first last⟩
  have kinds (row : MemberRow) : SymbolTable.memberKind row ≠ .typeRef ∧
      SymbolTable.memberKind row ≠ .typeSpec := by
    unfold SymbolTable.memberKind
    split <;> exact ⟨SymbolKind.noConfusion, SymbolKind.noConfusion⟩
  rw [SymbolTable.resolve, Image.HasRow]
  rcases named : t.table? with _ | table
  · simp
  · cases table <;> simp [Image.rowCount, ← counted, kinds]

/-- **A token denotes a type** exactly if it names a row of one. -/
theorem denote_eq_type_iff {t : Token} : denote image t = some .type ↔ image.HasType t := by
  have symbols (table : TableId) (named : t.table? = some table) (other : table ≠ .typeDef)
      (foreign : table ≠ .methodDef) : denote image t = some .type ↔ image.HasType t := by
    have found : denote image t = some .type ↔
        image.symbols.resolve t = some .typeRef ∨ image.symbols.resolve t = some .typeSpec := by
      rw [denote, named]
      rcases image.symbols.resolve t with _ | kind
      · simp
      · cases kind <;> simp [denoteSignature_ne_type]
    rw [found, resolve_type_iff, Image.HasType, named]
    simp [other]
  rcases named : t.table? with _ | table
  · simp [denote, Image.HasType, named]
  · by_cases defined : table = .typeDef
    · subst defined
      simp [denote, Image.HasType, Image.HasRow, named, Image.rowCount, Image.definesType]
    · by_cases own : table = .methodDef
      · subst own
        simp [denote, Image.HasType, named]
      · exact symbols table named defined own

/-- Validation takes no type out. -/
theorem hasType_sweep {t : Token} : (sweep image).1.HasType t ↔ image.HasType t := by
  have same : denote (sweep image).1 = denote image := by
    rw [sweep_eq]
    exact denote_congr rfl rfl (List.length_map _)
  rw [← denote_eq_type_iff, ← denote_eq_type_iff, same]

/-- What is resolved is a token. -/
theorem token_of_isResolved {h : TypeHandle} (resolved : h.isResolved) : ∃ t, h = .token t := by
  cases h with
  | token t => exact ⟨t, rfl⟩
  | reference r => cases resolved

/-- What the types of a valid method name are tokens. -/
theorem resolved_of_check (h : check image m = .ok ()) :
    ∀ h ∈ m.typeHandles, ∃ t, h = .token t := by
  have types {t : TypeSig} (resolved : t.isResolved) : ∀ h ∈ t.handles, ∃ t, h = .token t :=
    fun h hh => token_of_isResolved (List.all_eq_true.1 resolved h hh)
  unfold check at h
  dsimp only at h
  split at h
  · cases h
  rename_i signature
  rw [Bool.not_eq_true', Bool.not_eq_false, MethodSig.isResolved, Bool.and_eq_true,
    List.all_eq_true] at signature
  split at h
  · cases h
  split at h
  · cases h
  obtain ⟨_, locals, -⟩ := bind_eq_ok.1 h
  unfold checkLocals at locals
  split at locals
  · cases locals
  rename_i resolved
  rw [Array.any_eq_true'] at resolved
  refine List.forall_mem_append.2 ⟨List.forall_mem_append.2 ⟨types signature.1, ?_⟩, ?_⟩
  · exact List.forall_mem_flatMap.2 fun t ht => types (signature.2 t ht)
  · refine List.forall_mem_flatMap.2 fun v hv => types ?_
    by_contra symbolic
    exact resolved ⟨v, Array.mem_toList_iff.1 hv, by simp [symbolic]⟩

/-- **The types of an imported method are there** exactly if those are that were tokens before. -/
theorem namesTypes_iff (imported : m.ImportedInto view image.symbols m')
    (small : image.symbols.Small) (resolved : ∀ h ∈ m'.typeHandles, ∃ t, h = .token t) :
    (∀ h ∈ m'.typeHandles, h.NamesType image) ↔
      ∀ t, .token t ∈ m.typeHandles → image.HasType t := by
  obtain ⟨st, failures, st', run, reach⟩ := imported
  have follows := Importer.synthetic_handles run reach small
  constructor
  · intro named t ht
    obtain ⟨h', hh', same⟩ := exists_mem_of_forall₂ follows.flip ht
    have same : h' = .token t := same.elim id id
    obtain ⟨t', same', type⟩ := named h' hh'
    cases same.symm.trans same'
    exact type
  · intro types h' hh'
    obtain ⟨h, hh, kept | renders⟩ := exists_mem_of_forall₂ follows hh'
    · obtain ⟨t, token⟩ := resolved h' hh'
      exact ⟨t, token, types t (token ▸ kept ▸ hh)⟩
    · cases h with
      | token t => exact ⟨t, renders, types t hh⟩
      | reference r =>
        obtain ⟨t, token, row⟩ := renders.exists_isTypeRow Bool.false_ne_true
        refine ⟨t, token, denote_eq_type_iff.1 ?_⟩
        rw [denote, row.1]
        simp only [row.resolve_eq]

/-- **What the types of a valid method name**, in its signature and in its local variables: tokens.
If the method was imported into the image, all of them name types of the image exactly if those do
that stood there before the import; nothing else is checked. -/
theorem sweep_names_types (image : Image) : ∀ c ∈ (sweep image).1.containers, ∀ m' ∈ c.methods,
    (∀ h ∈ m'.typeHandles, ∃ t, h = .token t) ∧
      ∀ view m, SyntheticMethod.ImportedInto view image.symbols m m' → image.symbols.Small →
        ((∀ h ∈ m'.typeHandles, h.NamesType (sweep image).1) ↔
          ∀ t, .token t ∈ m.typeHandles → (sweep image).1.HasType t) := by
  intro c hc m' hm
  have resolved := resolved_of_check (check_of_mem_sweep hc hm)
  refine ⟨resolved, fun view m imported small => ?_⟩
  simp only [TypeHandle.NamesType, hasType_sweep]
  exact namesTypes_iff imported small resolved

/-- A method that gives a token of a type row that is not there. -/
def strayMethod : SyntheticMethod :=
  .ofBody "Stray" { result := .reference (.token (.ofRow .typeRef 99)) } (.ofCode [(.ret, .none)])

/-- A container with the method. -/
def strayContainer : Container where
  nspace := "Hook"
  name := "Clock"
  parent := none
  standsFor := ⟨1⟩
  methods := [strayMethod]

/-- An image without symbols. -/
def strayImage : Image where
  name := "Hooks"
  symbols := .empty
  provenance := Image.attributeType "PatchInfoAttribute" (.ofRow .typeRef 1) (.ofRow .memberRef 1)
  containers := [strayContainer]
  roots := [0]

/-- The hypotheses are satisfiable: the method is imported as it is, validation keeps it, and its
type is not there. -/
theorem sweep_names_types_stray : ∃ c ∈ (sweep strayImage).1.containers, ∃ m' ∈ c.methods,
    strayMethod.ImportedInto (.ofBody {}) strayImage.symbols m' ∧
      ¬∀ h ∈ m'.typeHandles, h.NamesType (sweep strayImage).1 := by
  have valid : isValid strayImage strayMethod = true := by
    cbv
  have left : sweep strayImage = (strayImage, []) := sweep_of_valid fun c hc m hm => by
    rw [List.mem_singleton.1 hc, strayContainer] at hm
    rw [List.mem_singleton.1 hm]
    exact valid
  have imported : strayMethod.ImportedInto (.ofBody {}) strayImage.symbols strayMethod :=
    ⟨⟨.empty, #[]⟩, 0, ⟨.empty, #[]⟩, rfl, .refl _⟩
  have here : strayContainer ∈ (sweep strayImage).1.containers := by
    rw [left]
    exact List.mem_singleton_self _
  have kept : strayMethod ∈ strayContainer.methods := List.mem_singleton_self _
  refine ⟨strayContainer, here, strayMethod, kept, imported, fun named => ?_⟩
  obtain ⟨-, exactly⟩ := sweep_names_types strayImage strayContainer here strayMethod kept
  have stood : strayMethod.typeHandles = [.token (.ofRow .typeRef 99)] := by
    cbv
  obtain ⟨-, table, named, first, last⟩ := (exactly _ _ imported (by decide)).1 named
    (.ofRow .typeRef 99) (stood ▸ List.mem_singleton_self _)
  rw [Token.table?_ofRow] at named
  cases named
  have none : strayImage.rowCount .typeRef = 0 := rfl
  rw [left, none, Nat.le_zero] at last
  rw [last] at first
  cases first

end Validity

namespace Snapshot

variable {s : Snapshot} {view : HostView} {options : Options} {report : Report}

/-- What the types of a reconstructed method name are tokens. -/
theorem reconstruct_resolved (h : s.reconstruct view options = .ok report) :
    ∀ c ∈ report.image.containers, ∀ m ∈ c.methods, ∀ h ∈ m.typeHandles, ∃ t, h = .token t := by
  obtain ⟨r, -, h⟩ := bind_eq_ok.1 h
  cases h
  exact fun c hc m hm => Validity.resolved_of_check (Validity.check_of_mem_sweep hc hm)

/-- **What the types of a reconstructed method name** are types of the image, exactly if those are
that were tokens in the method that was made for its target. -/
theorem reconstruct_names_types (h : s.reconstruct view options = .ok report)
    (small : report.image.symbols.Small) : ∀ c ∈ report.image.containers, ∀ m' ∈ c.methods,
      ∃ group ∈ s.groups, ∃ target m, view.method group.1 = some target ∧
        (∃ piece ∈ Reconstruction.pieces options group.2,
          piece.Gives view options target (.classify group.1 group.2) m) ∧
        ((∀ h ∈ m'.typeHandles, h.NamesType report.image) ↔
          ∀ t, .token t ∈ m.typeHandles → report.image.HasType t) := by
  intro c hc m' hm
  obtain ⟨sources, yields, -, -⟩ := reconstruct_sourced h c hc
  obtain ⟨a, -, group, target, piece, m, turn, known, place, gives, imported⟩ :=
    exists_mem_of_forall₂ yields hm
  exact ⟨group, List.mem_of_getElem? turn, target, m, known,
    ⟨piece, List.mem_of_getElem? place, gives⟩,
    Validity.namesTypes_iff imported small (reconstruct_resolved h c hc m' hm)⟩

end Snapshot
end HookImage
