/-
# Imported methods are valid

Validation derives the kind of a token from its table, and where that is not enough from the
first byte of a signature.  For the tokens that an import gives this is the kind of what was
imported (`denote_of_denotes`), and stays so whatever is imported later.  A method that names
nothing by a token and whose operands, branches and regions are in order is therefore valid
once all of it is imported (`check_synthetic`), unless its local variables are too many to be
counted: an import does not sign these, and says nothing of it.
-/

import HookImage.Proofs.Cil.Encodable
import HookImage.Proofs.Import.Methods
import HookImage.Proofs.Symbols.Interning
import HookImage.Rebuild.Validity

namespace HookImage

namespace Validity

open Importer

variable {view : HostView} {image : Image} {token : Token}

/-! ### Kinds of rows -/

/-- What stands for an imported type denotes a type. -/
theorem denote_of_denotesType {t : TypeSig} (symbolic : ∀ h ∈ t.handles, ¬h.isResolved)
    (h : DenotesType view image.symbols t token) : denote image token = some .type := by
  rcases h.exists_row symbolic with isRow | ⟨table, bytes, row⟩
  · rw [denote, isRow.1]
    simp only [isRow.resolve_eq]
  · rw [denote, table]
    simp only [SymbolTable.resolve, table, row, Option.map_some]

/-- The token of a member resolves to what its signature makes of it. -/
theorem resolve_of_hasMember {row : MemberRow} (h : image.symbols.HasMember token row) :
    image.symbols.resolve token = some (SymbolTable.memberKind row) := by
  rw [SymbolTable.resolve, h.1]
  simp only [h.2, Option.map_some]

/-- The parent of an imported member denotes a type. -/
theorem checkParent_of_hasMember {d : TypeSig} {row : MemberRow}
    (h : image.symbols.HasMember token row) (symbolic : ∀ h ∈ d.handles, ¬h.isResolved)
    (parent : DenotesType view image.symbols d row.parent) : checkParent image token = .ok () := by
  have found : image.symbols.member? token = some row := by
    rw [SymbolTable.member?, h.1, h.2]
    rfl
  rw [checkParent, found]
  simp only [denote_of_denotesType symbolic parent, beq_self_eq_true, if_true]

/-- A token of another table is no member. -/
theorem checkParent_of_table {table : TableId} (h : token.table? = some table)
    (other : table ≠ .memberRef) : checkParent image token = .ok () := by
  have missing : image.symbols.member? token = none := by
    rw [SymbolTable.member?, h, if_neg]
    simpa using other
  rw [checkParent, missing]

/-- A token of another table than that of instantiations is in order if its parent is. -/
theorem checkMember_of_table {table : TableId} (h : token.table? = some table)
    (other : table ≠ .methodSpec) (parent : checkParent image token = .ok ()) :
    checkMember image token = .ok () := by
  have missing : image.symbols.instantiation? token = none := by
    rw [SymbolTable.instantiation?, h, if_neg]
    simpa using other
  rw [checkMember, parent, missing]
  rfl

/-- The signature of a method that is not generic denotes an indirect call. -/
theorem denoteSignature_method {s : MethodSig} {bytes : Bytes} (h : Blob.method s = .ok bytes)
    (plain : s.genericCount = 0) : denoteSignature bytes = .callSite := by
  have generic : (Blob.methodHeader s &&& Blob.genericMark == 0) = true := by
    rw [Blob.methodHeader_generic, plain]
    decide
  have convention : Blob.methodHeader s &&& 0x0F ≤ Blob.conventionCode .varArg := by
    rw [Blob.methodHeader_low]
    exact Blob.conventionCode_le _
  rw [denoteSignature, Blob.head?_method h]
  simp only
  rw [if_neg, if_pos]
  · simp only [generic, convention, decide_true, Bool.and_self]
  · simpa using Blob.methodHeader_ne (b := Blob.localsHeader) (by decide)

/-- The row of an imported method. -/
theorem resolve_of_denotesMethod {m : MethodRef} (symbolic : ∀ h ∈ m.handles, ¬h.isResolved)
    (h : DenotesMethod view image.symbols m token) :
    token.table? = some .memberRef ∧ image.symbols.resolve token = some .methodRef ∧
      checkParent image token = .ok () := by
  obtain @⟨d, owner, signature, bytes, declared, parent, alike, encoded, row⟩ := h
  have named : ∀ h ∈ d.handles, ¬h.isResolved := fun h hh => symbolic h <| by
    rw [MethodRef.handles, declared]
    exact List.mem_append_left _ (List.mem_append_left _ (List.mem_flatMap.2
      ⟨d, List.mem_singleton_self d, hh⟩))
  refine ⟨row.1, ?_, checkParent_of_hasMember row named parent⟩
  rw [resolve_of_hasMember row, SymbolTable.memberKind_method encoded]

/-- What an operand that names metadata denotes. -/
def sortOf : Operand → Denotation
  | .type _ => .type
  | .field _ => .field
  | .callSite _ => .callSite
  | _ => .method

/-- **The token of an imported operand denotes what the operand is**, and what stands behind it
is in order. -/
theorem denote_of_denotes {o : Operand} (symbolic : ∀ h ∈ o.handles, ¬h.isResolved)
    (plain : ∀ s, o = .callSite s → s.genericCount = 0)
    (h : Denotes view image.symbols o token) :
    denote image token = some (sortOf o) ∧ checkMember image token = .ok () := by
  cases h with
  | type type =>
    refine ⟨denote_of_denotesType symbolic type, ?_⟩
    rcases type.exists_row symbolic with ⟨table, _⟩ | ⟨table, _⟩
    · exact checkMember_of_table table (by decide) (checkParent_of_table table (by decide))
    · exact checkMember_of_table table (by decide) (checkParent_of_table table (by decide))
  | method _ method =>
    obtain ⟨table, resolved, parent⟩ := resolve_of_denotesMethod symbolic method
    refine ⟨?_, checkMember_of_table table (by decide) parent⟩
    rw [denote, table]
    simp only [resolved]
    rfl
  | @instantiation m definition _ arguments bytes _ method _ _ table row =>
    obtain ⟨_, resolved, parent⟩ := resolve_of_denotesMethod symbolic method
    have found : image.symbols.instantiation? token = some ⟨definition, bytes⟩ := by
      rw [SymbolTable.instantiation?, table, row]
      rfl
    constructor
    · rw [denote, table]
      simp only [SymbolTable.resolve, table, row, Option.map_some]
      rfl
    · rw [checkMember, checkParent_of_table table (by decide), found]
      simp only [resolved, beq_self_eq_true, if_true]
      exact parent
  | @field f d t owner _ bytes declared parent _ encoded row =>
    have named : ∀ h ∈ d.handles, ¬h.isResolved := fun h hh => symbolic h <| by
      rw [Operand.handles, FieldRef.handles, declared]
      exact List.mem_append_left _ (List.mem_flatMap.2 ⟨d, List.mem_singleton_self d, hh⟩)
    have resolved : image.symbols.resolve token = some .fieldRef := by
      have kind : SymbolTable.memberKind ⟨owner, f.name, bytes⟩ = .fieldRef :=
        SymbolTable.memberKind_field encoded
      rw [resolve_of_hasMember row, kind]
    refine ⟨?_, checkMember_of_table row.1 (by decide) (checkParent_of_hasMember row named parent)⟩
    rw [denote, row.1]
    simp only [resolved]
    rfl
  | @callSite s _ _ bytes alike encoded table row =>
    refine ⟨?_, checkMember_of_table table (by decide) (checkParent_of_table table (by decide))⟩
    have found : image.symbols.signature? token = some bytes := by
      rw [SymbolTable.signature?, table, row]
      rfl
    rw [denote, table]
    simp only [SymbolTable.resolve, table, row, Option.map_some, found]
    rw [denoteSignature_method encoded (alike.genericCount.trans (plain s rfl))]
    rfl

/-! ### Methods -/

/-- Where an operand fits, the token of its row does. -/
theorem fits_token {o : Operand} {kind : OperandKind} (symbolic : o.isSymbolic)
    (fits : o.fits kind) (t : Token) :
    (Operand.token t).fits kind ∧ kind.accepts (sortOf o) := by
  cases o with
  | type _ => cases kind <;> first | exact ⟨rfl, rfl⟩ | cases fits
  | method _ => cases kind <;> first | exact ⟨rfl, rfl⟩ | cases fits
  | field _ => cases kind <;> first | exact ⟨rfl, rfl⟩ | cases fits
  | callSite _ => cases kind <;> first | exact ⟨rfl, rfl⟩ | cases fits
  | _ => exact absurd symbolic Bool.false_ne_true

/-- Among numbers that the body has none is missing. -/
theorem find?_missing {b : MethodBody} {ids : List InstrId}
    (present : ∀ id ∈ ids, id ∈ b.instructions.map (·.id)) :
    (ids.find? fun id => (b.position? id).isNone) = none :=
  List.find?_eq_none.2 fun id hid =>
    Bool.eq_false_iff.1 (MethodBody.isNone_position?.2 (present id hid))

/-- **An imported instruction is valid.** -/
theorem checkInstruction_imported {b : MethodBody} {i i' : Instruction}
    (imported : ImportsInstruction view image.symbols i i')
    (fits : i.operand.fits i.opcode.operandKind) (bare : ∀ t, i.operand ≠ .token t)
    (symbolic : ∀ h ∈ i.operand.handles, ¬h.isResolved)
    (plain : ∀ s, i.operand = .callSite s → s.genericCount = 0)
    (targets : ∀ id ∈ i.operand.instrIds, id ∈ b.instructions.map (·.id)) :
    checkInstruction image b i' = .ok () := by
  obtain ⟨id, opcode, operand⟩ := i'
  obtain ⟨rfl, rfl, ⟨none, rfl⟩ | ⟨some, token, rfl, denotes⟩⟩ := imported
  · rw [checkInstruction, fits, if_neg (by decide), if_neg none]
    split
    · rename_i t isToken
      exact absurd isToken (bare t)
    · rw [checkTargets, find?_missing targets]
  · obtain ⟨tokenFits, accepted⟩ := fits_token some fits token
    obtain ⟨denoted, member⟩ := denote_of_denotes symbolic plain denotes
    rw [checkInstruction, tokenFits, if_neg (by decide)]
    show checkToken image _ token = .ok ()
    simp only [checkToken, denoted, accepted, member, if_true]

/-- A region is valid if its anchors are there, a filter has its start, and what is caught is in
order. -/
theorem checkRegion_of_parts {b : MethodBody} {r : Region}
    (anchors : ∀ id ∈ r.anchors, id ∈ b.instructions.map (·.id))
    (filters : r.isFilter → r.filterStart.isSome)
    (catches : r.isCatch → checkCatch image r = .ok ()) : checkRegion image b r = .ok () := by
  have present : ¬(r.isFilter && r.filterStart.isNone) = true := by
    rw [Bool.and_eq_true, Option.isNone_iff_eq_none]
    rintro ⟨filter, none⟩
    have := filters filter
    rw [none] at this
    exact Bool.false_ne_true this
  rw [checkRegion, find?_missing anchors]
  dsimp only
  rw [if_neg present]
  split
  · rename_i typed
    exact catches typed
  · rfl

/-- **An imported region is valid.** -/
theorem checkRegion_imported {b : MethodBody} {r r' : Region}
    (imported : ImportsRegion view image.symbols r r')
    (symbolic : ∀ t, r.catchType = some t → ∀ h ∈ t.handles, ¬h.isResolved)
    (anchors : ∀ id ∈ r.anchors, id ∈ b.instructions.map (·.id))
    (filters : r.isFilter → r.filterStart.isSome) (catches : r.isCatch → r.catchType.isSome) :
    checkRegion image b r' = .ok () := by
  rcases imported with ⟨none, rfl⟩ | ⟨t, token, typed, denotes, rfl⟩
  · refine checkRegion_of_parts anchors filters fun caught => ?_
    have := catches caught
    rw [none] at this
    exact absurd this Bool.false_ne_true
  · refine checkRegion_of_parts anchors filters fun _ => ?_
    have denoted := denote_of_denotesType (symbolic t typed) denotes
    simp only [checkCatch, Region.catchToken?, denoted, beq_self_eq_true, if_true]

end Validity

/-- The named types of a body: those of its local variables, of its catch types and of its
operands. -/
def MethodBody.handles (b : MethodBody) : List TypeHandle :=
  b.locals.toList.flatMap (·.type.handles) ++
    b.regions.flatMap (fun r => r.catchType.toList.flatMap (·.handles)) ++
    b.instructions.flatMap (·.operand.handles)

/-- Whether the local variables of a body can be counted in 32 bits, and so can the members of
every list in their types. -/
def MethodBody.LocalsCounted (b : MethodBody) : Prop :=
  b.locals.size < 0x100000000 ∧ ∀ v ∈ b.locals.toList, ∀ n ∈ v.type.lists, n < 0x100000000

instance (b : MethodBody) : Decidable b.LocalsCounted :=
  inferInstanceAs (Decidable (_ ∧ _))

/-- Whether a method is in order but for what it names.  Nothing in its body is named by a
token. -/
structure SyntheticMethod.Importable (m : SyntheticMethod) : Prop where
  paramNames : m.paramNames.length = m.signature.params.length
  nonempty : m.body.instructions ≠ []
  symbolic : ∀ h ∈ m.body.handles, ¬h.isResolved
  bare : ∀ i ∈ m.body.instructions, ∀ t, i.operand ≠ .token t
  fits : ∀ i ∈ m.body.instructions, i.operand.fits i.opcode.operandKind
  plain : ∀ i ∈ m.body.instructions, ∀ s, i.operand = .callSite s → s.genericCount = 0
  targets : ∀ i ∈ m.body.instructions, ∀ id ∈ i.operand.instrIds,
    id ∈ m.body.instructions.map (·.id)
  anchors : ∀ r ∈ m.body.regions, ∀ id ∈ r.anchors, id ∈ m.body.instructions.map (·.id)
  filters : ∀ r ∈ m.body.regions, r.isFilter → r.filterStart.isSome
  catches : ∀ r ∈ m.body.regions, r.isCatch → r.catchType.isSome

namespace Validity

open Importer

variable {view : HostView} {image : Image} {m m' : SyntheticMethod}

/-- The signature of imported local variables has a byte form exactly if they can be counted. -/
theorem exists_locals_imported (imported : Imports view image.symbols m m')
    (symbolic : ∀ v ∈ m.body.locals.toList, ∀ h ∈ v.type.handles, ¬h.isResolved) :
    (∃ bytes, Blob.locals m'.body.locals.toList = .ok bytes) ↔ m.body.LocalsCounted := by
  rw [Blob.exists_locals_eq_ok, ← imported.locals.length_eq]
  refine and_congr_right fun _ => ⟨fun written v hv => ?_, fun counted v' hv => ?_⟩
  · obtain ⟨v', hv', alike⟩ := exists_mem_of_forall₂ (List.Forall₂.flip imported.locals) hv
    rw [← alike.type.lists_numbers.1]
    exact (written v' hv').2
  · obtain ⟨v, hv, alike⟩ := exists_mem_of_forall₂ imported.locals hv
    rw [alike.type.lists_numbers.1]
    exact ⟨written_of_alike alike.type (symbolic v hv), counted v hv⟩

/-- The row that signs local variables denotes them. -/
theorem denote_of_signature {vs : List LocalVar} {bytes : Bytes}
    (encoded : Blob.locals vs = .ok bytes) (table : token.table? = some .standAloneSig)
    (row : image.symbols.signatures.row? token.row = some bytes) :
    denote image token = some .locals := by
  have found : image.symbols.signature? token = some bytes := by
    rw [SymbolTable.signature?, table, row]
    rfl
  rw [denote, table]
  simp only [SymbolTable.resolve, table, row, Option.map_some, found]
  rw [denoteSignature, Blob.head?_locals encoded]
  rfl

/-- Imported local variables are in order if they can be counted.  If they cannot, they are not
signed, and that is what is found. -/
theorem checkLocals_imported (imported : Imports view image.symbols m m')
    (symbolic : ∀ v ∈ m.body.locals.toList, ∀ h ∈ v.type.handles, ¬h.isResolved) :
    checkLocals image m' =
      if m.body.LocalsCounted then .ok () else .error .localsWithoutSignature := by
  have resolved : (m'.body.locals.any fun v => !v.type.isResolved) = false := by
    rw [← Array.any_toList, List.any_eq_false]
    intro v' hv
    obtain ⟨v, _, alike⟩ := exists_mem_of_forall₂ imported.locals hv
    rw [isResolved_of_alike alike.type]
    decide
  have same := exists_locals_imported imported symbolic
  rw [checkLocals, resolved, if_neg (by decide)]
  split
  · rename_i none
    -- No local variables can be counted.
    have none : m'.body.locals.toList = [] := by
      rw [Array.toList_eq_nil_iff, ← Array.isEmpty_iff, none]
    rw [if_pos (same.1 ((Blob.exists_locals_eq_ok _).2 (by simp [none])))]
  · rename_i some
    have some : m'.body.locals.toList ≠ [] := fun none => some (by
      rw [Array.isEmpty_iff, ← Array.toList_eq_nil_iff, none])
    have signs := imported.localSignature some
    by_cases counted : m.body.LocalsCounted
    · obtain ⟨bytes, encoded⟩ := same.2 counted
      obtain ⟨token, signed, table, row⟩ := signs.row bytes encoded
      simp only [signed, denote_of_signature encoded table row, beq_self_eq_true, if_true,
        if_pos counted]
    · rw [signs.missing (mt same.1 counted), if_neg counted]

/-- **An imported method is valid**, and stays so under every import behind it, as long as the
tables have room.  Only local variables that are too many to be counted are not signed by an
import, and then the method is refused for that. -/
theorem check_synthetic {st st' : ImportState} (ready : m.Importable)
    (run : (synthetic view m).run st = ((m', 0), st')) (later : List Request)
    (reached : image.symbols = (serveAll st' later).symbols) (small : image.symbols.Small) :
    check image m' =
      if m.body.LocalsCounted then .ok () else .error .localsWithoutSignature := by
  have reach : st'.symbols.Grows image.symbols := by
    rw [reached]
    exact grows_serveAll st' later
  have imported := synthetic_imported run reach small
  have numbers : m'.body.instructions.map (·.id) = m.body.instructions.map (·.id) :=
    map_eq_of_forall₂ (imported.instructions.imp fun _ _ h => h.id)
  have resolved : m'.signature.isResolved := by
    rw [MethodSig.isResolved, isResolved_of_alike imported.signature.result, Bool.true_and,
      List.all_eq_true]
    intro t' ht
    obtain ⟨t, _, alike⟩ := exists_mem_of_forall₂ imported.signature.params ht
    exact isResolved_of_alike alike
  have names : m'.paramNames.length = m'.signature.params.length := by
    rw [imported.paramNames, ready.paramNames, imported.signature.params.length_eq]
  have nonempty : ¬m'.body.isEmpty := by
    intro none
    have none := List.isEmpty_iff.1 none
    rw [none] at numbers
    exact ready.nonempty (List.map_eq_nil_iff.1 numbers.symm)
  have ⟨⟨locals, caught⟩, operands⟩ :
      ((∀ v ∈ m.body.locals.toList, ∀ h ∈ v.type.handles, ¬h.isResolved) ∧
        ∀ r ∈ m.body.regions, ∀ t ∈ r.catchType.toList, ∀ h ∈ t.handles, ¬h.isResolved) ∧
        ∀ i ∈ m.body.instructions, ∀ h ∈ i.operand.handles, ¬h.isResolved := by
    simpa only [MethodBody.handles, List.forall_mem_append, List.forall_mem_flatMap]
      using ready.symbolic
  have valid : ∀ i' ∈ m'.body.instructions, checkInstruction image m'.body i' = .ok () := by
    intro i' hi'
    obtain ⟨i, hi, imports⟩ := exists_mem_of_forall₂ imported.instructions hi'
    exact checkInstruction_imported imports (ready.fits i hi) (ready.bare i hi) (operands i hi)
      (ready.plain i hi) (numbers ▸ ready.targets i hi)
  have guarded : ∀ r' ∈ m'.body.regions, checkRegion image m'.body r' = .ok () := by
    intro r' hr'
    obtain ⟨r, hr, imports⟩ := exists_mem_of_forall₂ imported.regions hr'
    exact checkRegion_imported imports (fun t ht => caught r hr t (Option.mem_toList.2 ht))
      (numbers ▸ ready.anchors r hr) (ready.filters r hr) (ready.catches r hr)
  rw [check, resolved, names, bne_self_eq_false, Bool.eq_false_iff.2 nonempty,
    checkLocals_imported imported locals]
  by_cases counted : m.body.LocalsCounted
  · rw [if_pos counted, forM_eq_ok.2 valid]
    exact forM_eq_ok.2 guarded
  · rw [if_neg counted]
    rfl

end Validity

/-! ### A method with references of every kind -/

/-- A method that calls an instantiated method in a protected range and reads a field in the
handler. -/
def SyntheticMethod.guardedCall : SyntheticMethod where
  name := "Update"
  signature := { params := [.ofName "Clock"] }
  paramNames := ["clock"]
  body :=
    { MethodBody.ofCode [
        (.call, .method
          { declaringType := some (.ofName "Player"), name := "Get"
            signature := { genericCount := 1, result := .methodParam 0 }
            genericArguments := [.array (.ofName "Item")] }),
        (.calli, .callSite { params := [.ofName "Item"] }),
        (.leaveS, .target ⟨4⟩),
        (.ldsfld, .field
          { declaringType := some (.array (.ofName "Item")), name := "Empty"
            fieldType := .primitive .int32 }),
        (.ret, .none)] with
      locals := #[⟨.ofName "Item", false⟩]
      regions := [.catching ⟨0⟩ (some ⟨3⟩) ⟨3⟩ (some ⟨4⟩) (.ofName "Failure")] }

/-- The guarded call is in order but for what it names. -/
theorem SyntheticMethod.guardedCall_importable : guardedCall.Importable where
  paramNames := rfl
  nonempty := List.cons_ne_nil _ _
  symbolic := by
    simp [MethodBody.handles, guardedCall, MethodBody.ofCode, MethodBody.numbered, Operand.handles,
      MethodRef.handles, FieldRef.handles, MethodSig.handles, TypeSig.handles, TypeSig.ofName,
      Region.catching, TypeHandle.isResolved]
  bare := by
    simp [guardedCall, MethodBody.ofCode, MethodBody.numbered]
  fits := by decide
  plain := by
    simp [guardedCall, MethodBody.ofCode, MethodBody.numbered]
  targets := by decide
  anchors := by decide
  filters := by decide
  catches := by decide

/-- The guarded call has one local variable. -/
theorem SyntheticMethod.guardedCall_localsCounted : guardedCall.body.LocalsCounted := by
  simp [MethodBody.LocalsCounted, guardedCall, MethodBody.ofCode, MethodBody.numbered,
    TypeSig.lists, TypeSig.ofName]

/-- What is imported behind the method. -/
def Importer.laterMap : List Request := [.operand ⟨.game, none⟩ (.type (.ofName "Map"))]

/-- The hypotheses are satisfiable: the method is imported into an empty table without a
failure, and another type behind it. -/
theorem Validity.check_synthetic_guardedCall : ∃ m' image,
    ((Importer.synthetic .game .guardedCall).run { symbols := {} }).1 = (m', 0) ∧
      image.symbols = (Importer.serveAll ((Importer.synthetic .game .guardedCall).run
        { symbols := {} }).2 Importer.laterMap).symbols ∧ check image m' = .ok () := by
  have facts : (((Importer.synthetic .game .guardedCall).run { symbols := {} }).1.2 == 0 &&
      decide (Importer.serveAll ((Importer.synthetic .game .guardedCall).run
        { symbols := {} }).2 Importer.laterMap).symbols.Small) = true := by
    cbv
  rw [Bool.and_eq_true, beq_iff_eq, decide_eq_true_eq] at facts
  rcases run : (Importer.synthetic .game .guardedCall).run { symbols := {} } with ⟨⟨m', n⟩, st'⟩
  rw [run] at facts
  obtain ⟨rfl, small⟩ := facts
  let image : Image :=
    { name := "Hooks"
      symbols := (Importer.serveAll st' Importer.laterMap).symbols
      provenance := Image.attributeType "Patch" ⟨0⟩ ⟨0⟩ }
  have answer : check image m' = _ :=
    check_synthetic SyntheticMethod.guardedCall_importable run Importer.laterMap rfl small
  rw [if_pos SyntheticMethod.guardedCall_localsCounted] at answer
  exact ⟨m', image, rfl, rfl, answer⟩

end HookImage
