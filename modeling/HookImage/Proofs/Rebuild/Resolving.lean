/-
# Tokens of a written image

The tokens in a method are checked against the image, while the file has rows of its own: two
types and a method come before those of the containers, and validation takes methods out after it
has looked at others.  What is checked still holds of the file.  Containers stay, so a type has
the row that its token says; of the methods only the constructor of the attribute is named, which
stays the first one; and the rows of symbols are written in the order in which they were inserted
(`Validity.hasRow_of_denote`, `Draft.exists_row?_member`).  So every token of a method that is
left names a row that the reader counts, and so do the tokens behind it: the parent of a member,
the method of an instantiation (`Validity.sweep_resolves`).
-/

import HookImage.Proofs.Image.Contents
import HookImage.Proofs.Image.ReadBack
import HookImage.Proofs.Rebuild.Serializing

namespace HookImage

/-! ### Rows that are counted -/

/-- Whether a token names a row of a file, by the numbers of rows that are read of it. -/
def MetadataInfo.HasRow (info : MetadataInfo) (t : Token) : Prop :=
  ∃ table, t.table? = some table ∧ 1 ≤ t.row ∧ t.row ≤ info.rowCount table

/-- Whether a token names a row that an image is written with. -/
def Image.HasRow (image : Image) (t : Token) : Prop :=
  ∃ table, t.table? = some table ∧ 1 ≤ t.row ∧ t.row ≤ image.rowCount table

/-- A row of the image is one that a reader is told of. -/
theorem Image.HasRow.read {image : Image} {t : Token} (h : image.HasRow t) {info : MetadataInfo}
    (rows : info.rows = TableId.present image.rowCount) : info.HasRow t := by
  obtain ⟨table, named, first, last⟩ := h
  refine ⟨table, named, first, ?_⟩
  rw [MetadataInfo.rowCount, rows, TableId.lookup_present]
  exact last

/-- The numbers of rows go from one to how many there are. -/
theorem Interner.row?_bounds {ρ κ : Type} [BEq κ] [Hashable κ] {key : ρ → κ} {t : Interner key}
    {n : Nat} {row : ρ} (h : t.row? n = some row) : 1 ≤ n ∧ n ≤ t.rows.size := by
  refine ⟨?_, row?_le_size h⟩
  cases n with
  | zero => cases h
  | succ n => exact Nat.succ_pos n

namespace Validity

variable {image : Image} {t : Token}

/-- What a token of the symbol table names is written. -/
theorem hasRow_of_resolve {kind : SymbolKind} (h : image.symbols.resolve t = some kind) :
    (sweep image).1.HasRow t := by
  rw [SymbolTable.resolve] at h
  rcases named : t.table? with _ | table
  · rw [named] at h
    cases h
  · rw [named] at h
    cases table with
    | assemblyRef | typeRef | typeSpec | memberRef | standAloneSig | methodSpec =>
      obtain ⟨row, found, -⟩ := Option.map_eq_some_iff.1 h
      exact ⟨_, named, Interner.row?_bounds found⟩
    | module | typeDef | field | methodDef | param | customAttribute | assembly | nestedClass
    | userString => cases h

/-- A defined type has its row after validation. -/
theorem hasRow_of_definesType (h : image.definesType t) : (sweep image).1.HasRow t := by
  rw [Image.definesType, Bool.and_eq_true, Bool.and_eq_true, beq_iff_eq, decide_eq_true_eq,
    decide_eq_true_eq] at h
  obtain ⟨⟨named, first⟩, last⟩ := h
  refine ⟨_, named, first, ?_⟩
  rw [Image.rowCount, sweep_eq, List.length_map]
  exact last

/-- The constructor of the attribute is the first method, whatever methods are left. -/
theorem hasRow_constructor (made : image.Made) :
    (sweep image).1.HasRow image.provenance.constructor := by
  obtain ⟨name, base, constructor, provenance⟩ := made
  have first : image.provenance.constructor = .ofRow .methodDef 1 := by
    rw [provenance]
    rfl
  have row : (Token.ofRow .methodDef 1).row = 1 := Token.row_ofRow _ _
  rw [first]
  exact ⟨.methodDef, Token.table?_ofRow _ _, Nat.le_of_eq row.symm, by
    rw [row]
    exact Nat.le_add_left _ _⟩

/-- **What a token denotes is written**, also after invalid methods are taken out. -/
theorem hasRow_of_denote (made : image.Made) {d : Denotation} (h : denote image t = some d) :
    (sweep image).1.HasRow t := by
  unfold denote at h
  split at h
  · cases h
  · split at h
    · rename_i defined
      exact hasRow_of_definesType defined
    · cases h
  · split at h
    · rename_i same
      rw [eq_of_beq same]
      exact hasRow_constructor made
    · cases h
  · rcases resolved : image.symbols.resolve t with _ | kind
    · rw [resolved] at h
      cases h
    · exact hasRow_of_resolve resolved

/-! ### What the checks say -/

/-- The token of a valid instruction denotes something, and what stands behind it is in order. -/
theorem checkToken_eq_ok {i : Instruction} (h : checkToken image i t = .ok ()) :
    (∃ d, denote image t = some d) ∧ checkMember image t = .ok () := by
  unfold checkToken at h
  split at h
  · cases h
  · rename_i d denoted
    split at h
    · exact ⟨⟨d, denoted⟩, h⟩
    · cases h

/-- A token in a valid instruction is checked. -/
theorem checkToken_of_checkInstruction {b : MethodBody} {i : Instruction}
    (h : checkInstruction image b i = .ok ()) (token : i.operand = .token t) :
    checkToken image i t = .ok () := by
  unfold checkInstruction at h
  split at h
  · cases h
  · split at h
    · cases h
    · rw [token] at h
      exact h

/-- The parent of a member that is in order denotes a type. -/
theorem checkParent_eq_ok (h : checkParent image t = .ok ()) {row : MemberRow}
    (member : image.symbols.member? t = some row) : denote image row.parent = some .type := by
  rw [checkParent, member] at h
  dsimp only at h
  split at h
  · rename_i type
    exact eq_of_beq type
  · cases h

/-- What stands behind a token that is in order: a parent, and for an instantiation a method with
one. -/
theorem checkMember_eq_ok (h : checkMember image t = .ok ()) : checkParent image t = .ok () ∧
    ∀ row, image.symbols.instantiation? t = some row →
      image.symbols.resolve row.method = some .methodRef ∧
        checkParent image row.method = .ok () := by
  obtain ⟨_, parent, h⟩ := bind_eq_ok.1 h
  refine ⟨parent, fun row instantiation => ?_⟩
  rw [instantiation] at h
  dsimp only at h
  split at h
  · rename_i method
    exact ⟨eq_of_beq method, h⟩
  · cases h

end Validity

/-! ### Written rows -/

/-- The written row of a token. -/
def Draft.row? (d : Draft) (t : Token) : Option (List Cell) :=
  t.table?.bind fun table => nthRow? (d.rowsOf table).toArray t.row

/-- Related rows have the same numbers. -/
theorem exists_nthRow?_of_forall₂ {α β : Type} {R : α → β → Prop} {xs : Array α} {ys : List β}
    (h : List.Forall₂ R xs.toList ys) {n : Nat} {x : α} (found : nthRow? xs n = some x) :
    ∃ y, nthRow? ys.toArray n = some y ∧ R x y := by
  cases n with
  | zero => cases found
  | succ n =>
    obtain ⟨inside, rfl⟩ := Array.getElem?_eq_some_iff.1 found
    have inside' : n < ys.length := h.length_eq ▸ inside
    exact ⟨ys[n], by simp [nthRow?, inside'], h.get inside inside'⟩

namespace Draft

variable {image : Image} {d : Draft} {t : Token}

/-- The row of a member is written where its token says. -/
theorem exists_row?_member (drafted : ofImage image = .ok d) {row : MemberRow}
    (h : image.symbols.member? t = some row) :
    ∃ columns, d.row? t = some columns ∧ row.WrittenAs columns := by
  unfold SymbolTable.member? at h
  split at h
  · rename_i table
    obtain ⟨columns, found, written⟩ := exists_nthRow?_of_forall₂
      (contents_ofImage drafted).members h
    exact ⟨columns, by rw [row?, eq_of_beq table]; exact found, written⟩
  · cases h

/-- The row of an instantiation is written where its token says. -/
theorem exists_row?_instantiation (drafted : ofImage image = .ok d) {row : InstantiationRow}
    (h : image.symbols.instantiation? t = some row) :
    ∃ columns, d.row? t = some columns ∧ row.WrittenAs columns := by
  unfold SymbolTable.instantiation? at h
  split at h
  · rename_i table
    obtain ⟨columns, found, written⟩ := exists_nthRow?_of_forall₂
      (contents_ofImage drafted).instantiations h
    exact ⟨columns, by rw [row?, eq_of_beq table]; exact found, written⟩
  · cases h

end Draft

/-! ### Tokens that lead to written rows -/

namespace MetadataInfo

/-- Whether the row of a member is written where its token says, and its parent is a row. -/
def HasMember (info : MetadataInfo) (image : Image) (d : Draft) (t : Token) : Prop :=
  ∃ row columns, image.symbols.member? t = some row ∧ d.row? t = some columns ∧
    row.WrittenAs columns ∧ info.HasRow row.parent

/-- Whether the row of an instantiation is written where its token says, and its method is a row,
whose parent is one too. -/
def HasInstantiation (info : MetadataInfo) (image : Image) (d : Draft) (t : Token) : Prop :=
  ∃ row columns, image.symbols.instantiation? t = some row ∧ d.row? t = some columns ∧
    row.WrittenAs columns ∧ info.HasRow row.method ∧ row.method.table? = some .memberRef ∧
    info.HasMember image d row.method

/-- Whether a token names a row of a file, and every token behind it does. -/
structure Resolves (info : MetadataInfo) (image : Image) (d : Draft) (t : Token) : Prop where
  row : info.HasRow t
  member : t.table? = some .memberRef → info.HasMember image d t
  instantiation : t.table? = some .methodSpec → info.HasInstantiation image d t

end MetadataInfo

/-- A member token that has a row names it. -/
theorem Image.HasRow.exists_member {image : Image} {t : Token} (h : image.HasRow t)
    (table : t.table? = some .memberRef) : ∃ row, image.symbols.member? t = some row := by
  obtain ⟨_, named, first, last⟩ := h
  cases named.symm.trans table
  obtain ⟨row, found⟩ := Interner.row?_of_le_size first last
  exact ⟨row, by rw [SymbolTable.member?, table]; exact found⟩

/-- An instantiation token that has a row names it. -/
theorem Image.HasRow.exists_instantiation {image : Image} {t : Token} (h : image.HasRow t)
    (table : t.table? = some .methodSpec) : ∃ row, image.symbols.instantiation? t = some row := by
  obtain ⟨_, named, first, last⟩ := h
  cases named.symm.trans table
  obtain ⟨row, found⟩ := Interner.row?_of_le_size first last
  exact ⟨row, by rw [SymbolTable.instantiation?, table]; exact found⟩

namespace Validity

variable {image : Image} {d : Draft} {info : MetadataInfo} {t : Token}

/-- Only members resolve to methods of other assemblies. -/
theorem table?_of_resolve_methodRef (h : image.symbols.resolve t = some .methodRef) :
    t.table? = some .memberRef := by
  rw [SymbolTable.resolve] at h
  rcases named : t.table? with _ | table
  · rw [named] at h
    cases h
  · rw [named] at h
    cases table <;> simp at h ⊢

/-- A type is no member and no instantiation. -/
theorem table?_of_denote_type (h : denote image t = some .type) :
    t.table? ≠ some .memberRef ∧ t.table? ≠ some .methodSpec := by
  constructor
  · intro table
    rw [denote, table] at h
    simp only [SymbolTable.resolve, table] at h
    generalize image.symbols.members.row? t.row = found at h
    rcases found with _ | row
    · cases h
    · by_cases field : row.signature.head? = some Blob.fieldHeader <;>
        simp [SymbolTable.memberKind, field] at h
  · intro table
    rw [denote, table] at h
    simp only [SymbolTable.resolve, table] at h
    generalize image.symbols.instantiations.row? t.row = found at h
    rcases found with _ | row <;> cases h

/-- A checked member has a parent that is written. -/
theorem hasMember_of_checkParent (made : image.Made)
    (drafted : Draft.ofImage (sweep image).1 = .ok d)
    (rows : info.rows = TableId.present (sweep image).1.rowCount)
    (h : checkParent image t = .ok ()) (here : (sweep image).1.HasRow t)
    (table : t.table? = some .memberRef) : info.HasMember (sweep image).1 d t := by
  obtain ⟨row, member⟩ := here.exists_member table
  obtain ⟨columns, found, written⟩ := Draft.exists_row?_member drafted member
  have parent := hasRow_of_denote made (checkParent_eq_ok h member)
  exact ⟨row, columns, member, found, written, parent.read rows⟩

/-- **A checked token leads to written rows.** -/
theorem resolves_of_checkMember (made : image.Made)
    (drafted : Draft.ofImage (sweep image).1 = .ok d)
    (rows : info.rows = TableId.present (sweep image).1.rowCount)
    (here : (sweep image).1.HasRow t) (h : checkMember image t = .ok ()) :
    info.Resolves (sweep image).1 d t := by
  obtain ⟨parent, instantiated⟩ := checkMember_eq_ok h
  refine ⟨here.read rows, hasMember_of_checkParent made drafted rows parent here, ?_⟩
  intro table
  obtain ⟨row, instantiation⟩ := here.exists_instantiation table
  obtain ⟨columns, found, written⟩ := Draft.exists_row?_instantiation drafted instantiation
  obtain ⟨method, owner⟩ := instantiated row instantiation
  have named := hasRow_of_resolve method
  have members := table?_of_resolve_methodRef method
  exact ⟨row, columns, instantiation, found, written, named.read rows, members,
    hasMember_of_checkParent made drafted rows owner named members⟩

/-- **Every token of a method that is left resolves in the written file**, and so does what every
catch clause catches. -/
theorem sweep_resolves (made : image.Made) {bytes : Bytes}
    (h : (sweep image).1.write = .ok bytes) : ∃ d info,
      Draft.ofImage (sweep image).1 = .ok d ∧ MetadataInfo.read bytes.toArray = .ok info ∧
      ∀ c ∈ (sweep image).1.containers, ∀ m ∈ c.methods,
        (∀ i ∈ m.body.instructions, ∀ t, i.operand = .token t →
          info.Resolves (sweep image).1 d t) ∧
        ∀ r ∈ m.body.regions, r.isCatch → ∃ type t, r.catchType = some type ∧
          Region.catchToken? type = some t ∧ info.Resolves (sweep image).1 d t := by
  -- The sweep takes methods out and leaves the attribute alone.
  have kept : (sweep image).1.Made := made
  obtain ⟨d, s, root, drafted, -, -, -, -, read⟩ := Image.exists_read_of_write kept h
  refine ⟨d, _, drafted, read, fun c hc m hm => ?_⟩
  obtain ⟨instructions, regions⟩ := check_eq_ok (check_of_mem_sweep hc hm)
  refine ⟨fun i hi t token => ?_, fun r hr typed => ?_⟩
  · have checked := checkToken_of_checkInstruction (instructions i hi) token
    obtain ⟨⟨k, denoted⟩, member⟩ := checkToken_eq_ok checked
    exact resolves_of_checkMember made drafted rfl (hasRow_of_denote made denoted) member
  · -- A caught type names no other row of a symbol.
    obtain ⟨type, t, caught, found, denoted⟩ := (checkRegion_eq_ok (regions r hr)).2.2 typed
    obtain ⟨member, instantiation⟩ := table?_of_denote_type denoted
    refine ⟨type, t, caught, found, (hasRow_of_denote made denoted).read rfl, ?_, ?_⟩
    · exact fun table => absurd table member
    · exact fun table => absurd table instantiation

/-- A method that calls an instantiation of a member, and catches a type. -/
def linkedMethod : SyntheticMethod where
  name := "Tick"
  signature := {}
  paramNames := []
  body :=
    { MethodBody.ofCode [(.nop, .none), (.call, .token (.ofRow .methodSpec 1)), (.ret, .none)] with
      regions := [.catching ⟨0⟩ (some ⟨1⟩) ⟨1⟩ (some ⟨2⟩)
        (.reference (.token (.ofRow .typeSpec 1)))] }

/-- A method that calls what is not there. -/
def danglingMethod : SyntheticMethod where
  name := "Tock"
  signature := {}
  paramNames := []
  body := .ofCode [(.call, .token (.ofRow .memberRef 9)), (.ret, .none)]

/-- A type with both methods. -/
def linkedContainer : Container where
  nspace := "Game"
  name := "Clock"
  parent := none
  standsFor := ⟨1⟩
  methods := [danglingMethod, linkedMethod]

/-- An image with the type. -/
def linkedImage : Image where
  name := "dump"
  symbols :=
    (((SymbolTable.empty.typeSpec [0x1C]).2.memberRef
      ⟨.ofRow .typeSpec 1, "Get", [0x10, 1, 0, 1]⟩).2.methodSpec
      ⟨.ofRow .memberRef 1, [0x0A, 1, 0x1C]⟩).2
  provenance := Image.attributeType "PatchInfo" (.ofRow .typeRef 1) (.ofRow .memberRef 1)
  containers := [linkedContainer]
  roots := [0]

/-- What is left of the image. -/
def prunedImage : Image :=
  { linkedImage with containers := [{ linkedContainer with methods := [linkedMethod] }] }

/-- Validation leaves the pruned image of the linked one. -/
theorem sweep_linkedImage_eq : (sweep linkedImage).1 = prunedImage := by
  have invalid : isValid linkedImage danglingMethod = false := by
    cbv
  have valid : isValid linkedImage linkedMethod = true := by
    cbv
  have left : linkedContainer.methods.filter (isValid linkedImage) = [linkedMethod] := by
    rw [linkedContainer, List.filter_cons_of_neg (by simp [invalid]),
      List.filter_cons_of_pos valid, List.filter_nil]
  have containers : linkedImage.containers.map (prune linkedImage) =
      [{ linkedContainer with methods := [linkedMethod] }] := by
    rw [linkedImage, List.map_singleton, ← left]
    rfl
  rw [sweep_eq, containers]
  rfl

set_option maxRecDepth 2000 in
/-- The hypotheses are satisfiable: what validation leaves of such an image is written. -/
theorem sweep_resolves_linked : ∃ bytes d info, (sweep linkedImage).1.write = .ok bytes ∧
    MetadataInfo.read bytes.toArray = .ok info ∧
    info.Resolves (sweep linkedImage).1 d (.ofRow .methodSpec 1) := by
  obtain ⟨bytes, written⟩ : ∃ bytes, prunedImage.write = .ok bytes := by
    apply Image.exists_write_of_small
    cbv
  rw [← sweep_linkedImage_eq] at written
  have here : { linkedContainer with methods := [linkedMethod] } ∈
      (sweep linkedImage).1.containers := by
    rw [sweep_linkedImage_eq]
    exact List.mem_singleton_self _
  have call : (⟨⟨1⟩, .call, .token (.ofRow .methodSpec 1)⟩ : Instruction) ∈
      linkedMethod.body.instructions :=
    List.mem_cons_of_mem _ (List.mem_cons_self ..)
  obtain ⟨d, info, -, read, all⟩ := sweep_resolves ⟨_, _, _, rfl⟩ written
  obtain ⟨instructions, -⟩ := all _ here _ (List.mem_singleton_self _)
  exact ⟨bytes, d, info, written, read, instructions _ call _ rfl⟩

end Validity
end HookImage
