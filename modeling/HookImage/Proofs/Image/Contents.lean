/-
# What stands in the rows of an image

A drafted image has for each table the rows of what the image has: a symbol row for each row of
the symbol table, a row for each type that it defines, for each method, for each name of a
parameter and for each tag (`Draft.contents_ofImage`).  The rows of types and of methods also say
where a run of rows begins, and the invariant that every step of drafting keeps is that runs have
the sizes of what they belong to (`Draft.Runs`): a row that begins a run is drafted when the
runs before it are complete, and a row of a run when its run is the last.

The type of what belongs to no type and the type of the attribute are listed with those of the
containers, and the constructor of the attribute with the methods, so that one argument covers
them all.
-/

import HookImage.Proofs.Image.Rows

namespace HookImage

/-! ### What a row says -/

/-- What the row of a type that an image defines says. -/
structure TypeHead where
  attributes : Nat
  nspace : String := ""
  name : String
  /-- The type that it extends, or the null token. -/
  base : Token := ⟨0⟩

/-- A type that an image defines, with its methods. -/
structure DefinedType where
  head : TypeHead
  methods : List SyntheticMethod := []

/-- The constructor of the attribute as a method. -/
def AttributeType.constructorMethod (a : AttributeType) : SyntheticMethod where
  name := ".ctor"
  signature := a.signature
  attributes := constructorAttributes
  paramNames := a.paramNames
  body := a.body

/-- The type of the attribute. -/
def AttributeType.defined (a : AttributeType) : DefinedType where
  head := { attributes := AttributeType.attributes, name := a.name, base := a.base }
  methods := [a.constructorMethod]

/-- The type of a container. -/
def Container.defined (c : Container) : DefinedType where
  head := { attributes := c.attributes, nspace := c.nspace, name := c.name }
  methods := c.methods

/-- The type of what belongs to no type. -/
def DefinedType.module : DefinedType where
  head := { attributes := 0, name := "<Module>" }

/-- The types that an image defines, in the order of their rows. -/
def Image.defined (image : Image) : List DefinedType :=
  .module :: image.provenance.defined :: image.containers.map Container.defined

/-- The methods of types, in the order of their rows. -/
def DefinedType.allMethods (types : List DefinedType) : List SyntheticMethod :=
  types.flatMap (·.methods)

/-- The methods of an image are the constructor of the attribute and those of containers. -/
theorem Image.allMethods_defined (image : Image) : DefinedType.allMethods image.defined =
    image.provenance.constructorMethod :: image.methods.map (·.2) := by
  rw [Image.map_snd_methods]
  simp [DefinedType.allMethods, Image.defined, DefinedType.module, AttributeType.defined,
    Container.defined, List.flatMap_map]

/-- There are as many rows of methods as methods, the constructor of the attribute included. -/
theorem Image.length_allMethods (image : Image) :
    (DefinedType.allMethods image.defined).length = image.rowCount .methodDef := by
  rw [allMethods_defined, List.length_cons, List.length_map]
  rfl

/-- The tags of methods, each with the number of the row of its method. -/
def SyntheticMethod.numberedTags (methods : List SyntheticMethod) : List (ProvenanceTag × Nat) :=
  (methods.zipIdx 1).flatMap fun (m, n) => m.tags.map (·, n)

/-- Whether columns are those of the written row of a type. -/
def TypeHead.WrittenAs (type : TypeHead) (columns : List Cell) : Prop :=
  ∃ base start, Cell.ofToken .typeDefOrRef type.base = .ok base ∧
    columns = [.dword (UInt32.ofNat type.attributes), .name type.name, .name type.nspace, base,
      .row .field 1, .row .methodDef start]

/-- Whether columns are those of the written row of a method. -/
def SyntheticMethod.WrittenAs (m : SyntheticMethod) (columns : List Cell) : Prop :=
  ∃ address signature start, Blob.method m.signature = .ok signature ∧
    columns = [.dword (UInt32.ofNat address), .word 0, .word m.attributes, .name m.name,
      .blob signature, .row .param start]

/-- The row of the name of a parameter, at a position that is counted from zero. -/
def Cell.param (param : String × Nat) : List Cell :=
  [.word 0, .word (UInt16.ofNat (param.2 + 1)), .name param.1]

/-- The rows of the names of the parameters of a method. -/
def SyntheticMethod.paramRows (m : SyntheticMethod) : List (List Cell) :=
  m.paramNames.zipIdx.map Cell.param

/-- Whether columns are those of the written row of a tag of a method, in an image whose
attribute has a constructor. -/
def ProvenanceTag.WrittenAs (constructor : Token) (tag : ProvenanceTag × Nat)
    (columns : List Cell) : Prop :=
  ∃ parent type, Cell.ofToken .hasCustomAttribute (.ofRow .methodDef tag.2) = .ok parent ∧
    Cell.ofToken .customAttributeType constructor = .ok type ∧
    columns = [parent, type, .blob tag.1.value]

/-- Whether columns are those of the written row of a type of another assembly. -/
def TypeRow.WrittenAs (row : TypeRow) (columns : List Cell) : Prop :=
  ∃ scope, Cell.ofToken .resolutionScope row.scope = .ok scope ∧
    columns = [scope, .name row.name, .name row.nspace]

/-- The written row of another assembly. -/
def ModuleInfo.columns (a : ModuleInfo) : List Cell :=
  [.word a.version.major, .word a.version.minor, .word a.version.build, .word a.version.revision,
    .dword 0, .blob (match a.publicKeyToken with | some token => token.toList | none => []),
    .name a.name, .name (a.culture.getD ""), .blob []]

/-- The written row of which container a container lies in, if it lies in one. -/
def Container.nestingRows (entry : Container × ContainerId) : List (List Cell) :=
  match entry.1.parent with
  | some parent => [[.row .typeDef (Image.typeDefToken entry.2).row,
      .row .typeDef (Image.typeDefToken parent).row]]
  | none => []

/-! ### Runs of steps -/

/-- **What one step carries on from the members before it to the next one, a run of steps carries
on to all.** -/
theorem foldlM_carries {ε σ α : Type} {f : σ → α → Except ε σ} {P : List α → σ → Prop}
    (step : ∀ done x s s', P done s → f s x = .ok s' → P (done ++ [x]) s') {xs : List α}
    {s s' : σ} (start : P [] s) (h : xs.foldlM f s = .ok s') : P xs s' := by
  suffices general : ∀ done s, P done s → xs.foldlM f s = .ok s' → P (done ++ xs) s' from
    general [] s start h
  clear start h
  induction xs with
  | nil =>
    intro done s start h
    cases h
    rwa [List.append_nil]
  | cons x xs ih =>
    intro done s start h
    rw [List.foldlM_cons] at h
    obtain ⟨s₁, first, h⟩ := bind_eq_ok.1 h
    have rest := ih _ s₁ (step done x s s₁ start first) h
    rwa [List.append_assoc, List.singleton_append] at rest

namespace Draft

variable {d d₁ d' : Draft} {table owner owned : TableId} {rows : List (List Cell)}

/-! ### Rows of one table -/

/-- Whether a draft continues another by rows of one table. -/
structure Appends (d : Draft) (table : TableId) (rows : List (List Cell)) (d' : Draft) : Prop where
  rowsOf : d'.rowsOf table = d.rowsOf table ++ rows
  other : ∀ {other}, other ≠ table → d'.rowsOf other = d.rowsOf other

/-- Nothing appends no rows. -/
theorem Appends.refl (d : Draft) (table : TableId) : d.Appends table [] d :=
  ⟨(List.append_nil _).symm, fun _ => rfl⟩

/-- Two steps append the rows of both. -/
theorem Appends.trans {rows' : List (List Cell)} (h : d.Appends table rows d₁)
    (h' : d₁.Appends table rows' d') : d.Appends table (rows ++ rows') d' :=
  ⟨by rw [h'.rowsOf, h.rowsOf, List.append_assoc], fun ne => (h'.other ne).trans (h.other ne)⟩

/-- What a step appends to a table, for every table. -/
theorem Appends.eq (h : d.Appends table rows d') (other : TableId) :
    d'.rowsOf other = d.rowsOf other ++ if other = table then rows else [] := by
  by_cases same : other = table
  · rw [if_pos same, same, h.rowsOf]
  · rw [if_neg same, List.append_nil, h.other same]

/-- A row is appended to its own table. -/
theorem appends_push (d : Draft) (table : TableId) (columns : List Cell) :
    d.Appends table [columns] (d.push table columns) :=
  ⟨rowsOf_push d table columns, fun ne => by simp [Draft.rowsOf, push, Ne.symm ne]⟩

/-- A run of steps that add one row each adds them in their order. -/
theorem exists_appends_foldlM {α : Type} {f : Draft → α → Except Error Draft}
    {R : α → List Cell → Prop} {xs : List α} (h : xs.foldlM f d = .ok d')
    (step : ∀ d x d', f d x = .ok d' → ∃ columns, R x columns ∧ d' = d.push table columns) :
    ∃ rows, List.Forall₂ R xs rows ∧ d.Appends table rows d' :=
  foldlM_carries
    (P := fun done d' => ∃ rows, List.Forall₂ R done rows ∧ d.Appends table rows d')
    (fun done x s s' ⟨rows, written, before⟩ h => by
      obtain ⟨columns, row, rfl⟩ := step s x s' h
      exact ⟨rows ++ [columns], List.rel_append written (.cons row .nil),
        before.trans (appends_push s table columns)⟩)
    ⟨[], .nil, .refl d table⟩ h

/-- Steps whose rows are told by their members. -/
theorem appends_foldlM {α : Type} {f : Draft → α → Except Error Draft} {row : α → List Cell}
    {xs : List α} (h : xs.foldlM f d = .ok d')
    (step : ∀ d x d', f d x = .ok d' → d' = d.push table (row x)) :
    d.Appends table (xs.map row) d' := by
  obtain ⟨rows, written, appends⟩ := exists_appends_foldlM
    (R := fun x columns => row x = columns) h fun d x d' h => ⟨row x, rfl, step d x d' h⟩
  have all : xs.map row = rows :=
    List.forall₂_eq_eq_eq ▸ List.forall₂_map_left_iff.2 written
  exact all ▸ appends

/-- Steps that cannot fail. -/
theorem appends_foldl {α : Type} {f : Draft → α → Draft} (table : TableId) (row : α → List Cell)
    (rows : Array α) (step : ∀ d x, f d x = d.push table (row x)) (d : Draft) :
    d.Appends table (rows.toList.map row) (rows.foldl f d) := by
  have run : rows.toList.foldlM (fun d x => (.ok (f d x) : Except Error Draft)) d =
      .ok (rows.toList.foldl f d) := List.foldlM_pure ..
  rw [← Array.foldl_toList]
  exact appends_foldlM run fun d x d' h => by rw [← step d x, Except.ok.inj h]

/-! ### Runs -/

/-- The next row has the number behind the last one. -/
theorem next_eq (d : Draft) (table : TableId) : d.next table = (d.rowsOf table).length + 1 := by
  rw [next, count, rowsOf, List.length_map, ← List.countP_eq_length_filter,
    ← Array.countP_toList]

/-- Whether the rows of a table tell by their last columns where runs of rows of another one
begin, which have given sizes and lie one behind the other. -/
structure Runs (d : Draft) (owner owned : TableId) (sizes : List Nat) : Prop where
  owners : (d.rowsOf owner).length = sizes.length
  total : (d.rowsOf owned).length = sizes.sum
  starts : ∀ i (columns : List Cell), (d.rowsOf owner)[i]? = some columns →
    columns.getLast? = some (.row owned (1 + (sizes.take i).sum))

variable {sizes : List Nat} {columns : List Cell} {part : List (List Cell)}

/-- A new run lies behind those before it. -/
theorem Runs.add (h : d.Runs owner owned sizes)
    (last : columns.getLast? = some (.row owned (d.next owned)))
    (own : d'.rowsOf owner = d.rowsOf owner ++ [columns])
    (more : d'.rowsOf owned = d.rowsOf owned ++ part) :
    d'.Runs owner owned (sizes ++ [part.length]) where
  owners := by rw [own, List.length_append, List.length_append, h.owners]; rfl
  total := by rw [more, List.length_append, List.sum_append, h.total, List.sum_singleton]
  starts := by
    intro i columns' found
    rw [own, List.getElem?_append] at found
    split at found
    · rename_i inside
      rw [h.owners] at inside
      rw [List.take_append_of_le_length (Nat.le_of_lt inside)]
      exact h.starts i columns' found
    · rename_i outside
      rw [h.owners] at outside
      obtain ⟨inside, rfl⟩ := List.getElem?_eq_some_iff.1 found
      rw [List.length_singleton] at inside
      have behind : i = sizes.length := by
        rw [h.owners] at inside
        omega
      rw [List.getElem_singleton, last, behind, List.take_left, next_eq, h.total, Nat.add_comm]

/-- The last run grows. -/
theorem Runs.extend {n : Nat} (h : d.Runs owner owned (sizes ++ [n]))
    (own : d'.rowsOf owner = d.rowsOf owner) (more : d'.rowsOf owned = d.rowsOf owned ++ part) :
    d'.Runs owner owned (sizes ++ [n + part.length]) where
  owners := by
    rw [own, h.owners, List.length_append, List.length_append]
    rfl
  total := by
    rw [more, List.length_append, h.total, List.sum_append, List.sum_append, List.sum_singleton,
      List.sum_singleton, Nat.add_assoc]
  starts := by
    intro i columns found
    rw [own] at found
    have inside : i < (sizes ++ [n]).length :=
      h.owners ▸ (List.getElem?_eq_some_iff.1 found).1
    rw [List.length_append, List.length_singleton] at inside
    have first := h.starts i columns found
    rw [List.take_append_of_le_length (Nat.le_of_lt_succ inside)] at first ⊢
    exact first

/-- Runs stay where their two tables do. -/
theorem Runs.congr (h : d.Runs owner owned sizes) (own : d'.rowsOf owner = d.rowsOf owner)
    (more : d'.rowsOf owned = d.rowsOf owned) : d'.Runs owner owned sizes where
  owners := own ▸ h.owners
  total := more ▸ h.total
  starts := own ▸ h.starts

/-! ### Methods -/

/-- Whether a draft continues another by the rows of a method, of its parameters and of its
tags. -/
structure AddsMethod (constructor : Token) (d : Draft) (m : SyntheticMethod) (d' : Draft) :
    Prop where
  own : ∃ columns : List Cell, m.WrittenAs columns ∧
    columns.getLast? = some (.row .param (d.next .param)) ∧
    d'.rowsOf .methodDef = d.rowsOf .methodDef ++ [columns]
  params : d'.rowsOf .param = d.rowsOf .param ++ m.paramRows
  tags : ∃ rows, List.Forall₂ (ProvenanceTag.WrittenAs constructor)
      (m.tags.map (·, d.next .methodDef)) rows ∧
    d'.rowsOf .customAttribute = d.rowsOf .customAttribute ++ rows
  others : ∀ other, other ≠ .methodDef → other ≠ .param → other ≠ .customAttribute →
    d'.rowsOf other = d.rowsOf other
  few : m.paramNames.length < 0x10000

/-- The rows of a table stay where all rows do. -/
theorem rowsOf_congr (h : d'.rows = d.rows) (table : TableId) :
    d'.rowsOf table = d.rowsOf table := by
  rw [rowsOf, h, rowsOf]

/-- The next number stays where all rows do. -/
theorem next_congr (h : d'.rows = d.rows) (table : TableId) : d'.next table = d.next table := by
  rw [next_eq, rowsOf_congr h, next_eq]

/-- A parameter is one row. -/
theorem addParam_eq_ok {param : String × Nat} (h : d.addParam param = .ok d') :
    d' = d.push .param (Cell.param param) := by
  unfold addParam at h
  dsimp only at h
  split at h
  · cases h
    rfl
  · cases h

/-- A tag is one row, which says what it is a tag of. -/
theorem addTag_eq_ok {constructor : Token} {n : Nat} {tag : ProvenanceTag}
    (h : d.addTag constructor (.ofRow .methodDef n) tag = .ok d') : ∃ columns,
      ProvenanceTag.WrittenAs constructor (tag, n) columns ∧
        d' = d.push .customAttribute columns := by
  obtain ⟨parent, hparent, h⟩ := bind_eq_ok.1 h
  obtain ⟨type, htype, h⟩ := bind_eq_ok.1 h
  cases h
  exact ⟨_, ⟨parent, type, liftM_eq_ok.1 hparent, liftM_eq_ok.1 htype, rfl⟩, rfl⟩

/-- The row of a method is followed by the rows of its parameters. -/
theorem appends_addMethodRow {address : Nat} {attributes : UInt16} {name : String}
    {signature : Bytes} {paramNames : List String}
    (h : d.addMethodRow address attributes name signature paramNames = .ok d') :
    (d.push .methodDef [.dword (UInt32.ofNat address), .word 0, .word attributes, .name name,
      .blob signature, .row .param (d.next .param)]).Appends .param
      (paramNames.zipIdx.map Cell.param) d' :=
  appends_foldlM h fun _ _ _ => addParam_eq_ok

/-- The tags of a method are rows one after the other. -/
theorem exists_appends_tags {constructor : Token} {n : Nat} {tags : List ProvenanceTag}
    (h : tags.foldlM (addTag constructor (.ofRow .methodDef n)) d = .ok d') :
    ∃ rows, List.Forall₂ (ProvenanceTag.WrittenAs constructor) (tags.map (·, n)) rows ∧
      d.Appends .customAttribute rows d' := by
  obtain ⟨rows, written, appends⟩ := exists_appends_foldlM
    (R := fun tag columns => ProvenanceTag.WrittenAs constructor (tag, n) columns) h
    fun _ _ _ => addTag_eq_ok
  exact ⟨rows, List.forall₂_map_left_iff.2 written, appends⟩

/-- The steps of adding a method: its body, its row with those of its parameters, its tags. -/
theorem addsMethod_of_steps {constructor : Token} {m : SyntheticMethod} {d₂ : Draft}
    {localSig : Option Token} {fault : Malformation → Malformation} {address : Nat}
    {signature : Bytes} (hbody : d.addBody m.body localSig fault = .ok (address, d₁))
    (hsignature : Blob.method m.signature = .ok signature)
    (hrow : d₁.addMethodRow address m.attributes m.name signature m.paramNames = .ok d₂)
    (written : List.Forall₂ (ProvenanceTag.WrittenAs constructor)
      (m.tags.map (·, d₁.next .methodDef)) rows)
    (tags : d₂.Appends .customAttribute rows d') : d.AddsMethod constructor m d' := by
  have same := rowsOf_congr (rows_addBody hbody)
  have numbers := next_congr (rows_addBody hbody)
  have params := appends_addMethodRow hrow
  refine ⟨⟨_, ⟨address, signature, d₁.next .param, hsignature, rfl⟩, ?_, ?_⟩, ?_,
    ⟨rows, numbers _ ▸ written, ?_⟩, fun other method param tag => ?_,
    (exists_addMethodRow_eq_ok ..).1 ⟨d₂, hrow⟩⟩
  · rw [← numbers]
    rfl
  · rw [tags.other (by decide), params.other (by decide), rowsOf_push, same]
  · rw [tags.other (by decide), params.rowsOf, (appends_push ..).other (by decide), same]
    rfl
  · rw [tags.rowsOf, params.other (by decide), (appends_push ..).other (by decide), same]
  · rw [tags.other tag, params.other param, (appends_push ..).other method, same]

/-- **A method of a container adds its rows.** -/
theorem addsMethod_addMethod {constructor : Token} {container : String} {m : SyntheticMethod}
    (h : d.addMethod constructor container m = .ok d') : d.AddsMethod constructor m d' := by
  obtain ⟨⟨address, d₁⟩, hbody, h⟩ := bind_eq_ok.1 h
  obtain ⟨signature, hsignature, h⟩ := bind_eq_ok.1 h
  obtain ⟨d₂, hrow, h⟩ := bind_eq_ok.1 h
  obtain ⟨rows, written, tags⟩ := exists_appends_tags h
  exact addsMethod_of_steps hbody (liftM_eq_ok.1 hsignature) hrow written tags

/-- The constructor of the attribute adds the rows of a method without tags. -/
theorem addsMethod_addConstructor {constructor : Token} {a : AttributeType}
    (h : d.addConstructor a = .ok d') : d.AddsMethod constructor a.constructorMethod d' := by
  obtain ⟨⟨address, d₁⟩, hbody, h⟩ := bind_eq_ok.1 h
  obtain ⟨signature, hsignature, h⟩ := bind_eq_ok.1 h
  exact addsMethod_of_steps hbody (liftM_eq_ok.1 hsignature) h .nil (Appends.refl _ _)

/-! ### Types -/

/-- Whether the rows of a draft are those of types with their methods, as far as they come from
types and methods. -/
structure Defines (constructor : Token) (d : Draft) (types : List DefinedType) : Prop where
  heads : List.Forall₂ TypeHead.WrittenAs (types.map (·.head)) (d.rowsOf .typeDef)
  methods : List.Forall₂ SyntheticMethod.WrittenAs (DefinedType.allMethods types)
    (d.rowsOf .methodDef)
  params : d.rowsOf .param = (DefinedType.allMethods types).flatMap SyntheticMethod.paramRows
  tags : List.Forall₂ (ProvenanceTag.WrittenAs constructor)
    (SyntheticMethod.numberedTags (DefinedType.allMethods types)) (d.rowsOf .customAttribute)
  methodRuns : d.Runs .typeDef .methodDef (types.map (·.methods.length))
  paramRuns : d.Runs .methodDef .param
    ((DefinedType.allMethods types).map (·.paramNames.length))
  /-- Sixteen bits number the parameters of a method. -/
  few : ∀ m ∈ DefinedType.allMethods types, m.paramNames.length < 0x10000

variable {constructor : Token} {types : List DefinedType}

/-- What a draft defines stays where the tables of definitions do. -/
theorem Defines.congr (h : d.Defines constructor types)
    (typeDef : d'.rowsOf .typeDef = d.rowsOf .typeDef)
    (methodDef : d'.rowsOf .methodDef = d.rowsOf .methodDef)
    (param : d'.rowsOf .param = d.rowsOf .param)
    (customAttribute : d'.rowsOf .customAttribute = d.rowsOf .customAttribute) :
    d'.Defines constructor types where
  heads := typeDef ▸ h.heads
  methods := methodDef ▸ h.methods
  params := param ▸ h.params
  tags := customAttribute ▸ h.tags
  methodRuns := h.methodRuns.congr typeDef methodDef
  paramRuns := h.paramRuns.congr methodDef param
  few := h.few

/-- The row of a type says where its methods begin: at the next one. -/
theorem exists_appends_addType (d : Draft) {head : TypeHead} {base : Cell}
    (hbase : Cell.ofToken .typeDefOrRef head.base = .ok base) :
    ∃ columns : List Cell, head.WrittenAs columns ∧
      columns.getLast? = some (.row .methodDef (d.next .methodDef)) ∧
      d.Appends .typeDef [columns] (d.addType head.attributes head.name head.nspace base) :=
  ⟨_, ⟨base, d.next .methodDef, hbase, rfl⟩, rfl, appends_push ..⟩

/-- The row of a type comes before those of its methods. -/
theorem Defines.addType (h : d.Defines constructor types) (head : TypeHead) {base : Cell}
    (hbase : Cell.ofToken .typeDefOrRef head.base = .ok base) :
    (d.addType head.attributes head.name head.nspace base).Defines constructor
      (types ++ [⟨head, []⟩]) := by
  have all : DefinedType.allMethods (types ++ [⟨head, []⟩]) = DefinedType.allMethods types := by
    simp [DefinedType.allMethods]
  obtain ⟨columns, written, last, row⟩ := exists_appends_addType d hbase
  have methodDef : (d.addType head.attributes head.name head.nspace base).rowsOf .methodDef =
      d.rowsOf .methodDef ++ [] := by rw [row.other (by decide), List.append_nil]
  have runs := h.methodRuns.add last row.rowsOf methodDef
  rw [List.append_nil] at methodDef
  constructor
  · rw [List.map_append, row.rowsOf]
    exact List.rel_append h.heads (.cons written .nil)
  · rw [all, methodDef]
    exact h.methods
  · rw [all, row.other (by decide)]
    exact h.params
  · rw [all, row.other (by decide)]
    exact h.tags
  · rw [List.map_append]
    exact runs
  · rw [all]
    exact h.paramRuns.congr methodDef (row.other (by decide))
  · rw [all]
    exact h.few

/-- The rows of a method belong to the last type. -/
theorem Defines.addMethod {T : DefinedType} (h : d.Defines constructor (types ++ [T]))
    {m : SyntheticMethod} (adds : d.AddsMethod constructor m d') :
    d'.Defines constructor (types ++ [⟨T.head, T.methods ++ [m]⟩]) := by
  have all : DefinedType.allMethods (types ++ [⟨T.head, T.methods ++ [m]⟩]) =
      DefinedType.allMethods (types ++ [T]) ++ [m] := by
    simp [DefinedType.allMethods]
  have number : d.next .methodDef = 1 + (DefinedType.allMethods (types ++ [T])).length := by
    rw [next_eq, h.methods.length_eq, Nat.add_comm]
  have typeDef : d'.rowsOf .typeDef = d.rowsOf .typeDef :=
    adds.others _ (by decide) (by decide) (by decide)
  obtain ⟨columns, written, last, own⟩ := adds.own
  obtain ⟨rows, tagged, tags⟩ := adds.tags
  constructor
  · rw [typeDef]
    simpa using h.heads
  · rw [all, own]
    exact List.rel_append h.methods (.cons written .nil)
  · rw [all, adds.params, h.params, List.flatMap_append, List.flatMap_singleton]
  · rw [all, tags, SyntheticMethod.numberedTags, List.zipIdx_append, List.flatMap_append]
    refine List.rel_append h.tags ?_
    rw [number] at tagged
    simpa using tagged
  · have runs := h.methodRuns
    rw [List.map_append, List.map_singleton] at runs ⊢
    rw [List.length_append]
    exact runs.extend typeDef own
  · have length : m.paramNames.length = m.paramRows.length := by
      rw [SyntheticMethod.paramRows, List.length_map, List.length_zipIdx]
    rw [all, List.map_append, List.map_singleton, length]
    exact h.paramRuns.add last own adds.params
  · rw [all]
    intro other mem
    rcases List.mem_append.1 mem with mem | mem
    · exact h.few other mem
    · exact List.mem_singleton.1 mem ▸ adds.few

/-- The methods of a type belong to it in their order. -/
theorem Defines.addMethods {head : TypeHead} (h : d.Defines constructor (types ++ [⟨head, []⟩]))
    {container : String} {methods : List SyntheticMethod}
    (run : methods.foldlM (Draft.addMethod constructor container) d = .ok d') :
    d'.Defines constructor (types ++ [⟨head, methods⟩]) :=
  foldlM_carries (P := fun done d' => d'.Defines constructor (types ++ [⟨head, done⟩]))
    (fun _ _ _ _ before step => before.addMethod (addsMethod_addMethod step)) h run

/-- The type of the attribute with its constructor. -/
theorem Defines.addAttribute (h : d.Defines constructor types) {a : AttributeType}
    (step : d.addAttribute a = .ok d') : d'.Defines constructor (types ++ [a.defined]) := by
  obtain ⟨base, hbase, step⟩ := bind_eq_ok.1 step
  exact (h.addType a.defined.head (liftM_eq_ok.1 hbase)).addMethod
    (addsMethod_addConstructor step)

/-- Methods add no rows to other tables than those of methods, parameters and attributes. -/
theorem rowsOf_addMethods {container : String} {methods : List SyntheticMethod}
    (run : methods.foldlM (Draft.addMethod constructor container) d = .ok d') {other : TableId}
    (method : other ≠ .methodDef) (param : other ≠ .param) (tag : other ≠ .customAttribute) :
    d'.rowsOf other = d.rowsOf other :=
  foldlM_carries (P := fun _ d' => d'.rowsOf other = d.rowsOf other)
    (fun _ _ _ _ before step =>
      ((addsMethod_addMethod step).others other method param tag).trans before) rfl run

/-- The steps of adding a container: its type, which container it lies in, its methods. -/
theorem addContainer_eq_ok {entry : Container × ContainerId}
    (step : d.addContainer constructor entry = .ok d') : ∃ d₁,
      (d.addType entry.1.attributes entry.1.name entry.1.nspace (.coded .typeDefOrRef 0)).Appends
        .nestedClass (Container.nestingRows entry) d₁ ∧
      entry.1.methods.foldlM (Draft.addMethod constructor entry.1.name) d₁ = .ok d' := by
  obtain ⟨c, id⟩ := entry
  refine ⟨_, ?_, step⟩
  unfold Container.nestingRows
  rcases c.parent with _ | parent
  · exact .refl _ _
  · exact appends_push ..

/-- **A container adds its type with its methods**, and which container it lies in. -/
theorem Defines.addContainer (h : d.Defines constructor types) {entry : Container × ContainerId}
    (step : d.addContainer constructor entry = .ok d') :
    d'.Defines constructor (types ++ [entry.1.defined]) ∧
      d'.rowsOf .nestedClass = d.rowsOf .nestedClass ++ Container.nestingRows entry := by
  obtain ⟨d₁, nesting, run⟩ := addContainer_eq_ok step
  have base : Cell.ofToken .typeDefOrRef entry.1.defined.head.base =
      .ok (.coded .typeDefOrRef 0) := rfl
  have type := h.addType entry.1.defined.head base
  obtain ⟨columns, -, -, row⟩ := exists_appends_addType d base
  have begun := type.congr (nesting.other (by decide)) (nesting.other (by decide))
    (nesting.other (by decide)) (nesting.other (by decide))
  refine ⟨begun.addMethods run, ?_⟩
  rw [rowsOf_addMethods run (by decide) (by decide) (by decide), nesting.rowsOf]
  exact congrArg (· ++ _) (row.other (by decide))

/-- Containers add their types in their order. -/
theorem Defines.addContainers (h : d.Defines constructor types)
    {entries : List (Container × ContainerId)}
    (run : entries.foldlM (Draft.addContainer constructor) d = .ok d') :
    d'.Defines constructor (types ++ entries.map (·.1.defined)) ∧
      d'.rowsOf .nestedClass = d.rowsOf .nestedClass ++ entries.flatMap Container.nestingRows := by
  refine foldlM_carries (P := fun done d' =>
      d'.Defines constructor (types ++ done.map (·.1.defined)) ∧
        d'.rowsOf .nestedClass = d.rowsOf .nestedClass ++ done.flatMap Container.nestingRows)
    (fun done entry s s' ⟨before, nesting⟩ step => by
      obtain ⟨defines, rows⟩ := before.addContainer step
      rw [List.map_append, ← List.append_assoc, List.flatMap_append, ← List.append_assoc,
        List.flatMap_singleton, ← nesting]
      exact ⟨defines, rows⟩)
    ⟨by rwa [List.map_nil, List.append_nil], by rw [List.flatMap_nil, List.append_nil]⟩ run

/-! ### Images -/

/-- Whether the rows of a draft are those of an image. -/
structure Contents (image : Image) (d : Draft) : Prop where
  module : d.rowsOf .module =
    [[.word 0, .name (image.name ++ ".dll"), .guid 1, .guid 0, .guid 0]]
  types : List.Forall₂ TypeRow.WrittenAs image.symbols.types.rows.toList (d.rowsOf .typeRef)
  defines : d.Defines image.provenance.constructor image.defined
  nesting : d.rowsOf .nestedClass = image.containers.zipIdx.flatMap Container.nestingRows
  members : List.Forall₂ MemberRow.WrittenAs image.symbols.members.rows.toList
    (d.rowsOf .memberRef)
  signatures : d.rowsOf .standAloneSig =
    image.symbols.signatures.rows.toList.map fun signature => [.blob signature]
  specs : d.rowsOf .typeSpec =
    image.symbols.specs.rows.toList.map fun signature => [.blob signature]
  assembly : d.rowsOf .assembly = [[.dword 0x8004, .word 0, .word 0, .word 0, .word 0, .dword 0,
    .blob [], .name image.name, .name ""]]
  assemblies : d.rowsOf .assemblyRef =
    image.symbols.assemblies.rows.toList.map ModuleInfo.columns
  instantiations : List.Forall₂ InstantiationRow.WrittenAs
    image.symbols.instantiations.rows.toList (d.rowsOf .methodSpec)
  others : ∀ table ∈ [TableId.field, .userString], d.rowsOf table = []

/-- A referenced type is one row. -/
theorem addTypeRef_eq_ok {row : TypeRow} (h : d.addTypeRef row = .ok d') :
    ∃ columns, row.WrittenAs columns ∧ d' = d.push .typeRef columns := by
  obtain ⟨scope, hscope, h⟩ := bind_eq_ok.1 h
  cases h
  exact ⟨_, ⟨scope, liftM_eq_ok.1 hscope, rfl⟩, rfl⟩

/-- An empty draft defines nothing. -/
theorem defines_empty (constructor : Token) : ({} : Draft).Defines constructor [] where
  heads := .nil
  methods := .nil
  params := rfl
  tags := .nil
  methodRuns := ⟨rfl, rfl, fun _ _ h => by cases h⟩
  paramRuns := ⟨rfl, rfl, fun _ _ h => by cases h⟩
  few := fun _ h => by cases h

/-- The rows that are drafted before those of members. -/
structure Begins (image : Image) (d : Draft) : Prop where
  module : d.rowsOf .module =
    [[.word 0, .name (image.name ++ ".dll"), .guid 1, .guid 0, .guid 0]]
  types : List.Forall₂ TypeRow.WrittenAs image.symbols.types.rows.toList (d.rowsOf .typeRef)
  defines : d.Defines image.provenance.constructor image.defined
  nesting : d.rowsOf .nestedClass = image.containers.zipIdx.flatMap Container.nestingRows
  others : ∀ {other}, other ∉ [TableId.module, .typeRef, .typeDef, .methodDef, .param,
    .customAttribute, .nestedClass] → d.rowsOf other = []

/-- Referenced types, the attribute and the containers are drafted before the members. -/
theorem begins_of_steps {image : Image} {d₂ d₃ : Draft}
    (h₁ : image.symbols.types.rows.toList.foldlM addTypeRef (({} : Draft).addModule image.name) =
      .ok d₁)
    (h₂ : (d₁.addType 0 "<Module>" "" (.coded .typeDefOrRef 0)).addAttribute image.provenance =
      .ok d₂)
    (h₃ : image.containers.zipIdx.foldlM (Draft.addContainer image.provenance.constructor) d₂ =
      .ok d₃) : d₃.Begins image := by
  have module : ({} : Draft).Appends .module
    [[.word 0, .name (image.name ++ ".dll"), .guid 1, .guid 0, .guid 0]]
    (({} : Draft).addModule image.name) := appends_push ..
  obtain ⟨rows, types, typeRef⟩ := exists_appends_foldlM h₁ fun _ _ _ => addTypeRef_eq_ok
  have start {other : TableId} (ne : other ≠ .typeRef) (ne' : other ≠ .module) :
      d₁.rowsOf other = [] := (typeRef.other ne).trans (module.other ne')
  have first := ((defines_empty image.provenance.constructor).congr (start (by decide) (by decide))
    (start (by decide) (by decide)) (start (by decide) (by decide))
    (start (by decide) (by decide))).addType DefinedType.module.head rfl
  obtain ⟨defines, nesting⟩ := (first.addAttribute h₂).addContainers h₃
  have provenance := (adds_addType d₁ 0 "<Module>" "" (.coded .typeDefOrRef 0)).trans
    (adds_addAttribute h₂)
  have own := provenance.trans
    (adds_foldlM (fun q => q.1.tables) (fun _ _ _ _ => adds_addContainer) h₃)
  have kept {other : TableId} (outside : other ∉ [TableId.typeDef, .methodDef, .param,
      .customAttribute, .nestedClass]) : d₃.rowsOf other = d₁.rowsOf other := by
    refine own.rowsOf_eq ?_
    cases other <;>
      simp [AttributeType.tables, Container.tables, SyntheticMethod.tables] at outside ⊢
  constructor
  · rw [kept (by decide), typeRef.other (by decide), module.rowsOf]
    rfl
  · rw [kept (by decide), typeRef.rowsOf, module.other (by decide)]
    exact types
  · have containers : image.containers.zipIdx.map (·.1.defined) =
        image.containers.map Container.defined := by
      rw [← List.zipIdx_map_fst 0 image.containers, List.map_map, List.zipIdx_map_fst]
      rfl
    rw [containers] at defines
    exact defines
  · rw [nesting, provenance.rowsOf_eq (by simp [AttributeType.tables]),
      start (by decide) (by decide), List.nil_append]
  · intro other outside
    simp only [List.mem_cons, not_or] at outside
    obtain ⟨module, typeRef, typeDef, methodDef, param, tag, nested, -⟩ := outside
    rw [kept (by simp [*]), start typeRef module]

/-- **The rows of a drafted image are those of the image.** -/
theorem contents_ofImage {image : Image} (h : ofImage image = .ok d) : d.Contents image := by
  obtain ⟨d₁, h₁, h⟩ := bind_eq_ok.1 h
  obtain ⟨d₂, h₂, h⟩ := bind_eq_ok.1 h
  obtain ⟨d₃, h₃, h⟩ := bind_eq_ok.1 h
  obtain ⟨d₄, h₄, h⟩ := bind_eq_ok.1 h
  have before := begins_of_steps h₁ h₂ h₃
  obtain ⟨memberRows, members, memberRef⟩ := exists_appends_foldlM h₄ fun _ _ _ =>
    addMemberRef_eq_ok
  have signatures := appends_foldl .standAloneSig (fun s => [.blob s])
    image.symbols.signatures.rows fun _ _ => rfl
  have specs := appends_foldl .typeSpec (fun s => [.blob s]) image.symbols.specs.rows
    fun _ _ => rfl
  have assembly (d : Draft) : d.Appends .assembly [[.dword 0x8004, .word 0, .word 0, .word 0,
    .word 0, .dword 0, .blob [], .name image.name, .name ""]] (d.addAssembly image.name) :=
    appends_push ..
  have assemblies := appends_foldl (f := addAssemblyRef) .assemblyRef ModuleInfo.columns
    image.symbols.assemblies.rows fun _ _ => rfl
  obtain ⟨instantiationRows, instantiations, methodSpec⟩ := exists_appends_foldlM h fun _ _ _ =>
    addMethodSpec_eq_ok
  have all (table : TableId) := methodSpec.eq table
  simp only [(assemblies _).eq, (assembly _).eq, (specs _).eq, (signatures _).eq, memberRef.eq]
    at all
  have none {table : TableId} (outside : table ∉ [TableId.module, .typeRef, .typeDef, .methodDef,
    .param, .customAttribute, .nestedClass]) := before.others outside
  constructor
  · simp [all, before.module]
  · simpa [all] using before.types
  · exact before.defines.congr (by simp [all]) (by simp [all]) (by simp [all]) (by simp [all])
  · simp [all, before.nesting]
  · simpa [all, none] using members
  · simp [all, none]
  · simp [all, none]
  · simp [all, none]
  · simp [all, none]
  · simpa [all, none] using instantiations
  · intro table mem
    have outside : table = .field ∨ table = .userString := by simpa using mem
    rcases outside with rfl | rfl
    · simp [all, none]
    · simp [all, none]

end Draft
end HookImage
