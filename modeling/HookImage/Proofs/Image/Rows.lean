/-
# Which rows an image is written with

Drafting only ever adds rows behind those that are there, and every step adds rows of fixed
tables: a method its own row, one for each parameter and one for each tag, a container its
own row, one for the container it lies in, and those of its methods (`Draft.Adds`).  So the
tables of all rows can be read off the image (`Draft.adds_ofImage`), and with them how many
rows every table gets (`Image.count_tables`).
-/

import HookImage.Proofs.Image.Drafted

namespace HookImage

/-! ### The tables of the rows of an image -/

/-- The tables of the rows of a method: its own, those of its parameters and of its tags. -/
def SyntheticMethod.tables (m : SyntheticMethod) : List TableId :=
  .methodDef :: (List.replicate m.paramNames.length .param ++
    List.replicate m.tags.length .customAttribute)

/-- The tables of the rows of a container with its methods. -/
def Container.tables (c : Container) : List TableId :=
  .typeDef :: ((if c.parent.isSome then [.nestedClass] else []) ++
    c.methods.flatMap SyntheticMethod.tables)

/-- The tables of the rows of the attribute type with its constructor. -/
def AttributeType.tables (a : AttributeType) : List TableId :=
  .typeDef :: .methodDef :: List.replicate a.paramNames.length .param

/-- The tables of the rows that are drafted before those of members. -/
def Image.tablesBefore (image : Image) : List TableId :=
  List.flatten [[.module],
    List.replicate image.symbols.types.rows.size .typeRef,
    [.typeDef],
    image.provenance.tables,
    image.containers.flatMap Container.tables]

/-- The tables of the rows that are drafted between those of members and of instantiations. -/
def Image.tablesBetween (image : Image) : List TableId :=
  List.flatten [List.replicate image.symbols.signatures.rows.size .standAloneSig,
    List.replicate image.symbols.specs.rows.size .typeSpec,
    [.assembly],
    List.replicate image.symbols.assemblies.rows.size .assemblyRef]

/-- The tables of the rows of an image, in the order in which they are drafted. -/
def Image.tables (image : Image) : List TableId :=
  List.flatten [image.tablesBefore,
    List.replicate image.symbols.members.rows.size .memberRef,
    image.tablesBetween,
    List.replicate image.symbols.instantiations.rows.size .methodSpec]

/-- How many rows of a table an image is written with.  Two types and a method with two
parameters are those of the module and of the attribute. -/
def Image.rowCount (image : Image) : TableId → Nat
  | .module => 1
  | .typeRef => image.symbols.types.rows.size
  | .typeDef => image.containers.length + reservedTypes
  | .methodDef => image.methodCount + 1
  | .param => 2 + (image.methods.map fun m => m.2.paramNames.length).sum
  | .memberRef => image.symbols.members.rows.size
  | .customAttribute => (image.methods.map fun m => m.2.tags.length).sum
  | .standAloneSig => image.symbols.signatures.rows.size
  | .typeSpec => image.symbols.specs.rows.size
  | .assembly => 1
  | .assemblyRef => image.symbols.assemblies.rows.size
  | .nestedClass => image.containers.countP (·.parent.isSome)
  | .methodSpec => image.symbols.instantiations.rows.size
  | .field | .userString => 0

/-- Whether columns are those of the written row of a member. -/
def MemberRow.WrittenAs (row : MemberRow) (columns : List Cell) : Prop :=
  ∃ parent, Cell.ofToken .memberRefParent row.parent = .ok parent ∧
    columns = [parent, .name row.name, .blob row.signature]

/-- Whether columns are those of the written row of an instantiation. -/
def InstantiationRow.WrittenAs (row : InstantiationRow) (columns : List Cell) : Prop :=
  ∃ method, Cell.ofToken .methodDefOrRef row.method = .ok method ∧
    columns = [method, .blob row.arguments]

/-! ### What a step adds -/

namespace Draft

/-- Whether a draft continues another by a row of each of some tables, each with columns. -/
def Adds (d : Draft) (tables : List TableId) (d' : Draft) : Prop :=
  ∃ rows : List (TableRow Cell), d'.rows.toList = d.rows.toList ++ rows ∧
    rows.map (·.table) = tables ∧ ∀ row ∈ rows, row.columns ≠ []

variable {d d₁ d₂ d' : Draft}

/-- A step that keeps the rows adds none. -/
theorem adds_of_rows_eq (h : d'.rows = d.rows) : Adds d [] d' :=
  ⟨[], by rw [h, List.append_nil], rfl, fun _ h => by cases h⟩

/-- Two steps add the rows of both. -/
theorem Adds.trans {first second : List TableId} (h : Adds d first d₁) (h' : Adds d₁ second d₂) :
    Adds d (first ++ second) d₂ := by
  obtain ⟨rows, hrows, rfl, filled⟩ := h
  obtain ⟨rows', hrows', rfl, filled'⟩ := h'
  refine ⟨rows ++ rows', by rw [hrows', hrows, List.append_assoc], List.map_append, ?_⟩
  intro row hrow
  exact (List.mem_append.1 hrow).elim (filled row) (filled' row)

/-- A row is added to its own table. -/
theorem adds_push (d : Draft) (table : TableId) {columns : List Cell} (filled : columns ≠ []) :
    Adds d [table] (d.push table columns) :=
  ⟨[⟨table, columns⟩], Array.toList_push, rfl, List.forall_mem_singleton.2 filled⟩

section Runs

variable {ε α : Type} {xs : List α} {table : TableId}

/-- A run of steps adds what they add, in their order. -/
theorem adds_foldlM {f : Draft → α → Except ε Draft} (tables : α → List TableId)
    (step : ∀ x ∈ xs, ∀ d d', f d x = .ok d' → Adds d (tables x) d')
    (h : xs.foldlM f d = .ok d') : Adds d (xs.flatMap tables) d' := by
  induction xs generalizing d with
  | nil =>
    cases h
    exact adds_of_rows_eq rfl
  | cons x xs ih =>
    rw [List.foldlM_cons] at h
    obtain ⟨d₁, first, h⟩ := bind_eq_ok.1 h
    obtain ⟨hstep, hsteps⟩ := List.forall_mem_cons.1 step
    rw [List.flatMap_cons]
    exact (hstep d d₁ first).trans (ih hsteps h)

/-- A run of steps that add one row each. -/
theorem adds_foldlM_replicate {f : Draft → α → Except ε Draft}
    (step : ∀ x ∈ xs, ∀ d d', f d x = .ok d' → Adds d [table] d')
    (h : xs.foldlM f d = .ok d') : Adds d (List.replicate xs.length table) d' := by
  have run := adds_foldlM (fun _ => [table]) step h
  rwa [← List.map_eq_flatMap, List.map_const'] at run

/-- A run of steps that cannot fail and add one row each. -/
theorem adds_foldl_replicate {rows : Array α} {f : Draft → α → Draft}
    (step : ∀ d x, Adds d [table] (f d x)) :
    Adds d (List.replicate rows.size table) (rows.foldl f d) := by
  have run : rows.toList.foldlM (fun d x => (.ok (f d x) : Except Error Draft)) d =
      .ok (rows.toList.foldl f d) := List.foldlM_pure ..
  rw [← Array.foldl_toList, ← Array.length_toList]
  exact adds_foldlM_replicate (fun x _ d _ e => by cases e; exact step d x) run

end Runs

/-! ### The steps -/

/-- A body is no row. -/
theorem rows_addBody {body : MethodBody} {localSig : Option Token}
    {fault : Malformation → Malformation} {address : Nat}
    (h : d.addBody body localSig fault = .ok (address, d')) : d'.rows = d.rows := by
  obtain ⟨rows, bodies, literals⟩ := d
  unfold addBody at h
  dsimp only at h
  split at h
  · unfold addBytes at h
    dsimp only at h
    split at h
    · cases h
    · split at h
      · cases h
      · cases h
        rfl
  · cases h

/-- The row of a method comes with one for each of its parameters. -/
theorem adds_addMethodRow {address : Nat} {attributes : UInt16} {name : String}
    {signature : Bytes} {paramNames : List String}
    (h : d.addMethodRow address attributes name signature paramNames = .ok d') :
    Adds d (.methodDef :: List.replicate paramNames.length .param) d' := by
  have param : ∀ x ∈ paramNames.zipIdx, ∀ d d', addParam d x = .ok d' → Adds d [.param] d' := by
    intro x _ d d' h
    unfold addParam at h
    dsimp only at h
    split at h
    · cases h
      exact adds_push _ _ (List.cons_ne_nil _ _)
    · cases h
  have params := adds_foldlM_replicate param h
  rw [List.length_zipIdx] at params
  exact (adds_push d .methodDef (List.cons_ne_nil _ _)).trans params

/-- A tag is one row of attributes. -/
theorem adds_addTag {constructor method : Token} {tag : ProvenanceTag}
    (h : d.addTag constructor method tag = .ok d') : Adds d [.customAttribute] d' := by
  obtain ⟨_, _, h⟩ := bind_eq_ok.1 h
  obtain ⟨_, _, h⟩ := bind_eq_ok.1 h
  cases h
  exact adds_push _ _ (List.cons_ne_nil _ _)

/-- A method adds its own rows. -/
theorem adds_addMethod {constructor : Token} {container : String} {m : SyntheticMethod}
    (h : d.addMethod constructor container m = .ok d') : Adds d m.tables d' := by
  obtain ⟨⟨address, d₁⟩, hbody, h⟩ := bind_eq_ok.1 h
  obtain ⟨signature, _, h⟩ := bind_eq_ok.1 h
  obtain ⟨d₂, hrow, h⟩ := bind_eq_ok.1 h
  have body := adds_of_rows_eq (rows_addBody hbody)
  have tags := adds_foldlM_replicate (fun _ _ _ _ => adds_addTag) h
  exact (body.trans (adds_addMethodRow hrow)).trans tags

/-- A type adds one row. -/
theorem adds_addType (d : Draft) (attributes : Nat) (name nspace : String) (base : Cell) :
    Adds d [.typeDef] (d.addType attributes name nspace base) :=
  adds_push _ _ (List.cons_ne_nil _ _)

/-- A container adds the rows of its type and of its methods. -/
theorem adds_addContainer {constructor : Token} {entry : Container × ContainerId}
    (h : d.addContainer constructor entry = .ok d') : Adds d entry.1.tables d' := by
  obtain ⟨c, id⟩ := entry
  have type := adds_addType d c.attributes c.name c.nspace (.coded .typeDefOrRef 0)
  have methods := adds_foldlM SyntheticMethod.tables (fun _ _ _ _ => adds_addMethod) h
  refine type.trans (.trans ?_ methods)
  rcases c.parent with _ | parent
  · exact adds_of_rows_eq rfl
  · exact adds_push _ _ (List.cons_ne_nil _ _)

/-- The attribute adds the rows of its type and of its constructor. -/
theorem adds_addAttribute {a : AttributeType} (h : d.addAttribute a = .ok d') :
    Adds d a.tables d' := by
  obtain ⟨base, _, h⟩ := bind_eq_ok.1 h
  obtain ⟨⟨address, d₁⟩, hbody, h⟩ := bind_eq_ok.1 h
  obtain ⟨signature, _, h⟩ := bind_eq_ok.1 h
  have type := adds_addType d AttributeType.attributes a.name "" base
  exact (type.trans (adds_of_rows_eq (rows_addBody hbody))).trans (adds_addMethodRow h)

/-- A referenced type adds one row. -/
theorem adds_addTypeRef {row : TypeRow} (h : d.addTypeRef row = .ok d') :
    Adds d [.typeRef] d' := by
  obtain ⟨_, _, h⟩ := bind_eq_ok.1 h
  cases h
  exact adds_push _ _ (List.cons_ne_nil _ _)

/-- A member is one row, which names its parent. -/
theorem addMemberRef_eq_ok {row : MemberRow} (h : d.addMemberRef row = .ok d') :
    ∃ columns, row.WrittenAs columns ∧ d' = d.push .memberRef columns := by
  obtain ⟨parent, hparent, h⟩ := bind_eq_ok.1 h
  cases h
  exact ⟨_, ⟨parent, liftM_eq_ok.1 hparent, rfl⟩, rfl⟩

/-- A member adds one row. -/
theorem adds_addMemberRef {row : MemberRow} (h : d.addMemberRef row = .ok d') :
    Adds d [.memberRef] d' := by
  obtain ⟨columns, ⟨parent, -, rfl⟩, rfl⟩ := addMemberRef_eq_ok h
  exact adds_push _ _ (List.cons_ne_nil _ _)

/-- An instantiation is one row, which names its method. -/
theorem addMethodSpec_eq_ok {row : InstantiationRow} (h : d.addMethodSpec row = .ok d') :
    ∃ columns, row.WrittenAs columns ∧ d' = d.push .methodSpec columns := by
  obtain ⟨method, hmethod, h⟩ := bind_eq_ok.1 h
  cases h
  exact ⟨_, ⟨method, liftM_eq_ok.1 hmethod, rfl⟩, rfl⟩

/-- An instantiation adds one row. -/
theorem adds_addMethodSpec {row : InstantiationRow} (h : d.addMethodSpec row = .ok d') :
    Adds d [.methodSpec] d' := by
  obtain ⟨columns, ⟨method, -, rfl⟩, rfl⟩ := addMethodSpec_eq_ok h
  exact adds_push _ _ (List.cons_ne_nil _ _)

/-- **The rows of a drafted image** are those of its tables. -/
theorem adds_ofImage {image : Image} (h : ofImage image = .ok d) : Adds {} image.tables d := by
  obtain ⟨d₁, h₁, h⟩ := bind_eq_ok.1 h
  obtain ⟨d₂, h₂, h⟩ := bind_eq_ok.1 h
  obtain ⟨d₃, h₃, h⟩ := bind_eq_ok.1 h
  obtain ⟨d₄, h₄, h⟩ := bind_eq_ok.1 h
  have module : Adds {} [.module] (({} : Draft).addModule image.name) :=
    adds_push _ _ (List.cons_ne_nil _ _)
  have types := adds_foldlM_replicate (fun _ _ _ _ => adds_addTypeRef) h₁
  have first := adds_addType d₁ 0 "<Module>" "" (.coded .typeDefOrRef 0)
  have provenance := adds_addAttribute h₂
  have containers := adds_foldlM (fun q => q.1.tables) (fun _ _ _ _ => adds_addContainer) h₃
  have members := adds_foldlM_replicate (fun _ _ _ _ => adds_addMemberRef) h₄
  have signatures (d : Draft) : Adds d _ (image.symbols.signatures.rows.foldl _ d) :=
    adds_foldl_replicate fun d s => adds_push d .standAloneSig (List.cons_ne_nil (.blob s) [])
  have specs (d : Draft) : Adds d _ (image.symbols.specs.rows.foldl _ d) :=
    adds_foldl_replicate fun d s => adds_push d .typeSpec (List.cons_ne_nil (.blob s) [])
  have assembly (d : Draft) : Adds d [.assembly] (d.addAssembly image.name) :=
    adds_push _ _ (List.cons_ne_nil _ _)
  have assemblies (d : Draft) : Adds d _ (image.symbols.assemblies.rows.foldl addAssemblyRef d) :=
    adds_foldl_replicate fun d a => adds_push d .assemblyRef (List.cons_ne_nil _ _)
  have instantiations := adds_foldlM_replicate (fun _ _ _ _ => adds_addMethodSpec) h
  rw [← List.flatMap_map Prod.fst, List.zipIdx_map_fst] at containers
  simp only [Array.length_toList] at types members instantiations
  rw [Image.tables, Image.tablesBefore, Image.tablesBetween]
  simp only [List.flatten_cons, List.flatten_nil, List.append_nil]
  have before := module.trans (types.trans (first.trans (provenance.trans containers)))
  have between := (signatures d₄).trans ((specs _).trans ((assembly _).trans (assemblies _)))
  exact before.trans (members.trans (between.trans instantiations))

/-! ### The rows of a table -/

/-- The rows of a table, in order. -/
def rowsOf (d : Draft) (table : TableId) : List (List Cell) :=
  (d.rows.toList.filter (·.table == table)).map (·.columns)

/-- Rows of other tables leave those of a table as they are. -/
theorem Adds.rowsOf_eq {tables : List TableId} (h : Adds d tables d') {table : TableId}
    (other : table ∉ tables) : d'.rowsOf table = d.rowsOf table := by
  obtain ⟨rows, hrows, rfl, -⟩ := h
  have none : rows.filter (·.table == table) = [] := by
    rw [List.filter_eq_nil_iff]
    intro row mem same
    exact other (eq_of_beq same ▸ List.mem_map_of_mem mem)
  rw [rowsOf, hrows, List.filter_append, none, List.append_nil, rowsOf]

/-- A row comes last in its table. -/
@[simp] theorem rowsOf_push (d : Draft) (table : TableId) (columns : List Cell) :
    (d.push table columns).rowsOf table = d.rowsOf table ++ [columns] := by
  simp [rowsOf, push]

end Draft

/-! ### Numbers of rows -/

namespace Image

/-- The methods of an image are those of its containers in their order. -/
theorem map_snd_methods (image : Image) :
    image.methods.map (·.2) = image.containers.flatMap (·.methods) := by
  rw [methods, List.map_flatMap]
  have own (q : Container × ContainerId) :
      (q.1.methods.map fun m => (q.2, m)).map (·.2) = q.1.methods := by
    rw [List.map_map]
    exact List.map_id _
  simp only [own]
  rw [← List.flatMap_map Prod.fst, List.zipIdx_map_fst]

/-- The rows of containers: those of types and of nesting are their own, the others are those of
their methods. -/
theorem count_containers (image : Image) (table : TableId) :
    (image.containers.flatMap Container.tables).count table =
      (if table = .typeDef then image.containers.length else 0) +
      (if table = .nestedClass then image.containers.countP (·.parent.isSome) else 0) +
      (image.methods.map fun m => m.2.tables.count table).sum := by
  have methods : image.methods.map (fun m => m.2.tables.count table) =
      (image.containers.flatMap (·.methods)).map (List.count table ∘ SyntheticMethod.tables) := by
    rw [← map_snd_methods, List.map_map]
    rfl
  rw [methods]
  -- A container adds one to the first number, at most one to the second, and its methods' to the
  -- third.
  induction image.containers with
  | nil => simp
  | cons c cs ih =>
    rw [List.flatMap_cons, List.count_append, ih, List.flatMap_cons, List.map_append,
      List.sum_append, Container.tables, List.count_cons, List.count_append, List.count_flatMap]
    have own : (if TableId.typeDef == table then 1 else 0) = if table = .typeDef then 1 else 0 := by
      cases table <;> rfl
    have nested : (if c.parent.isSome then [TableId.nestedClass] else []).count table =
        if table = .nestedClass ∧ c.parent.isSome then 1 else 0 := by
      cases table <;> cases c.parent <;> rfl
    rw [own, nested, List.length_cons, List.countP_cons]
    by_cases type : table = .typeDef
    · subst type
      simp
      omega
    · by_cases nesting : table = .nestedClass
      · subst nesting
        simp
        omega
      · simp [type, nesting]

/-- Whether an image has the attribute that images are created with. -/
def Made (image : Image) : Prop :=
  ∃ name base constructor, image.provenance = attributeType name base constructor

/-- An image that is created has the attribute that images are created with. -/
theorem made_create {name attributeName : String} {core : ModuleInfo} {loaded : List ModuleInfo}
    {image : Image} (h : create name core attributeName loaded = .ok image) : image.Made := by
  obtain ⟨⟨base, symbols⟩, -, h⟩ := bind_eq_ok.1 h
  obtain ⟨signature, -, h⟩ := bind_eq_ok.1 h
  cases h
  exact ⟨_, _, _, rfl⟩

/-- **The rows of an image are counted** by its containers, methods and symbols. -/
theorem count_tables {image : Image} (made : image.Made) (table : TableId) :
    image.tables.count table = image.rowCount table := by
  obtain ⟨name, base, constructor, made⟩ := made
  have provenance : image.provenance.tables = [.typeDef, .methodDef, .param, .param] := by
    rw [made]
    rfl
  have containers := count_containers image table
  simp only [tables, tablesBefore, tablesBetween, List.count_flatten, List.map_cons, List.map_nil,
    List.sum_cons, List.sum_nil, List.count_cons, List.count_nil, List.count_replicate, containers,
    provenance]
  cases table <;>
    simp [rowCount, SyntheticMethod.tables, List.count_replicate, methodCount, reservedTypes] <;>
    omega

end Image
end HookImage
