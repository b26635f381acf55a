/-
# Which images can be drafted

Rows are drafted one after the other, so drafting succeeds exactly if every row can be
drafted and every body can be written (`exists_ofImage_eq_ok`).  Of the rows only members
can name what no column refers to: a type lies within an assembly or another type, and an
instantiation is one of a member.
-/

import HookImage.Proofs.Cil.Encodable
import HookImage.Proofs.Image.CodedTokens

namespace HookImage

/-! ### Runs of steps -/

/-- What only grows at each step has grown at the end. -/
theorem le_foldl {α : Type} {grow : Nat → α → Nat} (wider : ∀ n x, n ≤ grow n x) (xs : List α)
    (n : Nat) : n ≤ xs.foldl grow n := by
  induction xs generalizing n with
  | nil => exact Nat.le_refl n
  | cons x xs ih => exact Nat.le_trans (wider n x) (ih _)

section Runs

variable {ε σ α : Type} {f : σ → α → Except ε σ} {good : α → Prop} {xs : List α}

/-- A size that is known at each step is known at the end. -/
theorem foldlM_size (size : σ → Nat) (grow : Nat → α → Nat) {d d' : σ}
    (sizes : ∀ x ∈ xs, ∀ d d', f d x = .ok d' → size d' = grow (size d) x)
    (h : xs.foldlM f d = .ok d') : size d' = xs.foldl grow (size d) := by
  induction xs generalizing d with
  | nil =>
    cases h
    rfl
  | cons x xs ih =>
    rw [List.foldlM_cons] at h
    obtain ⟨d₁, first, h⟩ := bind_eq_ok.1 h
    obtain ⟨hsize, hsizes⟩ := List.forall_mem_cons.1 sizes
    rw [List.foldl_cons, ← hsize d d₁ first]
    exact ih hsizes h

/-- A run of steps succeeds exactly if each step does, where a step only depends on its own
member as long as the state stays below a bound. -/
theorem exists_foldlM_eq_ok (size : σ → Nat) (grow : Nat → α → Nat) (bound : Nat)
    (wider : ∀ n x, n ≤ grow n x) {d : σ}
    (sizes : ∀ x ∈ xs, ∀ d d', f d x = .ok d' → size d' = grow (size d) x)
    (step : ∀ x ∈ xs, ∀ d, grow (size d) x < bound → ((∃ d', f d x = .ok d') ↔ good x))
    (fits : xs.foldl grow (size d) < bound) :
    (∃ d', xs.foldlM f d = .ok d') ↔ ∀ x ∈ xs, good x := by
  induction xs generalizing d with
  | nil => exact ⟨fun _ _ h => (nomatch h), fun _ => ⟨d, rfl⟩⟩
  | cons x xs ih =>
    obtain ⟨hsize, hsizes⟩ := List.forall_mem_cons.1 sizes
    obtain ⟨hstep, hsteps⟩ := List.forall_mem_cons.1 step
    rw [List.foldl_cons] at fits
    have now : grow (size d) x < bound := Nat.lt_of_le_of_lt (le_foldl wider xs _) fits
    have rest (d₁ : σ) (first : f d x = .ok d₁) :
        (∃ d', xs.foldlM f d₁ = .ok d') ↔ ∀ x ∈ xs, good x :=
      ih hsizes hsteps (hsize d d₁ first ▸ fits)
    rw [List.foldlM_cons, List.forall_mem_cons]
    constructor
    · rintro ⟨d', h⟩
      obtain ⟨d₁, first, h⟩ := bind_eq_ok.1 h
      exact ⟨(hstep d now).1 ⟨d₁, first⟩, (rest d₁ first).1 ⟨d', h⟩⟩
    · rintro ⟨hx, hxs⟩
      obtain ⟨d₁, first⟩ := (hstep d now).2 hx
      obtain ⟨d', h⟩ := (rest d₁ first).2 hxs
      exact ⟨d', bind_eq_ok.2 ⟨d₁, first, h⟩⟩

/-- Steps whose size does not matter. -/
theorem exists_foldlM_iff {d : σ} (step : ∀ x ∈ xs, ∀ d, (∃ d', f d x = .ok d') ↔ good x) :
    (∃ d', xs.foldlM f d = .ok d') ↔ ∀ x ∈ xs, good x :=
  exists_foldlM_eq_ok (fun _ => 0) (fun n _ => n) 1 (fun _ _ => Nat.le_refl _)
    (fun _ _ _ _ _ => rfl) (fun x hx d _ => step x hx d)
    (by rw [List.foldl_fixed]; exact Nat.one_pos)

/-- Steps that leave the size as it is. -/
theorem foldlM_same_size (size : σ → Nat) {d d' : σ}
    (sizes : ∀ x ∈ xs, ∀ d d', f d x = .ok d' → size d' = size d)
    (h : xs.foldlM f d = .ok d') : size d' = size d := by
  rw [foldlM_size size (fun n _ => n) sizes h, List.foldl_fixed]

end Runs

/-! ### Columns -/

/-- Whether a column of a kind can refer to a token. -/
def CodedIndex.Refers (kind : CodedIndex) (t : Token) : Prop :=
  t.isNull ∨ ∃ table, t.table? = some table ∧ some table ∈ kind.tables

instance (kind : CodedIndex) (t : Token) : Decidable (kind.Refers t) :=
  decidable_of_iff (t.isNull ∨ t.table?.any (kind.tables.contains <| some ·) = true) <| by
    simp only [CodedIndex.Refers, Option.any_eq_true, List.contains_iff_mem]

/-- A token has a cell exactly if it can be named in the column. -/
theorem Cell.exists_ofToken_eq_ok {kind : CodedIndex} {t : Token} :
    (∃ c, Cell.ofToken kind t = .ok c) ↔ kind.Refers t := by
  unfold Cell.ofToken CodedIndex.Refers
  split
  · rename_i null
    exact ⟨fun _ => .inl null, fun _ => ⟨_, rfl⟩⟩
  · rename_i named
    rw [exists_map_eq_ok, CodedIndex.exists_encode_eq_ok]
    exact ⟨.inr, fun h => h.resolve_left named⟩

/-- A token of a table that a column may name can be named in it. -/
theorem CodedIndex.refers_of_table? {kind : CodedIndex} {t : Token} {table : TableId}
    (h : t.table? = some table) (mem : some table ∈ kind.tables) : kind.Refers t :=
  .inr ⟨table, h, mem⟩

/-! ### Writable images -/

/-- Whether a valid method can be written: its ranges run forward, the types of its
signature have a byte form, and sixteen bits number its parameters. -/
structure SyntheticMethod.Writable (m : SyntheticMethod) : Prop where
  regions : ∀ r ∈ m.body.regions, r.RunsForward m.body
  handles : ∀ h ∈ m.signature.handles, h.Written
  params : m.paramNames.length < 0x10000

/-- Whether an image of valid methods can be written: its methods can, and every member has a
parent that a column can refer to. -/
structure Image.Writable (image : Image) : Prop where
  methods : ∀ c ∈ image.containers, ∀ m ∈ c.methods, m.Writable
  parents : ∀ row ∈ image.symbols.members.rows.toList,
    CodedIndex.memberRefParent.Refers row.parent

instance (m : SyntheticMethod) : Decidable m.Writable :=
  decidable_of_iff ((m.body.regions.all (·.RunsForward m.body) ∧
      m.signature.handles.all (·.Written)) ∧ m.paramNames.length < 0x10000) <| by
    simp only [List.all_eq_true, decide_eq_true_eq]
    exact ⟨fun ⟨⟨regions, handles⟩, params⟩ => ⟨regions, handles, params⟩,
      fun h => ⟨⟨h.regions, h.handles⟩, h.params⟩⟩

instance (image : Image) : Decidable image.Writable :=
  decidable_of_iff (image.containers.all (·.methods.all (·.Writable)) ∧
      image.symbols.members.rows.toList.all
        (CodedIndex.memberRefParent.Refers ·.parent)) <| by
    simp only [List.all_eq_true, decide_eq_true_eq]
    exact ⟨fun ⟨methods, parents⟩ => ⟨methods, parents⟩, fun h => ⟨h.methods, h.parents⟩⟩

/-- The bytes up to the end of a body behind others. -/
def SyntheticMethod.pack (n : Nat) (m : SyntheticMethod) : Nat :=
  Bytes.roundUp 4 n + m.body.writtenSize

/-- The bytes up to the end of the bodies of a container behind others. -/
def Container.pack (n : Nat) (c : Container) : Nat := c.methods.foldl SyntheticMethod.pack n

/-- The number of bytes of all bodies, each at a multiple of four. -/
def Image.bodiesSize (image : Image) : Nat :=
  image.containers.foldl Container.pack image.provenance.body.writtenSize

/-- Bodies are put behind those there are. -/
theorem SyntheticMethod.le_pack (n : Nat) (m : SyntheticMethod) : n ≤ m.pack n :=
  Nat.le_add_right_of_le (Nat.le_add_right _ _)

/-- The bodies of a container are put behind those there are. -/
theorem Container.le_pack (n : Nat) (c : Container) : n ≤ c.pack n :=
  le_foldl SyntheticMethod.le_pack c.methods n

namespace Draft

/-! ### Bodies -/

/-- Appending a list to an array adds its length. -/
theorem size_appendList {α : Type} (xs : Array α) (ys : List α) :
    (xs ++ ys).size = xs.size + ys.length := by
  rw [← Array.length_toList, Array.toList_appendList, List.length_append, Array.length_toList]

/-- Bytes are added at the next multiple of four. -/
theorem addBytes_eq_ok {d d' : Draft} {bytes : Bytes} {address : Nat}
    (h : d.addBytes bytes = .ok (address, d')) :
    d'.bodies.size = Bytes.roundUp 4 d.bodies.size + bytes.length := by
  unfold addBytes at h
  dsimp only at h
  split at h
  · exact nomatch h
  · split at h
    · exact nomatch h
    · cases h
      rw [size_appendList, size_appendList, List.length_replicate]
      rfl

/-- Below 2³¹ bytes there is room for more. -/
theorem exists_addBytes_eq_ok {d : Draft} {bytes : Bytes}
    (fits : Bytes.roundUp 4 d.bodies.size < 0x80000000) : ∃ p, d.addBytes bytes = .ok p := by
  have below : d.bodies.size + Bytes.padding 4 d.bodies.size < 0x80000000 := fits
  unfold addBytes bodiesAddress
  dsimp only
  rw [if_neg (by omega), if_neg (by omega)]
  exact ⟨_, rfl⟩

/-- A body is added at the next multiple of four and takes the bytes that it is written with. -/
theorem addBody_eq_ok {d d' : Draft} {body : MethodBody} {localSig : Option Token}
    {fault : Malformation → Malformation} {address : Nat}
    (h : d.addBody body localSig fault = .ok (address, d')) :
    d'.bodies.size = Bytes.roundUp 4 d.bodies.size + body.writtenSize := by
  obtain ⟨rows, bodies, literals⟩ := d
  unfold addBody at h
  dsimp only at h
  split at h
  · rename_i encoded literals' hencode
    rw [addBytes_eq_ok h, MethodBody.length_encode hencode]
  · exact nomatch h

/-- Where there is room, an encodable body is refused only for a region that does not run
forward. -/
theorem exists_addBody_eq_ok {d : Draft} {body : MethodBody} (enc : body.Encodable)
    (localSig : Option Token) (fault : Malformation → Malformation)
    (fits : Bytes.roundUp 4 d.bodies.size + body.writtenSize < 0x80000000) :
    (∃ p, d.addBody body localSig fault = .ok p) ↔ ∀ r ∈ body.regions, r.RunsForward body := by
  have small : body.codeSize < 0x80000000 := by
    have := body.codeSize_le_writtenSize
    omega
  have few : body.regions.length * 24 + 4 < 0x100000000 := by
    have := body.regions_le_writtenSize
    omega
  obtain ⟨rows, bodies, literals⟩ := d
  rw [← Encode.exists_encode_eq_ok enc small few (fun s heap => LiteralHeap.add heap s) localSig
    literals]
  unfold addBody
  dsimp only
  constructor
  · rintro ⟨p, h⟩
    split at h
    · rename_i encoded literals' hencode
      exact ⟨encoded, literals', hencode⟩
    · exact nomatch h
  · rintro ⟨encoded, literals', h⟩
    split
    · exact exists_addBytes_eq_ok (by dsimp only at fits ⊢; omega)
    · rename_i hencode
      exact nomatch h.symm.trans hencode

/-! ### Methods -/

/-- A parameter is refused only if its number has no room in 16 bits. -/
theorem exists_addParam_eq_ok {d : Draft} {param : String × Nat} :
    (∃ d', d.addParam param = .ok d') ↔ param.2 + 1 < 0x10000 := by
  unfold addParam
  dsimp only
  split
  · rename_i h
    exact ⟨fun _ => h, fun _ => ⟨_, rfl⟩⟩
  · rename_i h
    exact ⟨fun ⟨_, e⟩ => (nomatch e), fun h' => absurd h' h⟩

/-- A parameter adds no body. -/
theorem addParam_size {d d' : Draft} {param : String × Nat} (h : d.addParam param = .ok d') :
    d'.bodies.size = d.bodies.size := by
  unfold addParam at h
  dsimp only at h
  split at h
  · cases h
    rfl
  · exact nomatch h

/-- The row of a method adds no body. -/
theorem addMethodRow_size {d d' : Draft} {address : Nat} {attributes : UInt16} {name : String}
    {signature : Bytes} {paramNames : List String}
    (h : d.addMethodRow address attributes name signature paramNames = .ok d') :
    d'.bodies.size = d.bodies.size :=
  foldlM_same_size (·.bodies.size) (fun _ _ _ _ => addParam_size) h

/-- **A method has a row** exactly if sixteen bits number its parameters. -/
theorem exists_addMethodRow_eq_ok (d : Draft) (address : Nat) (attributes : UInt16) (name : String)
    (signature : Bytes) (paramNames : List String) :
    (∃ d', d.addMethodRow address attributes name signature paramNames = .ok d') ↔
      paramNames.length < 0x10000 := by
  have numbered : (∀ q ∈ paramNames.zipIdx, q.2 + 1 < 0x10000) ↔ paramNames.length < 0x10000 := by
    constructor
    · intro h
      by_contra many
      have last : paramNames.length - 1 < paramNames.length := by omega
      have := h (paramNames[paramNames.length - 1], paramNames.length - 1)
        (List.mk_mem_zipIdx_iff_getElem?.2 (List.getElem?_eq_getElem last))
      omega
    · intro h q hq
      have := (List.mem_zipIdx' hq).1
      omega
  rw [← numbered]
  exact exists_foldlM_iff fun _ _ _ => exists_addParam_eq_ok

/-- A tag adds no body. -/
theorem addTag_size {constructor method : Token} {d d' : Draft} {tag : ProvenanceTag}
    (h : d.addTag constructor method tag = .ok d') : d'.bodies.size = d.bodies.size := by
  obtain ⟨_, _, h⟩ := bind_eq_ok.1 h
  obtain ⟨_, _, h⟩ := bind_eq_ok.1 h
  cases h
  rfl

/-- A method adds its body behind the others. -/
theorem addMethod_size {constructor : Token} {container : String} {d d' : Draft}
    {m : SyntheticMethod} (h : d.addMethod constructor container m = .ok d') :
    d'.bodies.size = m.pack d.bodies.size := by
  obtain ⟨⟨address, d₁⟩, hbody, h⟩ := bind_eq_ok.1 h
  obtain ⟨signature, _, h⟩ := bind_eq_ok.1 h
  obtain ⟨d₂, hrow, h⟩ := bind_eq_ok.1 h
  rw [foldlM_same_size (·.bodies.size) (fun _ _ _ _ => addTag_size) h, addMethodRow_size hrow,
    addBody_eq_ok hbody]
  rfl

/-- **A method is drafted** exactly if it is writable. -/
theorem exists_addMethod_eq_ok {constructor : Token} {container : String} {d : Draft}
    {m : SyntheticMethod} (tagged : CodedIndex.customAttributeType.Refers constructor)
    (enc : m.body.Encodable) (lists : ∀ n ∈ m.signature.lists, n < 0x100000000)
    (fits : m.pack d.bodies.size < 0x80000000) :
    (∃ d', d.addMethod constructor container m = .ok d') ↔ m.Writable := by
  have tags (d : Draft) (method : Token) (outside : CodedIndex.hasCustomAttribute.Refers method) :
      ∃ d', m.tags.foldlM (addTag constructor method) d = .ok d' := by
    refine (exists_foldlM_iff fun _ _ d => ?_).2 fun _ _ => trivial
    obtain ⟨parent, hparent⟩ := Cell.exists_ofToken_eq_ok.2 outside
    obtain ⟨type, htype⟩ := Cell.exists_ofToken_eq_ok.2 tagged
    exact ⟨fun _ => trivial, fun _ =>
      ⟨_, bind_eq_ok.2 ⟨parent, liftM_eq_ok.2 hparent,
        bind_eq_ok.2 ⟨type, liftM_eq_ok.2 htype, rfl⟩⟩⟩⟩
  constructor
  · rintro ⟨d', h⟩
    obtain ⟨⟨address, d₁⟩, hbody, h⟩ := bind_eq_ok.1 h
    obtain ⟨signature, hsignature, h⟩ := bind_eq_ok.1 h
    obtain ⟨d₂, hrow, h⟩ := bind_eq_ok.1 h
    exact {
      regions := (exists_addBody_eq_ok enc _ _ fits).1 ⟨_, hbody⟩
      handles := ((Blob.exists_method_eq_ok _).1 ⟨_, liftM_eq_ok.1 hsignature⟩).1
      params := (exists_addMethodRow_eq_ok _ _ _ _ _ _).1 ⟨_, hrow⟩ }
  · intro h
    obtain ⟨⟨address, d₁⟩, hbody⟩ := (exists_addBody_eq_ok enc m.localSignature
      (.inMethod container m.name) fits).2 h.regions
    obtain ⟨signature, hsignature⟩ := (Blob.exists_method_eq_ok _).2 ⟨h.handles, lists⟩
    obtain ⟨d₂, hrow⟩ := (exists_addMethodRow_eq_ok d₁ address m.attributes m.name signature
      m.paramNames).2 h.params
    obtain ⟨d₃, htags⟩ := tags d₂ (Token.ofRow .methodDef (d₁.next .methodDef))
      (CodedIndex.refers_of_table? (Token.table?_ofRow _ _) (by decide))
    exact ⟨d₃, bind_eq_ok.2 ⟨_, hbody, bind_eq_ok.2 ⟨signature, liftM_eq_ok.2 hsignature,
      bind_eq_ok.2 ⟨d₂, hrow, htags⟩⟩⟩⟩

/-! ### Containers -/

/-- A container adds the bodies of its methods behind the others. -/
theorem addContainer_size {constructor : Token} {d d' : Draft} {entry : Container × ContainerId}
    (h : d.addContainer constructor entry = .ok d') :
    d'.bodies.size = entry.1.pack d.bodies.size := by
  obtain ⟨c, id⟩ := entry
  have methods := foldlM_size (·.bodies.size) SyntheticMethod.pack
    (fun _ _ _ _ => addMethod_size) h
  rw [methods]
  split <;> rfl

/-- Where there is room, a container of encodable methods is refused only for one that cannot be
written. -/
theorem exists_addContainer_eq_ok {constructor : Token} {d : Draft}
    {entry : Container × ContainerId} (tagged : CodedIndex.customAttributeType.Refers constructor)
    (enc : ∀ m ∈ entry.1.methods, m.body.Encodable)
    (lists : ∀ m ∈ entry.1.methods, ∀ n ∈ m.signature.lists, n < 0x100000000)
    (fits : entry.1.pack d.bodies.size < 0x80000000) :
    (∃ d', d.addContainer constructor entry = .ok d') ↔ ∀ m ∈ entry.1.methods, m.Writable := by
  obtain ⟨c, id⟩ := entry
  refine exists_foldlM_eq_ok (·.bodies.size) SyntheticMethod.pack 0x80000000
    SyntheticMethod.le_pack (fun _ _ _ _ => addMethod_size)
    (fun m hm d fits => exists_addMethod_eq_ok tagged (enc m hm) (lists m hm) fits) ?_
  split <;> exact fits

/-! ### The attribute -/

/-- The constructor of the attribute is encodable. -/
theorem encodable_attribute (name : String) (base constructor : Token) :
    (Image.attributeType name base constructor).body.Encodable := by
  have each {p : Instruction → Prop} (load : p ⟨⟨0⟩, .ldarg0, .none⟩)
      (call : p ⟨⟨1⟩, .call, .token constructor⟩) (ret : p ⟨⟨2⟩, .ret, .none⟩) :
      ∀ i ∈ (Image.attributeType name base constructor).body.instructions, p i :=
    List.forall_mem_cons.2 ⟨load, List.forall_mem_cons.2 ⟨call, List.forall_mem_singleton.2 ret⟩⟩
  exact {
    fits := each rfl rfl rfl
    imported := each Bool.false_ne_true Bool.false_ne_true Bool.false_ne_true
    targets := each (fun _ h => (nomatch h)) (fun _ h => (nomatch h)) (fun _ h => (nomatch h))
    anchors := fun _ h => (nomatch h)
    filters := fun _ h => (nomatch h)
    catches := fun _ h => (nomatch h) }

/-- The attribute and its constructor are drafted in any case. -/
theorem exists_addAttribute_eq_ok (d : Draft) (name : String) {base : Token} (constructor : Token)
    (outside : base.table? = some .typeRef) (empty : d.bodies.size = 0)
    (fits : (Image.attributeType name base constructor).body.writtenSize < 0x80000000) :
    ∃ d', d.addAttribute (Image.attributeType name base constructor) = .ok d' ∧
      d'.bodies.size = (Image.attributeType name base constructor).body.writtenSize := by
  have refers : CodedIndex.typeDefOrRef.Refers base :=
    CodedIndex.refers_of_table? outside (by decide)
  obtain ⟨cell, hcell⟩ := Cell.exists_ofToken_eq_ok.2 refers
  have first : Bytes.roundUp 4 d.bodies.size = 0 := by
    rw [empty]
    rfl
  obtain ⟨⟨address, d₁⟩, hbody⟩ := (exists_addBody_eq_ok
    (d := d.addType AttributeType.attributes name "" cell)
    (encodable_attribute name base constructor) none id (by
      show Bytes.roundUp 4 d.bodies.size + _ < _
      rw [first, Nat.zero_add]
      exact fits)).2 fun r hr => (nomatch hr)
  obtain ⟨signature, hsignature⟩ := (Blob.exists_method_eq_ok
    (Image.attributeType name base constructor).signature).2 (by
      simp [Image.attributeType, MethodSig.handles, MethodSig.lists, TypeSig.handles,
        TypeSig.lists])
  obtain ⟨d₂, hrow⟩ := (exists_addMethodRow_eq_ok d₁ address constructorAttributes ".ctor"
    signature ["type", "owner"]).2 (by decide)
  refine ⟨d₂, bind_eq_ok.2 ⟨cell, liftM_eq_ok.2 hcell, bind_eq_ok.2 ⟨_, hbody,
    bind_eq_ok.2 ⟨signature, liftM_eq_ok.2 hsignature, hrow⟩⟩⟩, ?_⟩
  rw [addMethodRow_size hrow, addBody_eq_ok hbody]
  show Bytes.roundUp 4 d.bodies.size + _ = _
  rw [first, Nat.zero_add]

end Draft

/-! ### Images -/

/-- Every row has a number. -/
theorem Interner.exists_row?_of_mem {ρ κ : Type} [BEq κ] [Hashable κ] {key : ρ → κ}
    {t : Interner key} {row : ρ} (h : row ∈ t.rows.toList) : ∃ n, t.row? n = some row := by
  obtain ⟨n, hn, rfl⟩ := List.getElem_of_mem h
  exact ⟨n + 1, by rw [row?, nthRow?]; simp [Array.getElem?_eq_getElem hn]⟩

/-- What an image keeps while methods are added and taken out: the attribute is one of a type
outside, and the instantiations are those of members outside. -/
structure Image.Consistent (image : Image) : Prop where
  provenance : ∃ name base constructor,
    image.provenance = Image.attributeType name base constructor ∧ base.table? = some .typeRef
  instantiations : ∀ n row, image.symbols.instantiations.row? n = some row →
    row.method.table? = some .memberRef

namespace Draft

/-- A referenced type adds no body. -/
theorem addTypeRef_size {d d' : Draft} {row : TypeRow} (h : d.addTypeRef row = .ok d') :
    d'.bodies.size = d.bodies.size := by
  obtain ⟨_, _, h⟩ := bind_eq_ok.1 h
  cases h
  rfl

/-- The referenced types of a symbol table are always drafted, since their scopes can be named. -/
theorem exists_addTypeRefs (s : SymbolTable) (d : Draft) :
    ∃ d', s.types.rows.toList.foldlM addTypeRef d = .ok d' := by
  have every : ∀ row ∈ s.types.rows.toList, CodedIndex.resolutionScope.Refers row.scope := by
    intro row hrow
    obtain ⟨n, hn⟩ := Interner.exists_row?_of_mem hrow
    rcases s.nested n row hn with ⟨table, _⟩ | ⟨table, _⟩
    · exact CodedIndex.refers_of_table? table (by decide)
    · exact CodedIndex.refers_of_table? table (by decide)
  refine (exists_foldlM_iff fun row _ d => ?_).2 every
  rw [addTypeRef, exists_map_eq_ok, exists_liftM_eq_ok, Cell.exists_ofToken_eq_ok]

/-- Members are drafted exactly if their parents can be named. -/
theorem exists_addMemberRefs (rows : List MemberRow) (d : Draft) :
    (∃ d', rows.foldlM addMemberRef d = .ok d') ↔
      ∀ row ∈ rows, CodedIndex.memberRefParent.Refers row.parent := by
  refine exists_foldlM_iff fun row _ d => ?_
  rw [addMemberRef, exists_map_eq_ok, exists_liftM_eq_ok, Cell.exists_ofToken_eq_ok]

/-- The instantiations of a consistent image are always drafted. -/
theorem exists_addMethodSpecs {image : Image} (consistent : image.Consistent) (d : Draft) :
    ∃ d', image.symbols.instantiations.rows.toList.foldlM addMethodSpec d = .ok d' := by
  have every : ∀ row ∈ image.symbols.instantiations.rows.toList,
      CodedIndex.methodDefOrRef.Refers row.method := by
    intro row hrow
    obtain ⟨n, hn⟩ := Interner.exists_row?_of_mem hrow
    exact CodedIndex.refers_of_table? (consistent.instantiations n row hn) (by decide)
  refine (exists_foldlM_iff fun row _ d => ?_).2 every
  rw [addMethodSpec, exists_map_eq_ok, exists_liftM_eq_ok, Cell.exists_ofToken_eq_ok]

/-- Where there is room, the containers of a consistent image are refused only for a method that
cannot be written. -/
theorem exists_addContainers {image : Image} (consistent : image.Consistent) {d : Draft}
    (enc : ∀ c ∈ image.containers, ∀ m ∈ c.methods, m.body.Encodable)
    (lists : ∀ c ∈ image.containers, ∀ m ∈ c.methods, ∀ n ∈ m.signature.lists, n < 0x100000000)
    (size : d.bodies.size = image.provenance.body.writtenSize)
    (fits : image.bodiesSize < 0x80000000) :
    (∃ d', image.containers.zipIdx.foldlM (addContainer image.provenance.constructor) d = .ok d') ↔
      ∀ c ∈ image.containers, ∀ m ∈ c.methods, m.Writable := by
  obtain ⟨name, base, constructor, provenance, _⟩ := consistent.provenance
  have tagged : CodedIndex.customAttributeType.Refers image.provenance.constructor := by
    rw [provenance]
    exact CodedIndex.refers_of_table? (Token.table?_ofRow .methodDef 1) (by decide)
  have entries {p : Container → Prop} :
      (∀ q ∈ image.containers.zipIdx, p q.1) ↔ ∀ c ∈ image.containers, p c := by
    rw [← List.forall_mem_map, List.zipIdx_map_fst]
  rw [← entries]
  have enc := entries.2 enc
  have lists := entries.2 lists
  refine exists_foldlM_eq_ok (·.bodies.size) (fun n q => q.1.pack n) 0x80000000
    (fun n q => q.1.le_pack n) (fun _ _ _ _ => addContainer_size)
    (fun q hq d fits => exists_addContainer_eq_ok tagged (enc q hq) (lists q hq) fits) ?_
  rw [size, ← List.foldl_map, List.zipIdx_map_fst]
  exact fits

/-- **An image is drafted** exactly if it is writable, as long as its bodies and the lists in
its signatures stay below `2 ^ 31`. -/
theorem exists_ofImage_eq_ok {image : Image} (consistent : image.Consistent)
    (enc : ∀ c ∈ image.containers, ∀ m ∈ c.methods, m.body.Encodable)
    (lists : ∀ c ∈ image.containers, ∀ m ∈ c.methods, ∀ n ∈ m.signature.lists, n < 0x80000000)
    (fits : image.bodiesSize < 0x80000000) :
    (∃ d, ofImage image = .ok d) ↔ image.Writable := by
  obtain ⟨d₁, hd₁⟩ := exists_addTypeRefs image.symbols (({} : Draft).addModule image.name)
  have empty : d₁.bodies.size = 0 :=
    foldlM_same_size (·.bodies.size) (fun _ _ _ _ => addTypeRef_size) hd₁
  obtain ⟨d₂, hd₂, size⟩ : ∃ d₂, (d₁.addType 0 "<Module>" "" (.coded .typeDefOrRef 0)).addAttribute
      image.provenance = .ok d₂ ∧ d₂.bodies.size = image.provenance.body.writtenSize := by
    have first : image.provenance.body.writtenSize ≤ image.bodiesSize :=
      le_foldl Container.le_pack _ _
    obtain ⟨name, base, constructor, provenance, outside⟩ := consistent.provenance
    rw [provenance] at first ⊢
    exact exists_addAttribute_eq_ok _ name constructor outside empty (by omega)
  have containers := exists_addContainers consistent enc
    (fun c hc m hm n hn => Nat.lt_trans (lists c hc m hm n hn) (by decide)) size fits
  constructor
  · rintro ⟨d, h⟩
    obtain ⟨d₁', h₁, h⟩ := bind_eq_ok.1 h
    cases hd₁.symm.trans h₁
    obtain ⟨d₂', h₂, h⟩ := bind_eq_ok.1 h
    cases hd₂.symm.trans h₂
    obtain ⟨d₃, h₃, h⟩ := bind_eq_ok.1 h
    obtain ⟨d₄, h₄, h⟩ := bind_eq_ok.1 h
    exact ⟨containers.1 ⟨d₃, h₃⟩, (exists_addMemberRefs _ _).1 ⟨d₄, h₄⟩⟩
  · intro h
    obtain ⟨d₃, h₃⟩ := containers.2 h.methods
    obtain ⟨d₄, h₄⟩ := (exists_addMemberRefs _ d₃).2 h.parents
    obtain ⟨d₅, h₅⟩ := exists_addMethodSpecs consistent _
    exact ⟨d₅, bind_eq_ok.2 ⟨d₁, hd₁, bind_eq_ok.2 ⟨d₂, hd₂, bind_eq_ok.2 ⟨d₃, h₃,
      bind_eq_ok.2 ⟨d₄, h₄, h₅⟩⟩⟩⟩⟩

end Draft
end HookImage
