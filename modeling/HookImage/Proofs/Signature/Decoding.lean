/-
# No two signatures share a blob

A blob tells where it ends and what it is the blob of, whatever follows it, if the types in the
signature are tokens and its numbers and lists have compressed forms (`reads_entry`).  The symbol
table finds rows by their blobs.  Members are methods or fields, and signatures on their own are
those of methods or of local variables; the first byte tells which.  So signatures that stand in
one table have different blobs unless they are the same (`Signature.decodable`).
-/

import HookImage.Proofs.Signature.ReadBack

namespace HookImage

/-- A signature of any kind that has a blob. -/
inductive Signature where
  | type (t : TypeSig)
  | method (s : MethodSig)
  | field (t : TypeSig)
  | locals (vs : List LocalVar)
  | instantiation (arguments : List TypeSig)

/-- Whether all named types in a type are tokens of types, and its numbers and the lengths of its
lists have compressed forms. -/
structure TypeSig.Imported (t : TypeSig) : Prop where
  written : ∀ h ∈ t.handles, h.Written
  small : t.Compressible

namespace Signature

/-- The blob of a signature. -/
def blob : Signature → Except Malformation Bytes
  | type t => Blob.type t
  | method s => Blob.method s
  | field t => Blob.field t
  | locals vs => Blob.locals vs
  | instantiation arguments => Blob.instantiation arguments

/-- Whether a table has rows with signatures of the kind. -/
inductive StandsIn : Signature → TableId → Prop
  | type (t : TypeSig) : StandsIn (.type t) .typeSpec
  | method (s : MethodSig) : StandsIn (.method s) .memberRef
  | field (t : TypeSig) : StandsIn (.field t) .memberRef
  | callSite (s : MethodSig) : StandsIn (.method s) .standAloneSig
  | locals (vs : List LocalVar) : StandsIn (.locals vs) .standAloneSig
  | instantiation (arguments : List TypeSig) : StandsIn (.instantiation arguments) .methodSpec

/-- Whether all named types in a signature are tokens of types, and its numbers and the lengths of
its lists have compressed forms. -/
inductive Imported : Signature → Prop
  | type {t : TypeSig} (imported : t.Imported) : Imported (.type t)
  | method {s : MethodSig} (written : ∀ h ∈ s.handles, h.Written) (small : s.Compressible) :
    Imported (.method s)
  | field {t : TypeSig} (imported : t.Imported) : Imported (.field t)
  | locals {vs : List LocalVar} (length : vs.length < 0x20000000)
    (imported : ∀ v ∈ vs, v.type.Imported) : Imported (.locals vs)
  | instantiation {arguments : List TypeSig} (length : arguments.length < 0x20000000)
    (imported : ∀ t ∈ arguments, t.Imported) : Imported (.instantiation arguments)

end Signature

/-! ### Imported signatures have blobs -/

namespace Blob

/-- An imported type has a byte form. -/
theorem exists_type_of_imported {t : TypeSig} (h : t.Imported) : ∃ bytes, type t = .ok bytes :=
  (exists_type_eq_ok t).2 ⟨h.written, h.small.lists_lt⟩

end Blob

/-- **An imported signature has a byte form.** -/
theorem Signature.exists_blob_eq_ok {s : Signature} (h : s.Imported) :
    ∃ bytes, s.blob = .ok bytes := by
  cases h with
  | type imported => exact Blob.exists_type_of_imported imported
  | method written small => exact (Blob.exists_method_eq_ok _).2 ⟨written, small.lists_lt⟩
  | field imported => exact exists_map_eq_ok.2 (Blob.exists_type_of_imported imported)
  | locals length imported =>
    exact (Blob.exists_locals_eq_ok _).2 ⟨Nat.lt_trans length (by decide), fun v hv =>
      ⟨(imported v hv).written, (imported v hv).small.lists_lt⟩⟩
  | instantiation length imported =>
    refine (exists_bind_eq_ok fun _ => exists_map_eq_ok).2 ⟨?_, ?_⟩
    · exact Blob.exists_count_eq_ok.2 (Nat.lt_trans length (by decide))
    · exact Blob.exists_types_eq_ok.2 fun t ht => Blob.exists_type_of_imported (imported t ht)

/-! ### Local variables are read back -/

namespace SignatureReader

variable {bytes : Bytes} {depth : Nat}

/-- No type begins like the mark of a pinned variable. -/
theorem exists_cons_of_type {t : TypeSig} (written : Blob.type t = .ok bytes) :
    ∃ code rest, bytes = code :: rest ∧ code ≠ Blob.pinnedCode := by
  cases t with
  | primitive p =>
    cases written
    exact ⟨_, _, rfl, by cases p <;> decide⟩
  | typeParam n =>
    cases written
    exact ⟨_, _, rfl, by decide⟩
  | methodParam n =>
    cases written
    exact ⟨_, _, rfl, by decide⟩
  | generic isValue definition arguments =>
    obtain ⟨_, _, written⟩ := bind_eq_ok.1 written
    obtain ⟨_, _, written⟩ := bind_eq_ok.1 written
    obtain ⟨_, _, written⟩ := bind_eq_ok.1 written
    cases written
    exact ⟨_, _, rfl, by decide⟩
  | reference h | value h | array e | byRef e | pointer e =>
    obtain ⟨_, _, written⟩ := bind_eq_ok.1 written
    cases written
    exact ⟨_, _, rfl, by decide⟩

/-- What does not begin with the mark is not pinned. -/
theorem pinned_cons_of_ne {code : UInt8} (h : code ≠ 0x45) (rest : Bytes) :
    pinned (code :: rest) = some (false, code :: rest) := by
  unfold pinned
  split
  · rename_i same
    exact absurd (List.cons.inj same).1 h
  · rfl

/-- A local variable is read back, whatever follows. -/
theorem reads_localVar {v : LocalVar} (written : Blob.localVar v = .ok bytes)
    (small : v.type.Compressible) (enough : bytes.length ≤ depth) :
    Reads (localVar depth) bytes v := by
  obtain ⟨type, isPinned⟩ := v
  obtain ⟨piece, ht, written⟩ := bind_eq_ok.1 written
  cases written
  cases isPinned with
  | true =>
    have type := (reads_type ht small (Nat.le_of_succ_le enough)).map
      (g := fun type => LocalVar.mk type true)
    exact type
  | false =>
    have type := (reads_type ht small enough).map (g := fun type => LocalVar.mk type false)
    obtain ⟨code, more, rfl, unmarked⟩ := exists_cons_of_type ht
    intro rest
    have none := pinned_cons_of_ne unmarked (more ++ rest)
    show (pinned (code :: (more ++ rest)) >>= fun p => _) = _
    rw [none]
    exact type rest

/-- Local variables one after the other are read one after the other. -/
theorem reads_localVars {vs : List LocalVar} {pieces : List Bytes}
    (written : List.Forall₂ (fun v piece => Blob.localVar v = .ok piece) vs pieces)
    (small : ∀ v ∈ vs, v.type.Compressible) (enough : pieces.flatten.length ≤ depth) :
    Reads (many (localVar depth) vs.length) pieces.flatten vs := by
  induction written with
  | nil => exact reads_pure []
  | @cons v piece _ _ head _ ih =>
    rw [List.forall_mem_cons] at small
    rw [List.flatten_cons, List.length_append] at enough
    have first : Reads (localVar depth) piece v := reads_localVar head small.1 (by omega)
    exact first.bind (ih small.2 (by omega)).map

/-- **Local variables are read back.** -/
theorem reads_locals {vs : List LocalVar} (written : Blob.locals vs = .ok bytes)
    (length : vs.length < 0x20000000) (small : ∀ v ∈ vs, v.type.Compressible)
    (enough : bytes.length ≤ depth) : Reads (locals depth) bytes vs := by
  obtain ⟨count, hc, written⟩ := bind_eq_ok.1 written
  obtain ⟨members, hm, written⟩ := bind_eq_ok.1 written
  cases written
  have each : Reads (many (localVar depth) vs.length) members.flatten vs :=
    reads_localVars (mapM_eq_ok.1 hm) small (by
      rw [List.length_append] at enough
      exact Nat.le_trans (Nat.le_add_left _ _) enough)
  exact .behind 0x07 ((reads_count hc length).bind each)

/-! ### Signatures of the rows of a table -/

/-- The signature of a row of a table.  Where two kinds stand in a table, the first byte tells
which it is. -/
def entry (table : TableId) (depth : Nat) : Reader Signature := fun bytes =>
  match table with
  | .typeSpec => (Signature.type <$> type depth) bytes
  | .memberRef =>
    if bytes.head? = some 0x06 then (Signature.field <$> field depth) bytes
    else (Signature.method <$> method depth) bytes
  | .standAloneSig =>
    if bytes.head? = some 0x07 then (Signature.locals <$> locals depth) bytes
    else (Signature.method <$> method depth) bytes
  | .methodSpec => (Signature.instantiation <$> instantiation depth) bytes
  | _ => none

/-- The signature at the front of a run of bytes, for a row of a table, and the rest. -/
def decode (table : TableId) (bytes : Bytes) : Option (Signature × Bytes) :=
  entry table bytes.length bytes

/-- The first byte is the same whatever follows. -/
theorem head?_append_of_head? {b : UInt8} (h : bytes.head? = some b) (rest : Bytes) :
    (bytes ++ rest).head? = some b := by
  rw [List.head?_append, h]
  rfl

/-- **A signature is read back** as one of its kind, by what stands in the table. -/
theorem reads_entry {s : Signature} {table : TableId} (stands : s.StandsIn table)
    (imported : s.Imported) (written : s.blob = .ok bytes) (enough : bytes.length ≤ depth) :
    Reads (entry table depth) bytes s := by
  intro rest
  cases stands with
  | type t =>
    cases imported with
    | type imported => exact (reads_type written imported.small enough).map rest
  | method s =>
    cases imported with
    | method _ small =>
      have first := head?_append_of_head? (Blob.head?_method written) rest
      have other : Blob.methodHeader s ≠ 0x06 := Blob.methodHeader_ne (by decide)
      rw [entry, first, if_neg (by simpa using other)]
      exact (reads_method written small enough).map rest
  | field t =>
    cases imported with
    | field imported =>
      have first : (bytes ++ rest).head? = some 0x06 :=
        head?_append_of_head? (Blob.head?_field written) rest
      rw [entry, if_pos first]
      exact (reads_field written imported.small enough).map rest
  | callSite s =>
    cases imported with
    | method _ small =>
      have first := head?_append_of_head? (Blob.head?_method written) rest
      have other : Blob.methodHeader s ≠ 0x07 := Blob.methodHeader_ne (by decide)
      rw [entry, first, if_neg (by simpa using other)]
      exact (reads_method written small enough).map rest
  | locals vs =>
    cases imported with
    | locals length imported =>
      have first : (bytes ++ rest).head? = some 0x07 :=
        head?_append_of_head? (Blob.head?_locals written) rest
      rw [entry, if_pos first]
      exact (reads_locals written length (fun v hv => (imported v hv).small) enough).map rest
  | instantiation arguments =>
    cases imported with
    | instantiation length imported =>
      exact (reads_instantiation written length (fun t ht => (imported t ht).small) enough).map rest

end SignatureReader

/-- **Blobs are uniquely decodable.**  An imported signature has a blob, which is read back whatever
follows it, and no other imported signature that stands in the same table has this blob. -/
theorem Signature.decodable {s : Signature} {table : TableId} (stands : s.StandsIn table)
    (imported : s.Imported) : ∃ bytes, s.blob = .ok bytes ∧
      (∀ rest, SignatureReader.decode table (bytes ++ rest) = some (s, rest)) ∧
      ∀ s' : Signature, s'.StandsIn table → s'.Imported → s'.blob = .ok bytes → s' = s := by
  obtain ⟨bytes, written⟩ := exists_blob_eq_ok imported
  have reads {s' : Signature} (stands' : s'.StandsIn table) (imported' : s'.Imported)
      (written' : s'.blob = .ok bytes) (rest : Bytes) :
      SignatureReader.decode table (bytes ++ rest) = some (s', rest) := by
    have enough : bytes.length ≤ (bytes ++ rest).length := by
      rw [List.length_append]
      exact Nat.le_add_right _ _
    exact SignatureReader.reads_entry stands' imported' written' enough rest
  refine ⟨bytes, written, reads stands imported written, fun s' stands' imported' written' => ?_⟩
  have both := (reads stands' imported' written' []).symm.trans (reads stands imported written [])
  exact (Prod.mk.inj (Option.some.inj both)).1

/-- Two local variables, of which the first one is pinned.  Their types have a list and numbers of
one, two and four bytes. -/
def Signature.pinnedSpan : Signature := .locals [
  ⟨.byRef (.generic true (.token (.ofRow .typeRef 3)) [.typeParam 0x7F, .methodParam 0x80]), true⟩,
  ⟨.array (.reference (.token (.ofRow .typeSpec 0x1000))), false⟩]

/-- The signature with a pinned variable is imported. -/
theorem Signature.pinnedSpan_imported : pinnedSpan.Imported := by
  refine .locals (by decide) (List.forall_mem_cons.2 ⟨⟨?written, ?lists, ?numbers⟩,
    List.forall_mem_singleton.2 ⟨?written', ?lists', ?numbers'⟩⟩)
  all_goals
    simp only [TypeSig.handles, TypeSig.lists, TypeSig.numbers, List.flatMap_cons,
      List.flatMap_nil, List.append_nil, List.cons_append, List.nil_append]
  case written | written' => decide
  case lists | lists' | numbers | numbers' => simp

/-- The hypotheses are satisfiable: the blob of the local variables is found behind whatever else
would be taken for a part of it. -/
theorem Signature.decodable_pinnedSpan :
    pinnedSpan.StandsIn .standAloneSig ∧ pinnedSpan.Imported ∧ ∀ rest,
      SignatureReader.decode .standAloneSig
        ([0x07, 0x02, 0x45, 0x10, 0x15, 0x11, 0x0D, 0x02, 0x13, 0x7F, 0x1E, 0x80, 0x80,
          0x1D, 0x12, 0xC0, 0x00, 0x40, 0x02] ++ rest) = some (pinnedSpan, rest) := by
  have stands : pinnedSpan.StandsIn .standAloneSig := .locals _
  obtain ⟨bytes, written, reads, -⟩ := decodable stands pinnedSpan_imported
  have same : pinnedSpan.blob = .ok [0x07, 0x02, 0x45, 0x10, 0x15, 0x11, 0x0D, 0x02, 0x13, 0x7F,
      0x1E, 0x80, 0x80, 0x1D, 0x12, 0xC0, 0x00, 0x40, 0x02] := by cbv
  cases written.symm.trans same
  exact ⟨stands, pinnedSpan_imported, reads⟩

end HookImage
