/-
# Signatures are read back

What `HookImage.Signature.Blob` writes, a reader of signatures takes for what it was
(`whole_type`, `whole_method`, `whole_field`, `whole_instantiation`), if the numbers in it and
the lengths of its lists have compressed forms of their own.
-/

import HookImage.Proofs.Signature.Alike
import HookImage.Proofs.Signature.Headers
import HookImage.Proofs.Signature.Reader

namespace HookImage

/-- Whether the numbers in a type and the lengths of its lists have compressed forms. -/
structure TypeSig.Compressible (t : TypeSig) : Prop where
  lists : ∀ n ∈ t.lists, n < 0x20000000
  numbers : ∀ n ∈ t.numbers, n.toNat < 0x20000000

/-- Whether the numbers in a method signature and the lengths of its lists have compressed
forms. -/
structure MethodSig.Compressible (s : MethodSig) : Prop where
  genericCount : s.genericCount.toNat < 0x20000000
  length : s.params.length < 0x20000000
  result : s.result.Compressible
  params : ∀ t ∈ s.params, t.Compressible

namespace TypeSig

variable {t e : TypeSig} {n : UInt32}

/-- Lists with compressed lengths can be counted in 32 bits. -/
theorem Compressible.lists_lt (small : t.Compressible) : ∀ n ∈ t.lists, n < 0x100000000 :=
  fun n hn => Nat.lt_trans (small.lists n hn) (by decide)

/-- A type has a compressed form exactly if all its numbers and all its lists have one. -/
theorem compressible_iff : t.Compressible ↔
    (∀ n ∈ t.numbers, n.toNat < 0x20000000) ∧ ∀ n ∈ t.lists, n < 0x20000000 :=
  ⟨fun small => ⟨small.numbers, small.lists⟩, fun ⟨numbers, lists⟩ => ⟨lists, numbers⟩⟩

/-- A primitive type has neither numbers nor lists. -/
theorem compressible_primitive (p : PrimitiveType) : (primitive p).Compressible := by
  simp [compressible_iff, lists, numbers]

/-- A class has neither numbers nor lists. -/
theorem compressible_reference (h : TypeHandle) : (reference h).Compressible := by
  simp [compressible_iff, lists, numbers]

/-- A value type has neither numbers nor lists. -/
theorem compressible_value (h : TypeHandle) : (value h).Compressible := by
  simp [compressible_iff, lists, numbers]

/-- An array has the numbers and lists of its elements. -/
@[simp] theorem compressible_array_iff : (array e).Compressible ↔ e.Compressible := by
  rw [compressible_iff, compressible_iff, lists, numbers]

/-- A reference to a type has the numbers and lists of that. -/
@[simp] theorem compressible_byRef_iff : (byRef e).Compressible ↔ e.Compressible := by
  rw [compressible_iff, compressible_iff, lists, numbers]

/-- A pointer to a type has the numbers and lists of that. -/
@[simp] theorem compressible_pointer_iff : (pointer e).Compressible ↔ e.Compressible := by
  rw [compressible_iff, compressible_iff, lists, numbers]

/-- A parameter of a type is a number. -/
@[simp] theorem compressible_typeParam_iff : (typeParam n).Compressible ↔ n.toNat < 0x20000000 := by
  simp [compressible_iff, lists, numbers]

/-- A parameter of a method is a number. -/
@[simp]
theorem compressible_methodParam_iff : (methodParam n).Compressible ↔ n.toNat < 0x20000000 := by
  simp [compressible_iff, lists, numbers]

/-- An instantiation has the list of its arguments, and their numbers and lists. -/
theorem compressible_generic_iff {isValue : Bool} {definition : TypeHandle} {ts : List TypeSig} :
    (generic isValue definition ts).Compressible ↔
      ts.length < 0x20000000 ∧ ∀ t ∈ ts, t.Compressible := by
  simp only [compressible_iff, lists, numbers, List.forall_mem_cons, List.forall_mem_flatMap,
    forall₂_and, and_left_comm]

end TypeSig

/-- The lists in a signature with a compressed form can be counted in 32 bits. -/
theorem MethodSig.Compressible.lists_lt {s : MethodSig} (small : s.Compressible) :
    ∀ n ∈ s.lists, n < 0x100000000 := by
  rw [MethodSig.lists]
  simp only [List.forall_mem_append, List.forall_mem_cons, List.forall_mem_flatMap]
  exact ⟨⟨Nat.lt_trans small.length (by decide), small.result.lists_lt⟩,
    fun t ht => (small.params t ht).lists_lt⟩

/-- A row has 24 bits. -/
theorem Token.row_lt (t : Token) : t.row < 0x1000000 := Nat.mod_lt _ (by decide)

/-- A token is made of its table and its row. -/
theorem Token.ofRow_row {t : Token} {table : TableId} (h : t.table? = some table) :
    .ofRow table t.row = t := by
  have number := TableId.number_of_ofNumber? h
  have words : (ofRow table t.row).word.toNat = t.word.toNat := by
    rw [toNat_ofRow, number, tableNumber, row]
    omega
  exact congrArg Token.mk (UInt32.toNat_inj.1 words)

namespace SignatureReader

variable {bytes : Bytes} {depth : Nat}

/-- The table of a type is read back from its tag, which has two bits. -/
theorem typeTable?_tag {table : TableId} {tag : UInt32} (h : Blob.typeTag? table = some tag) :
    typeTable? tag.toNat = some table ∧ tag.toNat < 4 := by
  cases table <;> cases h <;> exact ⟨rfl, by decide⟩

/-- The tag of a table stands below the row. -/
theorem toNat_row_or_tag {row : Nat} {tag : UInt32} (hr : row < 0x1000000) (ht : tag.toNat < 4) :
    (UInt32.ofNat (row * 4) ||| tag).toNat = row * 4 + tag.toNat := by
  have above : (UInt32.ofNat (row * 4)).toNat = row * 4 := by
    rw [UInt32.toNat_ofNat']
    omega
  rw [Bytes.toNat_mark_or (i := 2) (a := row) (by rw [above]; exact Nat.mul_comm row 4) ht, above]

/-- A named type is read back. -/
theorem reads_handle {h : TypeHandle} (written : Blob.handle h = .ok bytes) :
    Reads handle bytes h := by
  cases h with
  | reference r => exact nomatch written
  | token t =>
    have written : Blob.typeToken t = .ok bytes := written
    unfold Blob.typeToken at written
    split at written
    · rename_i tag found
      cases written
      obtain ⟨table, ht, htag⟩ := Option.bind_eq_some_iff.1 found
      obtain ⟨back, small⟩ := typeTable?_tag htag
      have row := t.row_lt
      have value := toNat_row_or_tag row small
      have number := reads_number (n := UInt32.ofNat (t.row * 4) ||| tag) (by rw [value]; omega)
      rw [value] at number
      have low : (t.row * 4 + tag.toNat) % 4 = tag.toNat := by omega
      have high : (t.row * 4 + tag.toNat) / 4 = t.row := by omega
      rw [← List.append_nil (Bytes.compressed _)]
      refine number.bind (.after (a := table) (by rw [low, back]) ?_)
      rw [high, Token.ofRow_row ht]
      exact reads_pure _
    · exact nomatch written

/-- Types one after the other are read one after the other. -/
theorem reads_types {ts : List TypeSig} (written : Blob.types ts = .ok bytes)
    (each : ∀ t ∈ ts, ∀ piece, Blob.type t = .ok piece → piece.length ≤ bytes.length →
      Reads (type depth) piece t) : Reads (many (type depth) ts.length) bytes ts := by
  induction ts generalizing bytes with
  | nil =>
    cases written
    exact reads_pure []
  | cons t ts ih =>
    obtain ⟨first, hfirst, written⟩ := bind_eq_ok.1 written
    obtain ⟨rest, hrest, written⟩ := bind_eq_ok.1 written
    cases written
    rw [List.length_append] at each
    rw [List.forall_mem_cons] at each
    have head := each.1 first hfirst (by omega)
    have tail := ih hrest fun t ht piece hp short => each.2 t ht piece hp (by omega)
    exact head.bind tail.map

/-- A length is read back. -/
theorem reads_count {n : Nat} (written : Blob.count n = .ok bytes) (h : n < 0x20000000) :
    Reads number bytes n := by
  unfold Blob.count at written
  split at written
  · cases written
    have value : (UInt32.ofNat n).toNat = n := by
      rw [UInt32.toNat_ofNat']
      omega
    have := reads_number (n := UInt32.ofNat n) (by omega)
    rw [value] at this
    exact this
  · exact nomatch written

/-- **A type is read back**, with as many levels as it has bytes. -/
theorem reads_type {t : TypeSig} (written : Blob.type t = .ok bytes) (small : t.Compressible)
    (enough : bytes.length ≤ depth) : Reads (type depth) bytes t := by
  induction t using TypeSig.induction generalizing bytes depth with
  | primitive p =>
    cases written
    obtain ⟨depth, rfl⟩ := Nat.exists_eq_add_one.2 enough
    cases p <;> exact fun _ => rfl
  | reference h =>
    obtain ⟨name, hn, written⟩ := bind_eq_ok.1 written
    cases written
    obtain ⟨depth, rfl⟩ := Nat.exists_eq_add_one.2 (Nat.lt_of_lt_of_le (Nat.succ_pos _) enough)
    exact .behind 0x12 (reads_handle hn).map
  | value h =>
    obtain ⟨name, hn, written⟩ := bind_eq_ok.1 written
    cases written
    obtain ⟨depth, rfl⟩ := Nat.exists_eq_add_one.2 (Nat.lt_of_lt_of_le (Nat.succ_pos _) enough)
    exact .behind 0x11 (reads_handle hn).map
  | array e ih =>
    obtain ⟨inner, he, written⟩ := bind_eq_ok.1 written
    cases written
    obtain ⟨depth, rfl⟩ := Nat.exists_eq_add_one.2 (Nat.lt_of_lt_of_le (Nat.succ_pos _) enough)
    have small := TypeSig.compressible_array_iff.1 small
    exact .behind 0x1D (ih he small (Nat.le_of_succ_le_succ enough)).map
  | byRef e ih =>
    obtain ⟨inner, he, written⟩ := bind_eq_ok.1 written
    cases written
    obtain ⟨depth, rfl⟩ := Nat.exists_eq_add_one.2 (Nat.lt_of_lt_of_le (Nat.succ_pos _) enough)
    have small := TypeSig.compressible_byRef_iff.1 small
    exact .behind 0x10 (ih he small (Nat.le_of_succ_le_succ enough)).map
  | pointer e ih =>
    obtain ⟨inner, he, written⟩ := bind_eq_ok.1 written
    cases written
    obtain ⟨depth, rfl⟩ := Nat.exists_eq_add_one.2 (Nat.lt_of_lt_of_le (Nat.succ_pos _) enough)
    have small := TypeSig.compressible_pointer_iff.1 small
    exact .behind 0x0F (ih he small (Nat.le_of_succ_le_succ enough)).map
  | typeParam n =>
    cases written
    obtain ⟨depth, rfl⟩ := Nat.exists_eq_add_one.2 (Nat.lt_of_lt_of_le (Nat.succ_pos _) enough)
    have number := (reads_number (TypeSig.compressible_typeParam_iff.1 small)).map
      (g := fun n => TypeSig.typeParam (UInt32.ofNat n))
    rw [UInt32.ofNat_toNat] at number
    exact .behind 0x13 number
  | methodParam n =>
    cases written
    obtain ⟨depth, rfl⟩ := Nat.exists_eq_add_one.2 (Nat.lt_of_lt_of_le (Nat.succ_pos _) enough)
    have number := (reads_number (TypeSig.compressible_methodParam_iff.1 small)).map
      (g := fun n => TypeSig.methodParam (UInt32.ofNat n))
    rw [UInt32.ofNat_toNat] at number
    exact .behind 0x1E number
  | generic isValue d ts ih =>
    obtain ⟨name, hd, written⟩ := bind_eq_ok.1 written
    obtain ⟨length, hl, written⟩ := bind_eq_ok.1 written
    obtain ⟨members, hm, written⟩ := bind_eq_ok.1 written
    cases written
    obtain ⟨depth, rfl⟩ := Nat.exists_eq_add_one.2 (Nat.lt_of_lt_of_le (Nat.succ_pos _) enough)
    obtain ⟨few, small⟩ := TypeSig.compressible_generic_iff.1 small
    simp only [List.length_cons, List.length_append] at enough
    have each : ∀ t ∈ ts, ∀ piece, Blob.type t = .ok piece → piece.length ≤ members.length →
        Reads (type depth) piece t := fun t ht piece hp short =>
      ih t ht hp (small t ht) (by omega)
    have mark : isValue? (if isValue then Blob.valueCode else Blob.referenceCode) =
        some isValue := by cases isValue <;> rfl
    simp only [List.cons_append, List.append_assoc]
    exact .behind 0x15 (.behind _ (.after mark ((reads_handle hd).bind
      ((reads_count hl few).bind (reads_types hm each).map))))

/-- **A type is read back from its byte form.** -/
theorem whole_type {t : TypeSig} (written : Blob.type t = .ok bytes) (small : t.Compressible) :
    whole type bytes = some t :=
  (reads_type written small (Nat.le_refl _)).whole

/-- A field is read back, whatever follows. -/
theorem reads_field {t : TypeSig} (written : Blob.field t = .ok bytes) (small : t.Compressible)
    (enough : bytes.length ≤ depth) : Reads (field depth) bytes t := by
  obtain ⟨piece, ht, written⟩ := bind_eq_ok.1 written
  cases written
  have type : Reads (type depth) piece t := reads_type ht small (Nat.le_of_succ_le enough)
  exact .behind 0x06 type

/-- **A field is read back from its byte form.** -/
theorem whole_field {t : TypeSig} (written : Blob.field t = .ok bytes) (small : t.Compressible) :
    whole field bytes = some t :=
  (reads_field written small (Nat.le_refl _)).whole

/-- Types that each have small numbers are read back. -/
theorem reads_arguments {ts : List TypeSig} (written : Blob.types ts = .ok bytes)
    (small : ∀ t ∈ ts, t.Compressible) (enough : bytes.length ≤ depth) :
    Reads (many (type depth) ts.length) bytes ts :=
  reads_types written fun t ht _ hp short => reads_type hp (small t ht) (Nat.le_trans short enough)

/-- Type arguments are read back, whatever follows. -/
theorem reads_instantiation {ts : List TypeSig} (written : Blob.instantiation ts = .ok bytes)
    (length : ts.length < 0x20000000) (small : ∀ t ∈ ts, t.Compressible)
    (enough : bytes.length ≤ depth) : Reads (instantiation depth) bytes ts := by
  obtain ⟨count, hc, written⟩ := bind_eq_ok.1 written
  obtain ⟨members, hm, written⟩ := bind_eq_ok.1 written
  cases written
  have all : Reads (many (type depth) ts.length) members ts := reads_arguments hm small (by
    rw [List.length_append] at enough
    exact Nat.le_trans (Nat.le_add_left _ _) enough)
  exact .behind 0x0A ((reads_count hc length).bind all)

/-- **Type arguments are read back from their byte form.** -/
theorem whole_instantiation {ts : List TypeSig} (written : Blob.instantiation ts = .ok bytes)
    (length : ts.length < 0x20000000) (small : ∀ t ∈ ts, t.Compressible) :
    whole instantiation bytes = some ts :=
  (reads_instantiation written length small (Nat.le_refl _)).whole

/-- A convention is read back from its code. -/
theorem convention?_code (k : CallConvention) :
    convention? (Blob.conventionCode k) = some k := by cases k <;> rfl

/-- The number of generic parameters is there if the header says so. -/
theorem reads_generics {s : MethodSig} (small : s.genericCount.toNat < 0x20000000) :
    Reads (genericCount (Blob.methodHeader s))
      (if s.genericCount > 0 then Bytes.compressed s.genericCount else [])
      s.genericCount.toNat := by
  rw [genericCount, show Blob.methodHeader s &&& 0x10 = _ from Blob.methodHeader_generic s]
  by_cases generic : s.genericCount > 0
  · rw [if_pos generic, if_pos generic, if_neg (by decide)]
    exact reads_number small
  · have none : s.genericCount.toNat = 0 := by
      rw [gt_iff_lt, UInt32.lt_iff_toNat_lt] at generic
      exact Nat.eq_zero_of_not_pos generic
    rw [if_neg generic, if_neg generic, if_pos rfl, none]
    exact reads_pure 0

/-- The marks in the header of a method signature tell what the signature is. -/
@[simp] theorem ofHeader_methodHeader (s : MethodSig) :
    ofHeader (Blob.methodHeader s) s.convention s.genericCount.toNat s.result s.params = s := by
  have this : (Blob.methodHeader s &&& 0x20 != 0) = s.hasThis := by
    rw [show Blob.methodHeader s &&& 0x20 = _ from Blob.methodHeader_this s]
    cases s.hasThis <;> rfl
  have explicitThis : (Blob.methodHeader s &&& 0x40 != 0) = s.explicitThis := by
    rw [show Blob.methodHeader s &&& 0x40 = _ from Blob.methodHeader_explicitThis s]
    cases s.explicitThis <;> rfl
  rw [ofHeader, this, explicitThis, UInt32.ofNat_toNat]

/-- **A method signature is read back**, with as many levels as it has bytes. -/
theorem reads_method {s : MethodSig} (written : Blob.method s = .ok bytes)
    (small : s.Compressible) (enough : bytes.length ≤ depth) : Reads (method depth) bytes s := by
  obtain ⟨count, hc, written⟩ := bind_eq_ok.1 written
  obtain ⟨result, hr, written⟩ := bind_eq_ok.1 written
  obtain ⟨params, hp, written⟩ := bind_eq_ok.1 written
  cases written
  simp only [List.length_cons, List.length_append] at enough
  simp only [List.cons_append, List.append_assoc]
  have convention : convention? (Blob.methodHeader s &&& 0x0F) = some s.convention := by
    rw [Blob.methodHeader_low, convention?_code]
  have signature : Reads (method depth) _
      (ofHeader (Blob.methodHeader s) s.convention s.genericCount.toNat s.result s.params) :=
    .behind (Blob.methodHeader s) (.after convention
      ((reads_generics small.genericCount).bind ((reads_count hc small.length).bind
        ((reads_type hr small.result (show result.length ≤ depth by omega)).bind
          (reads_arguments hp small.params (show params.length ≤ depth by omega)).map))))
  rw [ofHeader_methodHeader] at signature
  exact signature

/-- **The signature of a method is read back from its byte form.** -/
theorem whole_method {s : MethodSig} (written : Blob.method s = .ok bytes)
    (small : s.Compressible) : whole method bytes = some s :=
  (reads_method written small (Nat.le_refl _)).whole

end SignatureReader
end HookImage
