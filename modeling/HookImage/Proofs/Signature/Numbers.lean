/-
# Numbers without a form of their own

Whether a signature is written does not depend on its numbers (`Signature.exists_blob_iff`).  But a
reader finds no number of `2 ^ 29` or more (`SignatureReader.yields_entry`), and such a number has
its form in common with another one.  So a signature with such a number is written and not read
back, and it shares its blob with another signature (`Signature.numbers_unchecked`).
-/

import Mathlib
import HookImage.Proofs.Bytes.Compressed
import HookImage.Proofs.Signature.Decoding

namespace HookImage

/-! ### What reading finds -/

namespace SignatureReader

/-- Whether all that a reader finds has a property. -/
def Yields {α : Type} (reader : Reader α) (p : α → Prop) : Prop :=
  ∀ bytes a rest, reader bytes = some (a, rest) → p a

variable {α β : Type} {reader : Reader α} {f : α → Reader β} {p : α → Prop} {q : β → Prop}

/-- What the second reader yields both yield, if it does behind whatever the first one yields. -/
theorem Yields.bind (first : Yields reader p) (second : ∀ a, p a → Yields (f a) q) :
    Yields (reader >>= f) q := by
  intro bytes b rest h
  obtain ⟨⟨a, mid⟩, found, h⟩ := Option.bind_eq_some_iff.1 h
  exact second a (first _ _ _ found) _ _ _ h

/-- A result yields what holds of it. -/
theorem yields_pure {a : α} (h : p a) : Yields (pure a) p := by
  intro bytes b rest same
  cases same
  exact h

/-- What is read behind a value of which nothing matters. -/
theorem Yields.behind (second : ∀ a, Yields (f a) q) : Yields (reader >>= f) q :=
  .bind (p := fun _ => True) (fun _ _ _ _ => trivial) fun a _ => second a

/-- A reader with its result changed yields what the change makes of it. -/
theorem Yields.map {g : α → β} (first : Yields reader p) (h : ∀ a, p a → q (g a)) :
    Yields (do return g (← reader)) q :=
  first.bind fun a ha => yields_pure (h a ha)

/-- Reading several yields as many, each of them as one yields it. -/
theorem yields_many (each : Yields reader p) (n : Nat) :
    Yields (many reader n) fun xs => xs.length = n ∧ ∀ x ∈ xs, p x := by
  induction n with
  | zero => exact yields_pure ⟨rfl, fun _ h => (nomatch h)⟩
  | succ n ih =>
    exact each.bind fun x hx => ih.map fun xs ⟨length, all⟩ =>
      ⟨congrArg (· + 1) length, List.forall_mem_cons.2 ⟨hx, all⟩⟩

/-- Numbers that are read have compressed forms. -/
theorem yields_number : Yields number (· < 0x20000000) := fun _ _ _ => Bytes.compressed?_lt

/-- A number below the bound is below it as a number of 32 bits. -/
theorem toNat_ofNat_lt {n : Nat} (h : n < 0x20000000) : (UInt32.ofNat n).toNat < 0x20000000 := by
  rw [UInt32.toNat_ofNat']
  omega

/-- **What is read as a type has small numbers**, and no list of it is too long. -/
theorem yields_type (depth : Nat) : Yields (type depth) TypeSig.Compressible := by
  induction depth with
  | zero =>
    intro bytes t rest h
    cases h
  | succ depth ih =>
    refine .behind fun code => ?_
    split
    · exact ih.map fun e => TypeSig.compressible_pointer_iff.2
    · exact ih.map fun e => TypeSig.compressible_byRef_iff.2
    · exact .behind fun h => yields_pure (TypeSig.compressible_value h)
    · exact .behind fun h => yields_pure (TypeSig.compressible_reference h)
    · exact yields_number.map fun n few =>
        TypeSig.compressible_typeParam_iff.2 (toNat_ofNat_lt few)
    · refine .behind fun code => .behind fun isValue => .behind fun definition =>
        yields_number.bind fun n few => (yields_many ih n).map fun arguments found => ?_
      obtain ⟨rfl, small⟩ := found
      exact TypeSig.compressible_generic_iff.2 ⟨few, small⟩
    · exact ih.map fun e => TypeSig.compressible_array_iff.2
    · exact yields_number.map fun n few =>
        TypeSig.compressible_methodParam_iff.2 (toNat_ofNat_lt few)
    · exact .behind fun p => yields_pure (TypeSig.compressible_primitive p)

end SignatureReader

/-! ### Parts of a signature -/

namespace Signature

/-- The named types in a signature. -/
def handles : Signature → List TypeHandle
  | type t | field t => t.handles
  | method s => s.handles
  | locals vs => vs.flatMap (·.type.handles)
  | instantiation arguments => arguments.flatMap (·.handles)

/-- The lengths of the lists in a signature. -/
def lists : Signature → List Nat
  | type t | field t => t.lists
  | method s => s.lists
  | locals vs => vs.length :: vs.flatMap (·.type.lists)
  | instantiation arguments => arguments.length :: arguments.flatMap (·.lists)

/-- The numbers of generic parameters in a signature, and how many parameters it has if it is that
of a generic method. -/
def numbers : Signature → List UInt32
  | type t | field t => t.numbers
  | method s => s.genericCount :: s.result.numbers ++ s.params.flatMap (·.numbers)
  | locals vs => vs.flatMap (·.type.numbers)
  | instantiation arguments => arguments.flatMap (·.numbers)

/-- Whether the numbers in a signature and the lengths of its lists have compressed forms. -/
def Compressible (s : Signature) : Prop :=
  (∀ n ∈ s.numbers, n.toNat < 0x20000000) ∧ ∀ n ∈ s.lists, n < 0x20000000

/-- **Whether a signature is written does not depend on its numbers.** -/
theorem exists_blob_iff (s : Signature) : (∃ bytes, s.blob = .ok bytes) ↔
    (∀ h ∈ s.handles, h.Written) ∧ ∀ n ∈ s.lists, n < 0x100000000 := by
  cases s with
  | type t => exact Blob.exists_type_eq_ok t
  | method s => exact Blob.exists_method_eq_ok s
  | field t => exact exists_map_eq_ok.trans (Blob.exists_type_eq_ok t)
  | locals vs =>
    rw [blob, Blob.exists_locals_eq_ok, handles, lists, List.forall_mem_cons,
      List.forall_mem_flatMap, List.forall_mem_flatMap, forall₂_and, and_left_comm]
  | instantiation arguments =>
    rw [blob, Blob.instantiation, exists_bind_eq_ok fun _ => exists_map_eq_ok,
      Blob.exists_count_eq_ok, Blob.exists_types_eq_ok, handles, lists, List.forall_mem_cons,
      List.forall_mem_flatMap, List.forall_mem_flatMap, and_left_comm, ← forall₂_and]
    exact and_congr_right fun _ => forall₂_congr fun t _ => Blob.exists_type_eq_ok t

/-- The numbers and lists in some types have compressed forms exactly if they have in each of
them. -/
theorem compressible_types_iff {α : Type} (xs : List α) (type : α → TypeSig) :
    ((∀ n ∈ xs.flatMap fun x => (type x).numbers, n.toNat < 0x20000000) ∧
      ∀ n ∈ xs.flatMap fun x => (type x).lists, n < 0x20000000) ↔
        ∀ x ∈ xs, (type x).Compressible := by
  rw [List.forall_mem_flatMap, List.forall_mem_flatMap, ← forall₂_and]
  exact forall₂_congr fun x _ => TypeSig.compressible_iff.symm

/-- The signature of a method has a compressed form exactly if its parts have. -/
theorem compressible_method_iff {s : MethodSig} : (method s).Compressible ↔ s.Compressible := by
  have result := s.result.compressible_iff
  have params := compressible_types_iff s.params id
  simp only [id_eq] at params
  rw [Compressible, numbers, lists, MethodSig.lists]
  simp only [List.cons_append, List.forall_mem_cons, List.forall_mem_append]
  constructor
  · rintro ⟨⟨count, inResult, inParams⟩, length, resultLists, paramLists⟩
    exact ⟨count, length, result.2 ⟨inResult, resultLists⟩, params.1 ⟨inParams, paramLists⟩⟩
  · intro small
    obtain ⟨inResult, resultLists⟩ := result.1 small.result
    obtain ⟨inParams, paramLists⟩ := params.2 small.params
    exact ⟨⟨small.genericCount, inResult, inParams⟩, small.length, resultLists, paramLists⟩

/-- A signature of local variables has a compressed form exactly if they are few enough and each
type has one. -/
theorem compressible_locals_iff {vs : List LocalVar} : (locals vs).Compressible ↔
    vs.length < 0x20000000 ∧ ∀ v ∈ vs, v.type.Compressible := by
  rw [Compressible, numbers, lists, List.forall_mem_cons, and_left_comm, compressible_types_iff]

/-- Type arguments have a compressed form exactly if they are few enough and each of them has
one. -/
theorem compressible_instantiation_iff {ts : List TypeSig} : (instantiation ts).Compressible ↔
    ts.length < 0x20000000 ∧ ∀ t ∈ ts, t.Compressible := by
  rw [Compressible, numbers, lists, List.forall_mem_cons, and_left_comm]
  exact and_congr_right fun _ => compressible_types_iff ts id

/-- A signature of tokens with a compressed form can be imported. -/
theorem imported_of_compressible {s : Signature} (written : ∀ h ∈ s.handles, h.Written)
    (small : s.Compressible) : s.Imported := by
  cases s with
  | type t => exact .type ⟨written, TypeSig.compressible_iff.2 small⟩
  | field t => exact .field ⟨written, TypeSig.compressible_iff.2 small⟩
  | method s => exact .method written (compressible_method_iff.1 small)
  | locals vs =>
    obtain ⟨length, small⟩ := compressible_locals_iff.1 small
    exact .locals length fun v hv => ⟨List.forall_mem_flatMap.1 written v hv, small v hv⟩
  | instantiation ts =>
    obtain ⟨length, small⟩ := compressible_instantiation_iff.1 small
    exact .instantiation length fun t ht => ⟨List.forall_mem_flatMap.1 written t ht, small t ht⟩

end Signature

namespace SignatureReader

/-- The signature of a method that is read has a compressed form. -/
theorem yields_method (depth : Nat) : Yields (method depth) MethodSig.Compressible := by
  have generics (header : UInt8) : Yields (genericCount header) (· < 0x20000000) := by
    unfold genericCount
    split
    · exact yields_pure (by decide)
    · exact yields_number
  refine .behind fun header => .behind fun convention => (generics header).bind fun count hc =>
    yields_number.bind fun n few => (yields_type depth).bind fun result small =>
      (yields_many (yields_type depth) n).map fun params ⟨length, all⟩ => ?_
  exact ⟨toNat_ofNat_lt hc, length ▸ few, small, all⟩

/-- The type of a local variable that is read has a compressed form. -/
theorem yields_localVar (depth : Nat) :
    Yields (localVar depth) fun v => v.type.Compressible :=
  .behind fun _ => (yields_type depth).map fun _ small => small

/-- A reader under a function yields what the function makes of it. -/
theorem yields_fmap {α β : Type} {reader : Reader α} {p : α → Prop} {q : β → Prop} {g : α → β}
    (first : Yields reader p) (h : ∀ a, p a → q (g a)) : Yields (g <$> reader) q := by
  rw [← bind_pure_comp]
  exact first.map h

/-- **No signature with a number that has no compressed form is found.** -/
theorem yields_entry (table : TableId) (depth : Nat) :
    Yields (entry table depth) Signature.Compressible := by
  have spec : Yields (Signature.type <$> type depth) Signature.Compressible :=
    yields_fmap (yields_type depth) fun _ => TypeSig.compressible_iff.1
  have field : Yields (Signature.field <$> field depth) Signature.Compressible :=
    yields_fmap (.behind fun _ => .behind fun _ => yields_type depth) fun _ =>
      TypeSig.compressible_iff.1
  have method : Yields (Signature.method <$> method depth) Signature.Compressible :=
    yields_fmap (yields_method depth) fun _ => Signature.compressible_method_iff.2
  have locals : Yields (Signature.locals <$> locals depth) Signature.Compressible := by
    refine yields_fmap (p := fun vs => vs.length < 0x20000000 ∧ ∀ v ∈ vs, v.type.Compressible)
      ?_ fun _ => Signature.compressible_locals_iff.2
    refine .behind fun _ => .behind fun _ => yields_number.bind fun n few => ?_
    exact fun bytes vs rest h =>
      have ⟨length, all⟩ := yields_many (yields_localVar depth) n bytes vs rest h
      ⟨length ▸ few, all⟩
  have instantiation :
      Yields (Signature.instantiation <$> instantiation depth) Signature.Compressible := by
    refine yields_fmap (p := fun ts => ts.length < 0x20000000 ∧ ∀ t ∈ ts, t.Compressible)
      ?_ fun _ => Signature.compressible_instantiation_iff.2
    refine .behind fun _ => .behind fun _ => yields_number.bind fun n few => ?_
    exact fun bytes ts rest h =>
      have ⟨length, all⟩ := yields_many (yields_type depth) n bytes ts rest h
      ⟨length ▸ few, all⟩
  intro bytes s rest h
  unfold entry at h
  split at h
  · exact spec _ _ _ h
  · split at h
    · exact field _ _ _ h
    · exact method _ _ _ h
  · split at h
    · exact locals _ _ _ h
    · exact method _ _ _ h
  · exact instantiation _ _ _ h
  · cases h

end SignatureReader

/-! ### Signatures with one blob -/

/-- The type with other numbers of generic parameters. -/
def TypeSig.mapNumbers (f : UInt32 → UInt32) : TypeSig → TypeSig
  | primitive p => primitive p
  | reference h => reference h
  | value h => value h
  | generic isValue definition arguments =>
    generic isValue definition (arguments.map (mapNumbers f))
  | array e => array (e.mapNumbers f)
  | byRef e => byRef (e.mapNumbers f)
  | pointer e => pointer (e.mapNumbers f)
  | typeParam n => typeParam (f n)
  | methodParam n => methodParam (f n)

/-- Changing the numbers of a type changes each of them. -/
@[simp] theorem TypeSig.numbers_mapNumbers (f : UInt32 → UInt32) (t : TypeSig) :
    (t.mapNumbers f).numbers = t.numbers.map f := by
  induction t using TypeSig.induction with
  | primitive p => simp only [mapNumbers, numbers, List.map_nil]
  | reference h => simp only [mapNumbers, numbers, List.map_nil]
  | value h => simp only [mapNumbers, numbers, List.map_nil]
  | generic isValue definition arguments ih =>
    simp only [mapNumbers, numbers, List.flatMap_map, List.map_flatMap]
    exact List.flatMap_congr ih
  | array e ih => simpa only [mapNumbers, numbers] using ih
  | byRef e ih => simpa only [mapNumbers, numbers] using ih
  | pointer e ih => simpa only [mapNumbers, numbers] using ih
  | typeParam n => simp only [mapNumbers, numbers, List.map_singleton]
  | methodParam n => simp only [mapNumbers, numbers, List.map_singleton]

namespace Blob

variable {f : UInt32 → UInt32}

/-- Types with the same byte forms, one by one, have the same byte form. -/
theorem types_map_congr {g : TypeSig → TypeSig} {ts : List TypeSig}
    (same : ∀ t ∈ ts, type (g t) = type t) : types (ts.map g) = types ts := by
  induction ts with
  | nil => rfl
  | cons t ts ih =>
    rw [List.forall_mem_cons] at same
    rw [List.map_cons, types, types, same.1, ih same.2]

/-- Numbers with one form can stand for each other in a type. -/
theorem type_mapNumbers (same : ∀ n, Bytes.compressed (f n) = Bytes.compressed n) (t : TypeSig) :
    type (t.mapNumbers f) = type t := by
  induction t using TypeSig.induction with
  | primitive p => rw [TypeSig.mapNumbers]
  | reference h => rw [TypeSig.mapNumbers]
  | value h => rw [TypeSig.mapNumbers]
  | generic isValue definition arguments ih =>
    rw [TypeSig.mapNumbers, type, type, List.length_map, types_map_congr ih]
  | array e ih => rw [TypeSig.mapNumbers, type, type, ih]
  | byRef e ih => rw [TypeSig.mapNumbers, type, type, ih]
  | pointer e ih => rw [TypeSig.mapNumbers, type, type, ih]
  | typeParam n => rw [TypeSig.mapNumbers, type, type, same]
  | methodParam n => rw [TypeSig.mapNumbers, type, type, same]

end Blob

namespace Signature

/-- The signature with other numbers and counts of generic parameters. -/
def mapNumbers (f : UInt32 → UInt32) : Signature → Signature
  | type t => type (t.mapNumbers f)
  | field t => field (t.mapNumbers f)
  | method s => method { s with
      genericCount := f s.genericCount
      result := s.result.mapNumbers f
      params := s.params.map (·.mapNumbers f) }
  | locals vs => locals (vs.map fun v => { v with type := v.type.mapNumbers f })
  | instantiation ts => instantiation (ts.map (·.mapNumbers f))

/-- Changing the numbers of a signature changes each of them. -/
@[simp] theorem numbers_mapNumbers (f : UInt32 → UInt32) (s : Signature) :
    (s.mapNumbers f).numbers = s.numbers.map f := by
  cases s <;>
    simp only [mapNumbers, numbers, TypeSig.numbers_mapNumbers, List.map_cons, List.map_append,
      List.map_flatMap, List.flatMap_map, List.cons_append]

/-- A signature with other numbers stands in the same table. -/
theorem standsIn_mapNumbers {s : Signature} {table : TableId} (stands : s.StandsIn table)
    (f : UInt32 → UInt32) : (s.mapNumbers f).StandsIn table := by
  cases stands with
  | type t => exact .type _
  | method s => exact .method _
  | field t => exact .field _
  | callSite s => exact .callSite _
  | locals vs => exact .locals _
  | instantiation ts => exact .instantiation _

/-- Numbers with one form can stand for each other in a signature. -/
theorem blob_mapNumbers {f : UInt32 → UInt32}
    (same : ∀ n, Bytes.compressed (f n) = Bytes.compressed n) (pos : ∀ n, 0 < f n ↔ 0 < n)
    (s : Signature) : (s.mapNumbers f).blob = s.blob := by
  have type := Blob.type_mapNumbers same
  cases s with
  | type t => exact type t
  | field t => exact congrArg (· >>= _) (type t)
  | method s =>
    have header : Blob.methodHeader { s with
        genericCount := f s.genericCount
        result := s.result.mapNumbers f
        params := s.params.map (·.mapNumbers f) } = Blob.methodHeader s := by
      simp only [Blob.methodHeader, gt_iff_lt, pos]
    simp only [mapNumbers, blob, Blob.method, header, gt_iff_lt, pos, same, List.length_map, type,
      Blob.types_map_congr fun t _ => type t]
  | locals vs =>
    have each : (Blob.localVar ∘ fun v => { v with type := v.type.mapNumbers f }) =
        Blob.localVar := by
      funext v
      rw [Function.comp_apply, Blob.localVar, Blob.localVar, type]
    simp only [mapNumbers, blob, Blob.locals, List.length_map, List.mapM_map, each]
  | instantiation ts =>
    simp only [mapNumbers, blob, Blob.instantiation, List.length_map,
      Blob.types_map_congr fun t _ => type t]

/-- A signature with a number that has no form of its own is not alone with its blob. -/
theorem exists_ne_blob_eq {s : Signature} {table : TableId} (stands : s.StandsIn table)
    (large : ∃ n ∈ s.numbers, 0x20000000 ≤ n.toNat) :
    ∃ s' : Signature, s' ≠ s ∧ s'.StandsIn table ∧ s'.blob = s.blob := by
  obtain ⟨n, hn, large⟩ := large
  refine ⟨s.mapNumbers Bytes.twin, fun same => ?_, standsIn_mapNumbers stands _,
    blob_mapNumbers Bytes.compressed_twin (fun _ => Bytes.twin_pos) s⟩
  have numbers := numbers_mapNumbers Bytes.twin s
  rw [same] at numbers
  have fixed := List.map_inj_left.1 (numbers.symm.trans (List.map_id _).symm) n hn
  exact Bytes.twin_ne large fixed

/-- **Numbers are not checked.**  Whether a signature is written depends on its named types and on
the lengths of its lists alone, whatever its numbers are.  What is written is read back exactly if
all numbers and lengths have compressed forms, and a signature with a number that has none shares
its blob with another one of the same table. -/
theorem numbers_unchecked (s : Signature) :
    ((∃ bytes, s.blob = .ok bytes) ↔
      (∀ h ∈ s.handles, h.Written) ∧ ∀ n ∈ s.lists, n < 0x100000000) ∧
    ∀ table bytes, s.StandsIn table → s.blob = .ok bytes →
      ((∀ rest, SignatureReader.decode table (bytes ++ rest) = some (s, rest)) ↔
        (∀ n ∈ s.numbers, n.toNat < 0x20000000) ∧ ∀ n ∈ s.lists, n < 0x20000000) ∧
      ((∃ n ∈ s.numbers, 0x20000000 ≤ n.toNat) →
        ∃ s' : Signature, s' ≠ s ∧ s'.StandsIn table ∧ s'.blob = .ok bytes) := by
  refine ⟨exists_blob_iff s, fun table bytes stands written =>
    ⟨⟨fun reads => ?small, fun small rest => ?reads⟩, fun large => ?shared⟩⟩
  case small =>
    exact SignatureReader.yields_entry table _ _ _ _ (reads [])
  case reads =>
    have named := ((exists_blob_iff s).1 ⟨bytes, written⟩).1
    have enough : bytes.length ≤ (bytes ++ rest).length := by
      rw [List.length_append]
      exact Nat.le_add_right _ _
    exact SignatureReader.reads_entry stands (imported_of_compressible named small) written
      enough rest
  case shared =>
    obtain ⟨s', other, stands', same⟩ := exists_ne_blob_eq stands large
    exact ⟨s', other, stands', same.trans written⟩

/-- The signature of a generic method with `2 ^ 29` parameters, of which it takes an array. -/
def crowded : Signature :=
  .method { genericCount := 0x20000000, params := [.array (.methodParam 0x4000)] }

/-- The hypotheses are satisfiable: the signature is written, not read back, and not the only one
with its blob. -/
theorem numbers_unchecked_crowded :
    let bytes : Bytes := [0x10, 0xE0, 0, 0, 0, 1, 1, 0x1D, 0x1E, 0xC0, 0, 0x40, 0]
    crowded.StandsIn .memberRef ∧ crowded.blob = .ok bytes ∧
      ¬(∀ rest, SignatureReader.decode .memberRef (bytes ++ rest) = some (crowded, rest)) ∧
      (∃ n ∈ crowded.numbers, 0x20000000 ≤ n.toNat) ∧
      ∃ s' : Signature, s' ≠ crowded ∧ s'.StandsIn .memberRef ∧ s'.blob = .ok bytes := by
  intro bytes
  have stands : crowded.StandsIn .memberRef := .method _
  have written : crowded.blob = .ok bytes := by cbv
  have large : 0x20000000 ∈ crowded.numbers := List.mem_cons_self
  obtain ⟨reads, shared⟩ := (numbers_unchecked crowded).2 _ _ stands written
  refine ⟨stands, written, fun back => ?_, ⟨_, large, by decide⟩, shared ⟨_, large, by decide⟩⟩
  exact absurd ((reads.1 back).1 _ large) (by decide)

end Signature
end HookImage
