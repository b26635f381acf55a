/-
# Which signatures have a byte form

A signature can be written exactly if each of its named types is a token of a table that
signatures can refer to, and no list in it is longer than a length can say
(`exists_method_eq_ok`).
-/

import HookImage.Proofs.Success
import HookImage.Signature.Blob

namespace HookImage

/-- Whether a named type has a byte form: it is a token of a type. -/
def TypeHandle.Written (h : TypeHandle) : Prop :=
  ∃ t : Token, h = .token t ∧
    (t.table? = some .typeDef ∨ t.table? = some .typeRef ∨ t.table? = some .typeSpec)

instance : DecidablePred TypeHandle.Written
  | .reference _ => isFalse fun ⟨_, h, _⟩ => nomatch h
  | .token t =>
    decidable_of_iff
      (t.table? = some .typeDef ∨ t.table? = some .typeRef ∨ t.table? = some .typeSpec)
      ⟨fun h => ⟨t, rfl, h⟩, fun ⟨_, same, h⟩ => by cases same; exact h⟩

/-- The lengths of the lists in a type. -/
def TypeSig.lists : TypeSig → List Nat
  | generic _ _ arguments => arguments.length :: arguments.flatMap lists
  | array e | byRef e | pointer e => e.lists
  | primitive _ | reference _ | value _ | typeParam _ | methodParam _ => []

/-- The lengths of the lists in a method signature. -/
def MethodSig.lists (s : MethodSig) : List Nat :=
  s.params.length :: s.result.lists ++ s.params.flatMap (·.lists)

namespace Blob

/-- The tables of types are the three that have a tag. -/
theorem typeTag?_isSome {table : TableId} :
    (typeTag? table).isSome ↔ table = .typeDef ∨ table = .typeRef ∨ table = .typeSpec := by
  cases table <;> decide

/-- A named type has a byte form exactly if it is the token of a type. -/
theorem exists_handle_eq_ok {h : TypeHandle} :
    (∃ bytes, handle h = .ok bytes) ↔ h.Written := by
  cases h with
  | reference r => exact ⟨fun ⟨_, h⟩ => (nomatch h), fun ⟨_, h, _⟩ => (nomatch h)⟩
  | token t =>
    have written : TypeHandle.Written (.token t) ↔ (t.table?.bind typeTag?).isSome := by
      constructor
      · rintro ⟨_, same, table⟩
        cases same
        rcases table with h | h | h <;> rw [h] <;> rfl
      · intro h
        obtain ⟨tag, h⟩ := Option.isSome_iff_exists.1 h
        obtain ⟨table, ht, htag⟩ := Option.bind_eq_some_iff.1 h
        have := typeTag?_isSome.1 (Option.isSome_iff_exists.2 ⟨tag, htag⟩)
        exact ⟨t, rfl, by simpa [ht] using this⟩
    rw [written, handle, typeToken]
    rcases t.table?.bind typeTag? with _ | tag
    · exact ⟨fun ⟨_, h⟩ => (nomatch h), fun h => (nomatch h)⟩
    · exact ⟨fun _ => rfl, fun _ => ⟨_, rfl⟩⟩

/-- A length has a byte form exactly if it has 32 bits. -/
theorem exists_count_eq_ok {n : Nat} : (∃ bytes, count n = .ok bytes) ↔ n < 0x100000000 := by
  unfold count
  split
  · rename_i h
    exact ⟨fun _ => h, fun _ => ⟨_, rfl⟩⟩
  · rename_i h
    exact ⟨fun ⟨_, e⟩ => (nomatch e), fun h' => absurd h' h⟩

/-- Types have byte forms together exactly if each of them has one. -/
theorem exists_types_eq_ok {ts : List TypeSig} :
    (∃ bytes, types ts = .ok bytes) ↔ ∀ t ∈ ts, ∃ bytes, type t = .ok bytes := by
  induction ts with
  | nil => exact ⟨fun _ _ h => (nomatch h), fun _ => ⟨[], rfl⟩⟩
  | cons t ts ih =>
    rw [types, exists_bind_eq_ok fun _ => exists_map_eq_ok, ih, List.forall_mem_cons]

/-- **A type has a byte form** exactly if its named types do and its lists are not too long. -/
theorem exists_type_eq_ok (t : TypeSig) : (∃ bytes, type t = .ok bytes) ↔
    (∀ h ∈ t.handles, h.Written) ∧ ∀ n ∈ t.lists, n < 0x100000000 := by
  cases t with
  | primitive p => simp [type, TypeSig.handles, TypeSig.lists]
  | typeParam n => simp [type, TypeSig.handles, TypeSig.lists]
  | methodParam n => simp [type, TypeSig.handles, TypeSig.lists]
  | reference h =>
    rw [type, exists_map_eq_ok, exists_handle_eq_ok]
    simp [TypeSig.handles, TypeSig.lists]
  | value h =>
    rw [type, exists_map_eq_ok, exists_handle_eq_ok]
    simp [TypeSig.handles, TypeSig.lists]
  | array e =>
    rw [type, exists_map_eq_ok, exists_type_eq_ok e, TypeSig.handles, TypeSig.lists]
  | byRef e =>
    rw [type, exists_map_eq_ok, exists_type_eq_ok e, TypeSig.handles, TypeSig.lists]
  | pointer e =>
    rw [type, exists_map_eq_ok, exists_type_eq_ok e, TypeSig.handles, TypeSig.lists]
  | generic isValue definition arguments =>
    have members : (∀ t ∈ arguments, ∃ bytes, type t = .ok bytes) ↔
        (∀ h ∈ arguments.flatMap TypeSig.handles, h.Written) ∧
          ∀ n ∈ arguments.flatMap TypeSig.lists, n < 0x100000000 := by
      rw [List.forall_mem_flatMap, List.forall_mem_flatMap, ← forall₂_and]
      exact forall₂_congr fun t _ => exists_type_eq_ok t
    rw [type, exists_bind_eq_ok fun _ => exists_bind_eq_ok fun _ => exists_map_eq_ok,
      exists_handle_eq_ok, exists_count_eq_ok, exists_types_eq_ok, members, TypeSig.handles,
      TypeSig.lists, List.forall_mem_cons, List.forall_mem_cons]
    constructor
    · rintro ⟨hd, hn, hh, hl⟩
      exact ⟨⟨hd, hh⟩, hn, hl⟩
    · rintro ⟨⟨hd, hh⟩, hn, hl⟩
      exact ⟨hd, hn, hh, hl⟩

/-- **A method signature has a byte form** exactly if its named types do and its lists are
not too long. -/
theorem exists_method_eq_ok (s : MethodSig) : (∃ bytes, method s = .ok bytes) ↔
    (∀ h ∈ s.handles, h.Written) ∧ ∀ n ∈ s.lists, n < 0x100000000 := by
  have members : (∀ t ∈ s.params, ∃ bytes, type t = .ok bytes) ↔
      (∀ h ∈ s.params.flatMap (·.handles), h.Written) ∧
        ∀ n ∈ s.params.flatMap (·.lists), n < 0x100000000 := by
    rw [List.forall_mem_flatMap, List.forall_mem_flatMap, ← forall₂_and]
    exact forall₂_congr fun t _ => exists_type_eq_ok t
  rw [method, exists_bind_eq_ok fun _ => exists_bind_eq_ok fun _ => exists_map_eq_ok,
    exists_count_eq_ok, exists_type_eq_ok, exists_types_eq_ok, members, MethodSig.handles,
    MethodSig.lists]
  simp only [List.forall_mem_append, List.forall_mem_cons]
  constructor
  · rintro ⟨hn, ⟨hr, hl⟩, hp, hm⟩
    exact ⟨⟨hr, hp⟩, ⟨hn, hl⟩, hm⟩
  · rintro ⟨⟨hr, hp⟩, ⟨hn, hl⟩, hm⟩
    exact ⟨hn, ⟨hr, hl⟩, hp, hm⟩

/-- **A signature of local variables has a byte form** exactly if the named types of the
variables do and neither they nor the lists in them are too many. -/
theorem exists_locals_eq_ok (vs : List LocalVar) : (∃ bytes, locals vs = .ok bytes) ↔
    vs.length < 0x100000000 ∧ ∀ v ∈ vs, (∀ h ∈ v.type.handles, h.Written) ∧
      ∀ n ∈ v.type.lists, n < 0x100000000 := by
  rw [locals, exists_bind_eq_ok fun _ => exists_map_eq_ok, exists_count_eq_ok, exists_mapM_eq_ok]
  refine and_congr_right fun _ => forall₂_congr fun v _ => ?_
  rw [localVar, exists_map_eq_ok, exists_type_eq_ok]

end Blob
end HookImage
