/-
# How symbol tables grow

Rows are added and never change (`Grows`), so whatever a token names it keeps on naming.  A token
has room for the numbers of `2 ^ 24` rows; in a table with fewer of them (`Small`) the token that
an addition gives names the row that was added (`row?_typeRef`, `row?_memberRef` and so on), for an
assembly up to the case of its name.
-/

import HookImage.Image.SymbolTable

namespace HookImage
namespace SymbolTable

/-- Whether one table has all rows of another.  Instantiations that are new are those of
methods outside of the image. -/
structure Grows (s s' : SymbolTable) : Prop where
  assemblies : s.assemblies.Extends s'.assemblies
  types : s.types.Extends s'.types
  specs : s.specs.Extends s'.specs
  members : s.members.Extends s'.members
  signatures : s.signatures.Extends s'.signatures
  instantiations : s.instantiations.Extends s'.instantiations
  added : ∀ n row, s'.instantiations.row? n = some row →
    s.instantiations.row? n = some row ∨ row.method.table? = some .memberRef

/-- A table has all its rows. -/
theorem Grows.refl (s : SymbolTable) : s.Grows s where
  assemblies := .refl _
  types := .refl _
  specs := .refl _
  members := .refl _
  signatures := .refl _
  instantiations := .refl _
  added _ _ h := .inl h

/-- A table that grows in two steps grows. -/
theorem Grows.trans {s s' s'' : SymbolTable} (h : s.Grows s') (h' : s'.Grows s'') :
    s.Grows s'' where
  assemblies := h.assemblies.trans h'.assemblies
  types := h.types.trans h'.types
  specs := h.specs.trans h'.specs
  members := h.members.trans h'.members
  signatures := h.signatures.trans h'.signatures
  instantiations := h.instantiations.trans h'.instantiations
  added n row hr := (h'.added n row hr).elim (h.added n row) .inr

/-! ### What an addition adds -/

/-- Asking for an assembly keeps all rows. -/
theorem grows_assemblyRef (s : SymbolTable) (a : ModuleInfo) : s.Grows (s.assemblyRef a).2 where
  assemblies := s.assemblies.extends_add a
  types := .refl _
  specs := .refl _
  members := .refl _
  signatures := .refl _
  instantiations := .refl _
  added _ _ h := .inl h

/-- A type gets a row exactly within a scope, and no other table changes. -/
theorem typeRef_eq_ok {s s' : SymbolTable} {row : TypeRow} {t : Token}
    (h : s.typeRef row = .ok (t, s')) :
    s.isScope row.scope ∧ t = .ofRow .typeRef (s.types.add row).1 ∧
      s'.types = (s.types.add row).2 ∧ s'.assemblies = s.assemblies ∧ s'.specs = s.specs ∧
      s'.members = s.members ∧ s'.signatures = s.signatures ∧
      s'.instantiations = s.instantiations := by
  unfold typeRef at h
  split at h
  · rename_i scope
    cases h
    exact ⟨scope, rfl, rfl, rfl, rfl, rfl, rfl, rfl⟩
  · exact nomatch h

/-- Asking for a type keeps all rows. -/
theorem grows_typeRef {s s' : SymbolTable} {row : TypeRow} {t : Token}
    (h : s.typeRef row = .ok (t, s')) : s.Grows s' := by
  obtain ⟨_, _, types, assemblies, specs, members, signatures, instantiations⟩ := typeRef_eq_ok h
  exact {
    assemblies := assemblies ▸ .refl _
    types := types ▸ s.types.extends_add row
    specs := specs ▸ .refl _
    members := members ▸ .refl _
    signatures := signatures ▸ .refl _
    instantiations := instantiations ▸ .refl _
    added := fun _ _ hr => .inl (instantiations ▸ hr) }

/-- Asking for a constructed type keeps all rows. -/
theorem grows_typeSpec (s : SymbolTable) (bytes : Bytes) : s.Grows (s.typeSpec bytes).2 where
  assemblies := .refl _
  types := .refl _
  specs := s.specs.extends_add bytes
  members := .refl _
  signatures := .refl _
  instantiations := .refl _
  added _ _ h := .inl h

/-- Asking for a member keeps all rows. -/
theorem grows_memberRef (s : SymbolTable) (row : MemberRow) : s.Grows (s.memberRef row).2 where
  assemblies := .refl _
  types := .refl _
  specs := .refl _
  members := s.members.extends_add row
  signatures := .refl _
  instantiations := .refl _
  added _ _ h := .inl h

/-- Asking for a signature keeps all rows. -/
theorem grows_standAloneSig (s : SymbolTable) (bytes : Bytes) :
    s.Grows (s.standAloneSig bytes).2 where
  assemblies := .refl _
  types := .refl _
  specs := .refl _
  members := .refl _
  signatures := s.signatures.extends_add bytes
  instantiations := .refl _
  added _ _ h := .inl h

/-- Asking for an instantiation of a method outside of the image keeps all rows. -/
theorem grows_methodSpec (s : SymbolTable) {row : InstantiationRow}
    (outside : row.method.table? = some .memberRef) : s.Grows (s.methodSpec row).2 where
  assemblies := .refl _
  types := .refl _
  specs := .refl _
  members := .refl _
  signatures := .refl _
  instantiations := s.instantiations.extends_add row
  added _ _ hr := (Interner.row?_add_cases hr).imp_right fun ⟨_, same⟩ => same ▸ outside

/-! ### What the token of an addition names -/

/-- Whether tokens can tell the rows apart. -/
structure Small (s : SymbolTable) : Prop where
  assemblies : s.assemblies.rows.size < 0x1000000
  types : s.types.rows.size < 0x1000000
  specs : s.specs.rows.size < 0x1000000
  members : s.members.rows.size < 0x1000000
  signatures : s.signatures.rows.size < 0x1000000
  instantiations : s.instantiations.rows.size < 0x1000000

instance (s : SymbolTable) : Decidable s.Small :=
  decidable_of_iff
    (s.assemblies.rows.size < 0x1000000 ∧ s.types.rows.size < 0x1000000 ∧
      s.specs.rows.size < 0x1000000 ∧ s.members.rows.size < 0x1000000 ∧
      s.signatures.rows.size < 0x1000000 ∧ s.instantiations.rows.size < 0x1000000)
    ⟨fun ⟨a, t, sp, m, sig, i⟩ => ⟨a, t, sp, m, sig, i⟩, fun ⟨a, t, sp, m, sig, i⟩ =>
      ⟨a, t, sp, m, sig, i⟩⟩

/-- A table that has grown into one with room has room itself. -/
theorem Small.of_grows {s s' : SymbolTable} (small : s'.Small) (h : s.Grows s') : s.Small where
  assemblies := Nat.lt_of_le_of_lt h.assemblies.size_le small.assemblies
  types := Nat.lt_of_le_of_lt h.types.size_le small.types
  specs := Nat.lt_of_le_of_lt h.specs.size_le small.specs
  members := Nat.lt_of_le_of_lt h.members.size_le small.members
  signatures := Nat.lt_of_le_of_lt h.signatures.size_le small.signatures
  instantiations := Nat.lt_of_le_of_lt h.instantiations.size_le small.instantiations

/-- In a table with room the token of a row has its number. -/
theorem row_ofRow_of_row? {ρ κ : Type} [BEq κ] [Hashable κ] {key : ρ → κ} {t : Interner key}
    {n : Nat} {row : ρ} (table : TableId) (h : t.row? n = some row)
    (small : t.rows.size < 0x1000000) : (Token.ofRow table n).row = n := by
  have := Interner.row?_le_size h
  rw [Token.row_ofRow]
  omega

/-- In a table with room the token that an addition gives names what was added. -/
theorem row?_add_self {ρ : Type} [BEq ρ] [LawfulBEq ρ] [Hashable ρ] (t : RowTable ρ) (row : ρ)
    (table : TableId) (small : (t.add row).2.rows.size < 0x1000000) :
    (t.add row).2.row? (Token.ofRow table (t.add row).1).row = some row := by
  obtain ⟨r, hr, same⟩ := t.row?_add row
  rw [row_ofRow_of_row? table hr small, hr]
  exact congrArg some same

/-- The token of an assembly names it, up to the case of its name. -/
theorem row?_assemblyRef (s : SymbolTable) (a : ModuleInfo) (small : (s.assemblyRef a).2.Small) :
    ∃ a', (s.assemblyRef a).2.assemblies.row? (s.assemblyRef a).1.row = some a' ∧
      assemblyKey a' = assemblyKey a := by
  obtain ⟨a', ha, same⟩ := s.assemblies.row?_add a
  refine ⟨a', ?_, same⟩
  show (s.assemblies.add a).2.row? (Token.ofRow .assemblyRef (s.assemblies.add a).1).row = _
  rw [row_ofRow_of_row? .assemblyRef ha small.assemblies, ha]

/-- The token of a type names its row. -/
theorem row?_typeRef {s s' : SymbolTable} {row : TypeRow} {t : Token}
    (h : s.typeRef row = .ok (t, s')) (small : s'.Small) :
    t.table? = some .typeRef ∧ s'.types.row? t.row = some row := by
  obtain ⟨_, rfl, types, _⟩ := typeRef_eq_ok h
  have few := small.types
  rw [types] at few ⊢
  exact ⟨Token.table?_ofRow _ _, row?_add_self _ _ _ few⟩

/-- The token of a constructed type names its blob. -/
theorem row?_typeSpec (s : SymbolTable) (bytes : Bytes) (small : (s.typeSpec bytes).2.Small) :
    (s.typeSpec bytes).1.table? = some .typeSpec ∧
      (s.typeSpec bytes).2.specs.row? (s.typeSpec bytes).1.row = some bytes :=
  ⟨Token.table?_ofRow _ _, row?_add_self s.specs bytes _ small.specs⟩

/-- The token of a member names its row. -/
theorem row?_memberRef (s : SymbolTable) (row : MemberRow) (small : (s.memberRef row).2.Small) :
    (s.memberRef row).1.table? = some .memberRef ∧
      (s.memberRef row).2.members.row? (s.memberRef row).1.row = some row :=
  ⟨Token.table?_ofRow _ _, row?_add_self s.members row _ small.members⟩

/-- The token of a signature names its blob. -/
theorem row?_standAloneSig (s : SymbolTable) (bytes : Bytes)
    (small : (s.standAloneSig bytes).2.Small) :
    (s.standAloneSig bytes).1.table? = some .standAloneSig ∧
      (s.standAloneSig bytes).2.signatures.row? (s.standAloneSig bytes).1.row = some bytes :=
  ⟨Token.table?_ofRow _ _, row?_add_self s.signatures bytes _ small.signatures⟩

/-- The token of an instantiation names its row. -/
theorem row?_methodSpec (s : SymbolTable) (row : InstantiationRow)
    (small : (s.methodSpec row).2.Small) :
    (s.methodSpec row).1.table? = some .methodSpec ∧
      (s.methodSpec row).2.instantiations.row? (s.methodSpec row).1.row = some row :=
  ⟨Token.table?_ofRow _ _, row?_add_self s.instantiations row _ small.instantiations⟩

end SymbolTable
end HookImage
