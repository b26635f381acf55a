/-
# The symbol table

The rows of an output image that point out of it: assemblies, types, constructed types,
members, signatures and instantiations.  Rows with equal contents are shared; two
assemblies are equal if their names are, whatever the case of the letters.  A type lies
within an assembly or within an earlier type, so that going outwards ends at an assembly.
-/

import HookImage.Error
import HookImage.Image.Interner
import HookImage.Signature.Blob
import HookImage.Text.AsciiCase

namespace HookImage

/-- A type of another assembly. -/
structure TypeRow where
  /-- The assembly of the type, or the type around it. -/
  scope : Token
  nspace : String
  name : String
deriving DecidableEq, Hashable

/-- A method or a field of another assembly. -/
structure MemberRow where
  /-- The type of the member. -/
  parent : Token
  name : String
  signature : Bytes
deriving DecidableEq, Hashable

/-- An instantiation of a generic method. -/
structure InstantiationRow where
  method : Token
  arguments : Bytes
deriving DecidableEq, Hashable

/-- What a row of the symbol table is. -/
inductive SymbolKind where
  | assemblyRef | typeRef | typeSpec | methodRef | fieldRef | standAloneSig | methodSpec
deriving DecidableEq

namespace SymbolKind

/-- The name of a kind of row. -/
def name : SymbolKind → String
  | assemblyRef => "AssemblyRef"
  | typeRef => "TypeRef"
  | typeSpec => "TypeSpec"
  | methodRef => "MethodRef"
  | fieldRef => "FieldRef"
  | standAloneSig => "StandAloneSig"
  | methodSpec => "MethodSpec"

/-- Whether the row is a type. -/
def isType : SymbolKind → Bool
  | typeRef | typeSpec => true
  | _ => false

/-- Whether the row is a method. -/
def isMethod : SymbolKind → Bool
  | methodRef | methodSpec => true
  | _ => false

end SymbolKind

/-- Assemblies are found by their names, whatever the case of the letters. -/
def assemblyKey (a : ModuleInfo) : String := Text.foldCase a.name

/-- A table of assemblies. -/
abbrev AssemblyTable := Interner assemblyKey

/-- A table whose rows are their own keys. -/
abbrev RowTable (ρ : Type) [BEq ρ] [Hashable ρ] := Interner (id : ρ → ρ)

/-- Whether a token can stand around the type with a number: an assembly, or a type before
it. -/
def HasScope (assemblies : AssemblyTable) (types : RowTable TypeRow) (n : Nat) (t : Token) :
    Prop :=
  (t.table? = some .assemblyRef ∧ ∃ a, assemblies.row? t.row = some a) ∨
    (t.table? = some .typeRef ∧ (∃ r, types.row? t.row = some r) ∧ t.row < n)

/-- Whether every type lies within an assembly or within a type before it. -/
def Scoped (assemblies : AssemblyTable) (types : RowTable TypeRow) : Prop :=
  ∀ n row, types.row? n = some row → HasScope assemblies types n row.scope

/-- A scope stays one in tables with more rows. -/
theorem HasScope.mono {a a' : AssemblyTable} {t t' : RowTable TypeRow} (ha : a.Extends a')
    (ht : t.Extends t') {n : Nat} {scope : Token} (h : HasScope a t n scope) :
    HasScope a' t' n scope := by
  rcases h with ⟨table, r, hr⟩ | ⟨table, ⟨r, hr⟩, before⟩
  · exact .inl ⟨table, r, ha _ _ hr⟩
  · exact .inr ⟨table, ⟨r, ht _ _ hr⟩, before⟩

/-- In a table without rows every row has a scope. -/
theorem scoped_empty : Scoped .empty .empty := by
  intro n row h
  cases n <;> simp [Interner.row?, nthRow?, Interner.empty] at h

/-- Adding an assembly leaves every row its scope. -/
theorem Scoped.addAssembly {a : AssemblyTable} {t : RowTable TypeRow} (h : Scoped a t)
    (row : ModuleInfo) : Scoped (a.add row).2 t :=
  fun n r hr => (h n r hr).mono (a.extends_add row) (.refl t)

/-- A type whose scope comes before it may be added. -/
theorem Scoped.addType {a : AssemblyTable} {t : RowTable TypeRow} (h : Scoped a t) {row : TypeRow}
    (scope : HasScope a t (t.rows.size + 1) row.scope) : Scoped a (t.add row).2 := by
  intro n r hr
  rcases Interner.row?_add_cases hr with old | ⟨rfl, rfl⟩
  · exact (h n r old).mono (.refl a) (t.extends_add row)
  · exact scope.mono (.refl a) (t.extends_add r)

/-- The outward rows of an image. -/
structure SymbolTable where
  assemblies : AssemblyTable := .empty
  types : RowTable TypeRow := .empty
  specs : RowTable Bytes := .empty
  members : RowTable MemberRow := .empty
  signatures : RowTable Bytes := .empty
  instantiations : RowTable InstantiationRow := .empty
  nested : Scoped assemblies types := by exact scoped_empty

namespace SymbolTable

/-- No rows. -/
def empty : SymbolTable := {}

/-- What a member is, by the header of its signature. -/
def memberKind (row : MemberRow) : SymbolKind :=
  if row.signature.head? == some Blob.fieldHeader then .fieldRef else .methodRef

/-- What the row of a token is, if there is such a row. -/
def resolve (s : SymbolTable) (t : Token) : Option SymbolKind :=
  match t.table? with
  | some .assemblyRef => (s.assemblies.row? t.row).map fun _ => .assemblyRef
  | some .typeRef => (s.types.row? t.row).map fun _ => .typeRef
  | some .typeSpec => (s.specs.row? t.row).map fun _ => .typeSpec
  | some .memberRef => (s.members.row? t.row).map memberKind
  | some .standAloneSig => (s.signatures.row? t.row).map fun _ => .standAloneSig
  | some .methodSpec => (s.instantiations.row? t.row).map fun _ => .methodSpec
  | _ => none

/-- Whether a type can lie within the row of a token. -/
def isScope (s : SymbolTable) (t : Token) : Bool :=
  match s.resolve t with
  | some .assemblyRef | some .typeRef => true
  | _ => false

/-- What the table accepts as a scope comes before the next row. -/
theorem hasScope_of_isScope {s : SymbolTable} {t : Token} (h : s.isScope t) :
    HasScope s.assemblies s.types (s.types.rows.size + 1) t := by
  unfold isScope resolve at h
  cases ht : t.table? with
  | none => simp [ht] at h
  | some table =>
    cases table with
    | assemblyRef =>
      cases hr : s.assemblies.row? t.row with
      | none => simp [ht, hr] at h
      | some a => exact .inl ⟨ht, a, hr⟩
    | typeRef =>
      cases hr : s.types.row? t.row with
      | none => simp [ht, hr] at h
      | some r => exact .inr ⟨ht, ⟨r, hr⟩, Nat.lt_succ_of_le (Interner.row?_le_size hr)⟩
    | memberRef =>
      cases hr : s.members.row? t.row with
      | none => simp [ht, hr] at h
      | some r => by_cases hf : r.signature.head? = some Blob.fieldHeader <;>
          simp [ht, hr, memberKind, hf] at h
    | _ => simp [ht] at h

/-- The token of an assembly. -/
def assemblyRef (s : SymbolTable) (a : ModuleInfo) : Token × SymbolTable :=
  match s with
  | ⟨assemblies, types, specs, members, signatures, instantiations, nested⟩ =>
    let added := assemblies.add a
    (.ofRow .assemblyRef added.1,
      ⟨added.2, types, specs, members, signatures, instantiations, nested.addAssembly a⟩)

/-- The token of a type within an assembly or within another type. -/
def typeRef (s : SymbolTable) (row : TypeRow) : Except Error (Token × SymbolTable) :=
  if scope : s.isScope row.scope then
    match s, hasScope_of_isScope scope with
    | ⟨assemblies, types, specs, members, signatures, instantiations, nested⟩, scope =>
      let added := types.add row
      .ok (.ofRow .typeRef added.1,
        ⟨assemblies, added.2, specs, members, signatures, instantiations, nested.addType scope⟩)
  else .error (.tokenNotFound row.scope)

/-- The token of a constructed type. -/
def typeSpec (s : SymbolTable) (signature : Bytes) : Token × SymbolTable :=
  match s with
  | ⟨assemblies, types, specs, members, signatures, instantiations, nested⟩ =>
    let (n, specs) := specs.add signature
    (.ofRow .typeSpec n,
      ⟨assemblies, types, specs, members, signatures, instantiations, nested⟩)

/-- The token of a method or a field. -/
def memberRef (s : SymbolTable) (row : MemberRow) : Token × SymbolTable :=
  match s with
  | ⟨assemblies, types, specs, members, signatures, instantiations, nested⟩ =>
    let (n, members) := members.add row
    (.ofRow .memberRef n,
      ⟨assemblies, types, specs, members, signatures, instantiations, nested⟩)

/-- The token of a signature of local variables or of an indirect call. -/
def standAloneSig (s : SymbolTable) (signature : Bytes) : Token × SymbolTable :=
  match s with
  | ⟨assemblies, types, specs, members, signatures, instantiations, nested⟩ =>
    let (n, signatures) := signatures.add signature
    (.ofRow .standAloneSig n,
      ⟨assemblies, types, specs, members, signatures, instantiations, nested⟩)

/-- The token of an instantiation of a generic method. -/
def methodSpec (s : SymbolTable) (row : InstantiationRow) : Token × SymbolTable :=
  match s with
  | ⟨assemblies, types, specs, members, signatures, instantiations, nested⟩ =>
    let (n, instantiations) := instantiations.add row
    (.ofRow .methodSpec n,
      ⟨assemblies, types, specs, members, signatures, instantiations, nested⟩)

/-- The row of a method or field token. -/
def member? (s : SymbolTable) (t : Token) : Option MemberRow :=
  if t.table? == some .memberRef then s.members.row? t.row else none

/-- The row of an instantiation token. -/
def instantiation? (s : SymbolTable) (t : Token) : Option InstantiationRow :=
  if t.table? == some .methodSpec then s.instantiations.row? t.row else none

/-- The row of a signature token. -/
def signature? (s : SymbolTable) (t : Token) : Option Bytes :=
  if t.table? == some .standAloneSig then s.signatures.row? t.row else none

end SymbolTable
end HookImage
