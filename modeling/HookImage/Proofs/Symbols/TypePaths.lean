/-
# What a type row says

A type row names the type around it, or its assembly if there is none, so a row is read by
going outwards (`path?`).  The way ends, because what is around a row comes before it.
-/

import HookImage.Proofs.Symbols.Growth

namespace HookImage

/-- The namespaces and the names of a type, from the inside out. -/
def TypeRef.links (r : TypeRef) : List (String × String) :=
  (r.leaf :: r.enclosing).map fun link => (link.nspace, link.name)

/-- A type as its rows tell it. -/
structure TypePath where
  assembly : ModuleInfo
  /-- The namespaces and the names, from the inside out. -/
  links : List (String × String)
deriving DecidableEq

namespace SymbolTable

/-- What the row of a type with a number says, and the rows around it. -/
def path? (s : SymbolTable) (n : Nat) : Option TypePath :=
  match s.types.row? n with
  | none => none
  | some row =>
    match row.scope.table? with
    | some .assemblyRef =>
      (s.assemblies.row? row.scope.row).map fun a => ⟨a, [(row.nspace, row.name)]⟩
    | some .typeRef =>
      if row.scope.row < n then
        (s.path? row.scope.row).map fun p =>
          { p with links := (row.nspace, row.name) :: p.links }
      else none
    | _ => none
termination_by n

variable {s : SymbolTable} {n : Nat} {row : TypeRow}

/-- A type within an assembly has a path of one link. -/
theorem path?_of_assembly {a : ModuleInfo} (h : s.types.row? n = some row)
    (table : row.scope.table? = some .assemblyRef)
    (outer : s.assemblies.row? row.scope.row = some a) :
    s.path? n = some ⟨a, [(row.nspace, row.name)]⟩ := by
  rw [path?, h]
  simp only [table, outer, Option.map_some]

/-- The type around a type comes before it. -/
theorem scope_row_lt (h : s.types.row? n = some row) (table : row.scope.table? = some .typeRef) :
    row.scope.row < n := by
  rcases s.nested n row h with ⟨other, _⟩ | ⟨_, _, before⟩
  · rw [table] at other
    cases other
  · exact before

/-- A type within another one has its path with one link more. -/
theorem path?_of_type {p : TypePath} (h : s.types.row? n = some row)
    (table : row.scope.table? = some .typeRef) (outer : s.path? row.scope.row = some p) :
    s.path? n = some { p with links := (row.nspace, row.name) :: p.links } := by
  rw [path?, h]
  simp only [table, if_pos (scope_row_lt h table), outer, Option.map_some]

/-- Every type row can be read. -/
theorem exists_path? (h : s.types.row? n = some row) : ∃ p, s.path? n = some p := by
  induction n using Nat.strongRecOn generalizing row with
  | _ n ih =>
    rcases s.nested n row h with ⟨table, a, outer⟩ | ⟨table, ⟨around, outer⟩, before⟩
    · exact ⟨_, path?_of_assembly h table outer⟩
    · obtain ⟨p, hp⟩ := ih _ before outer
      exact ⟨_, path?_of_type h table hp⟩

end SymbolTable
end HookImage
