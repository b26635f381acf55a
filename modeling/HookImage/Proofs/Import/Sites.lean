/-
# Where an import finds a type

A type lies where its names and the module of its outermost type say, if the view knows the module,
and else where a type with its full name lies (`HostView.site?`).  Its type row tells the same
(`Importer.locate_site`), and no two type rows tell one site (`SymbolTable.eq_of_site`), so two names
become one token exactly if their types lie in one site.  With that an imported signature is
determined by the old one (`Importer.settles_unique`).
-/

import Mathlib
import HookImage.Proofs.Import.Methods
import HookImage.Proofs.Signature.Joining
import HookImage.Proofs.Signature.ReadBack
import HookImage.Proofs.Symbols.Interning

namespace HookImage

/-- Where a type lies: the assembly, whatever the case of the letters of its name, and the
namespaces and the names of the type from the inside out. -/
structure TypeSite where
  assembly : String
  links : List (String × String)
deriving DecidableEq

/-- The site that the rows of a type tell. -/
def TypePath.site (p : TypePath) : TypeSite := ⟨assemblyKey p.assembly, p.links⟩

/-- Where a type lies if the view knows the module of its outermost type. -/
def HostView.homeSite? (view : HostView) (r : TypeRef) : Option TypeSite :=
  (view.home? r).map fun a => ⟨assemblyKey a, r.links⟩

/-- Where an import finds a type: by its module, or else by its full name. -/
def HostView.site? (view : HostView) (r : TypeRef) : Option TypeSite :=
  (view.homeSite? r).or do
    let t ← view.findType r.fullName
    let found ← (view.typeReference t.id).toOption
    view.homeSite? found

/-! ### Sites of type rows -/

/-- A token is told by its table and its row. -/
theorem Token.eq_of_table_row {t t' : Token} {table : TableId} (h : t.table? = some table)
    (h' : t'.table? = some table) (same : t.row = t'.row) : t = t' := by
  rw [← Token.ofRow_row h, ← Token.ofRow_row h', same]

namespace SymbolTable

variable {s : SymbolTable} {n m : Nat} {p q : TypePath} {t t' : Token}

/-- The site that the row of a token tells. -/
def site? (s : SymbolTable) (t : Token) : Option TypeSite := (s.path? t.row).map TypePath.site

/-- A path is that of a type in an assembly, or goes on with the path of the type around it. -/
theorem path?_cases (h : s.path? n = some p) : ∃ row, s.types.row? n = some row ∧
    ((row.scope.table? = some .assemblyRef ∧ s.assemblies.row? row.scope.row = some p.assembly ∧
        p.links = [(row.nspace, row.name)]) ∨
      ∃ outer, row.scope.table? = some .typeRef ∧ s.path? row.scope.row = some outer ∧
        p.assembly = outer.assembly ∧ p.links = (row.nspace, row.name) :: outer.links) := by
  rcases found : s.types.row? n with _ | row
  · rw [path?, found] at h
    cases h
  refine ⟨row, rfl, ?_⟩
  rcases s.nested n row found with ⟨table, a, outer⟩ | ⟨table, ⟨around, outer⟩, -⟩
  · rw [path?_of_assembly found table outer] at h
    cases h
    exact .inl ⟨table, outer, rfl⟩
  · obtain ⟨around, path⟩ := exists_path? outer
    rw [path?_of_type found table path] at h
    cases h
    exact .inr ⟨around, table, path, rfl, rfl⟩

/-- A path has at least one link. -/
theorem links_ne_nil (h : s.path? n = some p) : p.links ≠ [] := by
  obtain ⟨row, -, ⟨-, -, links⟩ | ⟨_, -, -, -, links⟩⟩ := path?_cases h
  all_goals
    rw [links]
    simp

/-- **No two type rows tell one site.** -/
theorem eq_of_path (h : s.path? n = some p) (h' : s.path? m = some q) (same : p.site = q.site) :
    n = m := by
  induction n using Nat.strongRecOn generalizing m p q with
  | _ n ih =>
    obtain ⟨key, links⟩ := TypeSite.mk.inj same
    obtain ⟨row, found, around⟩ := path?_cases h
    obtain ⟨row', found', around'⟩ := path?_cases h'
    -- The rows are equal because their names and the tokens of what is around them are.
    suffices scopes : row.nspace = row'.nspace ∧ row.name = row'.name ∧ row.scope = row'.scope by
      obtain ⟨nspace, name, scope⟩ := scopes
      refine Interner.eq_of_key found found' ?_
      cases row
      cases row'
      cases nspace
      cases name
      cases scope
      rfl
    rcases around with ⟨table, outer, own⟩ | ⟨p', table, outer, assembly, own⟩ <;>
      rcases around' with ⟨table', outer', own'⟩ | ⟨q', table', outer', assembly', own'⟩
    · rw [own, own'] at links
      obtain ⟨nspace, name⟩ := Prod.mk.inj (List.singleton_inj.1 links)
      exact ⟨nspace, name, Token.eq_of_table_row table table' (Interner.eq_of_key outer outer' key)⟩
    · rw [own, own'] at links
      exact absurd (List.cons.inj links).2.symm (links_ne_nil outer')
    · rw [own, own'] at links
      exact absurd (List.cons.inj links).2 (links_ne_nil outer)
    · rw [own, own'] at links
      obtain ⟨first, rest⟩ := List.cons.inj links
      obtain ⟨nspace, name⟩ := Prod.mk.inj first
      rw [assembly, assembly'] at key
      refine ⟨nspace, name, Token.eq_of_table_row table table' ?_⟩
      exact ih _ (scope_row_lt found table) outer outer'
        (by rw [TypePath.site, TypePath.site, key, rest])

/-- Type rows that tell one site are one row. -/
theorem IsTypeRow.eq_of_site {site : TypeSite} (h : s.IsTypeRow t) (h' : s.IsTypeRow t')
    (here : s.site? t = some site) (there : s.site? t' = some site) : t = t' := by
  obtain ⟨p, path, rfl⟩ := Option.map_eq_some_iff.1 here
  obtain ⟨q, path', same⟩ := Option.map_eq_some_iff.1 there
  exact Token.eq_of_table_row h.1 h'.1 (eq_of_path path path' same.symm)

end SymbolTable

namespace Importer

variable {view : HostView} {imp : Importer} {s s' S : SymbolTable} {st st' : ImportState}
  {token : Token} {r : TypeRef}

/-! ### Sites of imported types -/

/-- A search through the module succeeds only for a type with a home. -/
theorem home?_of_throughModule {t : TypeName} {outer : List TypeName}
    (h : (throughModule view t outer).run.run s = (.ok token, s')) :
    ∃ a, view.home? ⟨t, outer⟩ = some a := by
  induction outer generalizing t token s' with
  | nil =>
    unfold throughModule at h
    split at h
    · cases h
    · rename_i id named
      split at h
      · cases h
      · rename_i a known
        exact ⟨a, Option.bind_eq_some_iff.2 ⟨id, named, known⟩⟩
  | cons o os ih =>
    obtain ⟨scope, s₁, inner, -⟩ := run_bind_eq_ok.1 h
    rw [home?_nested]
    exact ih inner

/-- A search through the module gives a row at the site of the type. -/
theorem throughModule_site (h : (throughModule view r.leaf r.enclosing).run.run s = (.ok token, s'))
    (reach : s'.Grows S) (small : S.Small) :
    ∃ site, view.homeSite? r = some site ∧ S.site? token = some site := by
  obtain ⟨a, home⟩ := home?_of_throughModule h
  obtain ⟨_, same, -, a', path, key⟩ := throughModule_tells home h reach small
  cases same
  refine ⟨⟨assemblyKey a, r.links⟩, Option.map_eq_some_iff.2 ⟨a, home, rfl⟩, ?_⟩
  rw [SymbolTable.site?, path]
  exact congrArg (fun key => some (TypeSite.mk key r.links)) key

/-- A type that is not found through its module has no site. -/
theorem homeSite?_of_error {e : Error}
    (h : (throughModule view r.leaf r.enclosing).run.run s = (.error e, s')) (reach : s'.Grows S)
    (small : S.Small) : view.homeSite? r = none := by
  rcases home : view.home? r with _ | a
  · rw [HostView.homeSite?, home]
    rfl
  · obtain ⟨_, impossible, -⟩ := throughModule_tells home h reach small
    cases impossible

/-- A search by name gives a row at the site of the type that has the name. -/
theorem byName_site (h : (byName view r).run.run s = (.ok token, s')) (reach : s'.Grows S)
    (small : S.Small) : ∃ t found site, view.findType r.fullName = some t ∧
      view.typeReference t.id = .ok found ∧ view.homeSite? found = some site ∧
      S.site? token = some site := by
  unfold byName at h
  split at h
  · cases h
  · rename_i t named
    obtain ⟨found, s₁, answered, last⟩ := run_bind_eq_ok.1 h
    obtain ⟨reference, rfl⟩ := run_lift_eq_ok.1 answered
    obtain ⟨site, home, told⟩ := throughModule_site last reach small
    exact ⟨t, found, site, named, reference, home, told⟩

/-- **The rows of an imported type tell where the type lies.** -/
theorem locate_site (h : (locate view r).run s = (.ok token, s')) (reach : s'.Grows S)
    (small : S.Small) : ∃ site, view.site? r = some site ∧ S.site? token = some site := by
  rw [run_locate] at h
  rcases first : (throughModule view r.leaf r.enclosing).run.run s with ⟨e | token, s₁⟩
  · rw [first] at h
    dsimp only at h
    rcases second : (byName view r).run.run s₁ with ⟨e' | token', s₂⟩
    · simp only [second] at h
      cases h
    · simp only [second] at h
      cases h
      have grows : s₁.Grows S := by
        have more := grows_byName view r s₁
        rw [second] at more
        exact more.trans reach
      have elsewhere := homeSite?_of_error first grows small
      obtain ⟨t, found, site, named, reference, home, told⟩ := byName_site second reach small
      refine ⟨site, ?_, told⟩
      simp [HostView.site?, elsewhere, named, reference, Except.toOption, home]
  · rw [first] at h
    cases h
    obtain ⟨site, home, told⟩ := throughModule_site first reach small
    exact ⟨site, by rw [HostView.site?, home, Option.some_or], told⟩

/-- Whether a named type becomes another one under an import: the token of a type is the type row
that tells where the type lies. -/
def Settles (view : HostView) (s : SymbolTable) : TypeHandle → TypeHandle → Prop
  | .reference r, .token t => s.IsTypeRow t ∧ ∃ site, view.site? r = some site ∧ s.site? t = some site
  | .token t, h => h = .token t
  | .reference _, .reference _ => False

/-- **An import has no choice**: what becomes of a name is determined. -/
theorem settles_unique : Relator.RightUnique (Settles view S) := by
  intro h a b ha hb
  cases h with
  | token t => exact Eq.trans ha (Eq.symm hb)
  | reference r =>
    cases a with
    | reference _ => exact ha.elim
    | token t =>
      cases b with
      | reference _ => exact hb.elim
      | token t' =>
        obtain ⟨row, site, lies, told⟩ := ha
        obtain ⟨row', site', lies', told'⟩ := hb
        cases lies.symm.trans lies'
        rw [row.eq_of_site row' told told']

/-- An import replaces a name by a row at its site, whatever the way there. -/
theorem replaces_settles (small : S.Small) : imp.Replaces S (Settles imp.view S) := by
  intro h h' st st' run reach
  cases h with
  | token t =>
    obtain ⟨rfl, _⟩ := run_pure_eq_some.1 run
    rfl
  | reference r =>
    obtain ⟨token, st₁, found, last⟩ := run_bind_eq_some.1 run
    obtain ⟨rfl, rfl⟩ := run_pure_eq_some.1 last
    rw [run_reference] at found
    split at found
    · rename_i symbols located
      cases found
      exact ⟨locate_isTypeRow located reach small, locate_site located reach small⟩
    · cases found

/-- **The signature of a method that an import leaves no names in** is determined by what the method
had. -/
theorem synthetic_settles {m m' : SyntheticMethod} {n : Nat}
    (run : (synthetic view m).run st = ((m', n), st')) (reach : st'.symbols.Grows S)
    (small : S.Small) (resolved : ∀ h ∈ m'.signature.handles, ∃ t, h = .token t) :
    m.signature.Alike (Settles view S) m'.signature := by
  obtain ⟨-, k, st₁, reach₁, attempted⟩ := synthetic_attempts run reach
  rcases attempt_cases attempted with imported | same
  · exact signature_alike_of (replaces_settles small) imported reach₁
  · rw [same] at resolved ⊢
    refine MethodSig.alike_self fun h hh => ?_
    obtain ⟨t, rfl⟩ := resolved h hh
    rfl

end Importer
end HookImage
