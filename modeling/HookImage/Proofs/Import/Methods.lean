/-
# What an imported method consists of

If nothing of a method stays symbolic, its types keep their forms with type rows for names,
its metadata operands become the tokens of their rows, its catch types become tokens, and
everything else of it stays (`synthetic_imported`).
-/

import HookImage.Proofs.Import.Rows

namespace HookImage
namespace Importer

variable {α : Type} {view : HostView} {imp : Importer} {S : SymbolTable} {st st' : ImportState}

/-- Whether an instruction is another one with its metadata imported. -/
structure ImportsInstruction (view : HostView) (s : SymbolTable) (i i' : Instruction) : Prop where
  id : i'.id = i.id
  opcode : i'.opcode = i.opcode
  operand : ¬i.operand.isSymbolic ∧ i'.operand = i.operand ∨
    i.operand.isSymbolic ∧ ∃ token, i'.operand = .token token ∧ Denotes view s i.operand token

/-- Whether a region is another one with its catch type imported. -/
def ImportsRegion (view : HostView) (s : SymbolTable) (r r' : Region) : Prop :=
  r.catchType = none ∧ r' = r ∨
    ∃ t token, r.catchType = some t ∧ DenotesType view s t token ∧
      r' = { r with catchType := some (.reference (.token token)) }

/-- Whether a local variable is another one with its type imported. -/
structure ImportsLocal (view : HostView) (s : SymbolTable) (v v' : LocalVar) : Prop where
  type : v.type.Alike (Renders view s) v'.type
  pinned : v'.pinned = v.pinned

/-- Whether local variables are signed: their signature has a row if it has a byte form, and
if it has none nothing stands for it. -/
structure SignsLocals (s : SymbolTable) (vs : List LocalVar) (signature : Option Token) : Prop where
  row : ∀ bytes, Blob.locals vs = .ok bytes → ∃ token, signature = some token ∧
    token.table? = some .standAloneSig ∧ s.signatures.row? token.row = some bytes
  missing : (¬∃ bytes, Blob.locals vs = .ok bytes) → signature = none

/-- Whether a method is another one with all that it names imported. -/
structure Imports (view : HostView) (s : SymbolTable) (m m' : SyntheticMethod) : Prop where
  signature : m.signature.Alike (Renders view s) m'.signature
  paramNames : m'.paramNames = m.paramNames
  locals : List.Forall₂ (ImportsLocal view s) m.body.locals.toList m'.body.locals.toList
  localSignature : m'.body.locals.toList ≠ [] →
    SignsLocals s m'.body.locals.toList m'.localSignature
  regions : List.Forall₂ (ImportsRegion view s) m.body.regions m'.body.regions
  instructions : List.Forall₂ (ImportsInstruction view s) m.body.instructions m'.body.instructions

/-! ### What an import keeps -/

/-- An attempt gives what is imported and counts nothing, or gives what there was and counts one. -/
theorem attempt_outcome {old new : α} {x : ImportM α} {n : Nat}
    (run : (attempt old x).run st = ((new, n), st')) :
    x.run.run st = (some new, st') ∧ n = 0 ∨ x.run.run st = (none, st') ∧ new = old ∧ n = 1 := by
  unfold attempt at run
  rw [StateT.run_bind] at run
  rcases h : x.run.run st with ⟨_ | a, st₁⟩
  · rw [h] at run
    cases run
    exact .inr ⟨rfl, rfl, rfl⟩
  · rw [h] at run
    cases run
    exact .inl ⟨rfl, rfl⟩

/-- An attempt gives what is imported, or what there was. -/
theorem attempt_cases {old new : α} {x : ImportM α} {n : Nat}
    (run : (attempt old x).run st = ((new, n), st')) :
    x.run.run st = (some new, st') ∨ new = old :=
  (attempt_outcome run).imp And.left fun failed => failed.2.1

/-- Importing local variables changes neither the name of the method nor its signature or origin. -/
theorem locals_keeps {m m' : SyntheticMethod} {n : Nat}
    (run : (imp.locals m).run st = ((m', n), st')) :
    m'.name = m.name ∧ m'.signature = m.signature ∧ m'.origin = m.origin := by
  unfold locals at run
  obtain ⟨imported | ls, st₁, -, run⟩ := exists_of_run_bind run
  · cases run
    exact ⟨rfl, rfl, rfl⟩
  · dsimp only at run
    split at run
    · cases run
      exact ⟨rfl, rfl, rfl⟩
    · obtain ⟨o, st₂, -, last⟩ := exists_of_run_bind run
      cases last
      exact ⟨rfl, rfl, rfl⟩

/-- An import keeps the name of a method, and attempts to import its signature first. -/
theorem synthetic_attempts {m m' : SyntheticMethod} {n : Nat}
    (run : (synthetic view m).run st = ((m', n), st')) (reach : st'.symbols.Grows S) :
    m'.name = m.name ∧ ∃ k st₁, st₁.symbols.Grows S ∧
      (attempt m.signature (signature ⟨view, m.origin⟩ m.signature)).run st =
        ((m'.signature, k), st₁) := by
  unfold synthetic at run
  obtain ⟨⟨signature, a⟩, st₁, hs, run⟩ := exists_of_run_bind run
  obtain ⟨⟨m₁, b⟩, st₂, hl, run⟩ := exists_of_run_bind run
  obtain ⟨⟨regions, c⟩, st₃, hr, run⟩ := exists_of_run_bind run
  obtain ⟨⟨instructions, d⟩, st₄, hi, run⟩ := exists_of_run_bind run
  obtain ⟨same, rfl⟩ := Prod.mk.inj run
  obtain ⟨rfl, -⟩ := Prod.mk.inj same
  obtain ⟨name, kept, -⟩ := locals_keeps hl
  have reach₃ := (growing_each (growing_instruction _) _).reaches hi reach
  have reach₂ := (growing_each (growing_region _) _).reaches hr reach₃
  refine ⟨name, a, st₁, (growing_locals _ _).reaches hl reach₂, hs.trans ?_⟩
  exact congrArg (fun signature => ((signature, a), st₁)) kept.symm

/-! ### Attempts without a failure -/

/-- An attempt without a failure gives what is imported. -/
theorem attempt_eq_zero {old new : α} {x : ImportM α}
    (run : (attempt old x).run st = ((new, 0), st')) : x.run.run st = (some new, st') := by
  rcases attempt_outcome run with ⟨imported, -⟩ | ⟨-, -, impossible⟩
  · exact imported
  · cases impossible

/-- Attempts without a failure import each member of a list. -/
theorem each_forall₂ {step : α → StateM ImportState (α × Nat)} {p : α → α → Prop}
    (grow : ∀ x, Growing (step x))
    (imports : ∀ x y st st', (step x).run st = ((y, 0), st') → st'.symbols.Grows S → p x y)
    {xs ys : List α} (run : (each step xs).run st = ((ys, 0), st')) (reach : st'.symbols.Grows S) :
    List.Forall₂ p xs ys := by
  induction xs generalizing ys st with
  | nil =>
    cases run
    exact .nil
  | cons x xs ih =>
    obtain ⟨⟨y, n⟩, st₁, first⟩ : ∃ p st₁, (step x).run st = (p, st₁) := ⟨_, _, rfl⟩
    obtain ⟨⟨zs, k⟩, st₂, rest⟩ : ∃ p st₂, (each step xs).run st₁ = (p, st₂) := ⟨_, _, rfl⟩
    have whole : (each step (x :: xs)).run st = ((y :: zs, n + k), st₂) :=
      run_bind_eq first (run_bind_eq rest rfl)
    rw [whole] at run
    obtain ⟨same, rfl⟩ := Prod.mk.inj run
    obtain ⟨rfl, none⟩ := Prod.mk.inj same
    obtain ⟨rfl, rfl⟩ := Nat.add_eq_zero_iff.1 none
    have reach₁ := (growing_each grow xs).reaches rest reach
    exact .cons (imports x y st st₁ first reach₁) (ih rest)

/-- An instruction that does not fail is imported. -/
theorem instruction_imports {i i' : Instruction} (small : S.Small)
    (run : (imp.instruction i).run st = ((i', 0), st')) (reach : st'.symbols.Grows S) :
    ImportsInstruction imp.view S i i' := by
  unfold instruction at run
  split at run
  · rename_i symbolic
    obtain ⟨o, st₁, ho, last⟩ := run_bind_eq_some.1 (attempt_eq_zero run)
    obtain ⟨rfl, rfl⟩ := run_pure_eq_some.1 last
    exact ⟨rfl, rfl, .inr ⟨symbolic, operand_denotes symbolic ho reach small⟩⟩
  · rename_i plain
    cases run
    exact ⟨rfl, rfl, .inl ⟨plain, rfl⟩⟩

/-- A region that does not fail is imported. -/
theorem region_imports {r r' : Region} (small : S.Small)
    (run : (imp.region r).run st = ((r', 0), st')) (reach : st'.symbols.Grows S) :
    ImportsRegion imp.view S r r' := by
  unfold region at run
  split at run
  · rename_i none
    cases run
    exact .inl ⟨none, rfl⟩
  · rename_i t typed
    obtain ⟨token, st₁, ht, last⟩ := run_bind_eq_some.1 (attempt_eq_zero run)
    obtain ⟨rfl, rfl⟩ := run_pure_eq_some.1 last
    exact .inr ⟨t, token, typed, typeToken_denotes ht reach small, rfl⟩

/-- Local variables that do not fail are imported, each with its type. -/
theorem localVars_import {vs vs' : List LocalVar} (small : S.Small)
    (run : (vs.mapM imp.localVar).run.run st = (some vs', st')) (reach : st'.symbols.Grows S) :
    List.Forall₂ (ImportsLocal imp.view S) vs vs' := by
  induction vs generalizing vs' st with
  | nil =>
    obtain ⟨rfl, rfl⟩ := run_pure_eq_some.1 run
    exact .nil
  | cons v vs ih =>
    rw [List.mapM_cons] at run
    obtain ⟨v', st₁, hv, run⟩ := run_bind_eq_some.1 run
    obtain ⟨vs', st₂, hs, last⟩ := run_bind_eq_some.1 run
    obtain ⟨rfl, rfl⟩ := run_pure_eq_some.1 last
    obtain ⟨t, st₃, ht, last⟩ := run_bind_eq_some.1 hv
    obtain ⟨rfl, rfl⟩ := run_pure_eq_some.1 last
    have reach₁ := (growing_mapM imp.growing_localVar vs).reaches hs reach
    exact .cons ⟨type_alike ht reach₁ small, rfl⟩ (ih hs)

/-- Signing local variables either gives the row of their signature or gives nothing. -/
theorem signsLocals_of_run {ls : List LocalVar} {o : Option Token} {what : String}
    (run : (do let bytes ← imp.blob what (Blob.locals ls)
               row (·.standAloneSig bytes) : ImportM Token).run.run st = (o, st'))
    (reach : st'.symbols.Grows S) (small : S.Small) : SignsLocals S ls o := by
  rcases encoded : Blob.locals ls with fault | bytes
  · rw [encoded] at run
    cases run
    refine ⟨fun _ written => ?_, fun _ => rfl⟩
    rw [encoded] at written
    cases written
  · rw [encoded] at run
    cases run
    obtain ⟨table, row⟩ := st.symbols.row?_standAloneSig bytes (small.of_grows reach)
    refine ⟨fun written same => ?_, fun missing => absurd ⟨bytes, encoded⟩ missing⟩
    rw [encoded] at same
    cases same
    exact ⟨_, rfl, table, reach.signatures _ _ row⟩

/-- Local variables that are imported without a failure keep their order, and are signed. -/
theorem locals_import {m m' : SyntheticMethod} (small : S.Small)
    (run : (imp.locals m).run st = ((m', 0), st')) (reach : st'.symbols.Grows S) :
    ∃ ls signature, List.Forall₂ (ImportsLocal imp.view S) m.body.locals.toList ls ∧
      (ls ≠ [] → SignsLocals S ls signature) ∧
      m' = { m with
        body := { m.body with locals := ls.toArray }
        localSignature := signature } := by
  unfold locals at run
  obtain ⟨imported | ls, st₁, imported, run⟩ := exists_of_run_bind run
  · cases run
  · dsimp only at run
    split at run
    · rename_i none
      cases run
      exact ⟨ls, m.localSignature, localVars_import small imported reach,
        fun some => absurd (List.isEmpty_iff.1 none) some, rfl⟩
    · obtain ⟨o, st₂, signed, last⟩ := exists_of_run_bind run
      cases last
      have reach₁ := (imp.growing_standAloneSig _ _).reaches signed reach
      exact ⟨ls, o, localVars_import small imported reach₁,
        fun _ => signsLocals_of_run signed reach small, rfl⟩

/-- **If nothing of a method stays symbolic, all that it names is imported.** -/
theorem synthetic_imported {m m' : SyntheticMethod}
    (run : (synthetic view m).run st = ((m', 0), st')) (reach : st'.symbols.Grows S)
    (small : S.Small) : Imports view S m m' := by
  unfold synthetic at run
  obtain ⟨⟨signature, a⟩, st₁, hs, run⟩ := exists_of_run_bind run
  obtain ⟨⟨m₁, b⟩, st₂, hl, run⟩ := exists_of_run_bind run
  obtain ⟨⟨regions, c⟩, st₃, hr, run⟩ := exists_of_run_bind run
  obtain ⟨⟨instructions, d⟩, st₄, hi, run⟩ := exists_of_run_bind run
  obtain ⟨same, rfl⟩ := Prod.mk.inj run
  obtain ⟨rfl, none⟩ := Prod.mk.inj same
  obtain ⟨rfl, rfl, rfl, rfl⟩ : a = 0 ∧ b = 0 ∧ c = 0 ∧ d = 0 := by omega
  have reach₃ := (growing_each (growing_instruction _) _).reaches hi reach
  have reach₂ := (growing_each (growing_region _) _).reaches hr reach₃
  have reach₁ := (growing_locals _ _).reaches hl reach₂
  obtain ⟨ls, localSignature, locals, signed, rfl⟩ := locals_import small hl reach₂
  exact {
    signature := signature_alike (attempt_eq_zero hs) reach₁ small
    paramNames := rfl
    locals := locals
    localSignature := signed
    regions := each_forall₂ (growing_region _) (fun _ _ _ _ run reach =>
      region_imports small run reach) hr reach₃
    instructions := each_forall₂ (growing_instruction _) (fun _ _ _ _ run reach =>
      instruction_imports small run reach) hi reach }

end Importer
end HookImage
