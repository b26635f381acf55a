/-
# Import only adds

Whatever is imported, and whether that succeeds or not, the symbol table keeps all rows it
had (`growing_synthetic`), so what an import says of its tokens stays true under every import
behind it.  What is noted on the way only comes behind the notes there were.
-/

import HookImage.Proofs.Success
import HookImage.Proofs.Symbols.Growth
import HookImage.Rebuild.Import

namespace HookImage
namespace Importer

variable {α β : Type}

/-- Whether a step adds rows and notes and changes none.  The notes are about imports, and what
was noted before has no influence. -/
def Growing (x : StateM ImportState α) : Prop :=
  ∀ symbols : SymbolTable, ∃ (a : α) (symbols' : SymbolTable) (added : Diagnostics),
    symbols.Grows symbols' ∧ (∀ d ∈ added, d.topic = .imports) ∧
      ∀ notes, x.run ⟨symbols, notes⟩ = (a, ⟨symbols', notes ++ added⟩)

/-- After a growing step the table has all rows that it had. -/
theorem Growing.grows {x : StateM ImportState α} (h : Growing x) (st : ImportState) :
    st.symbols.Grows (x.run st).2.symbols := by
  obtain ⟨a, symbols, added, grows, -, run⟩ := h st.symbols
  rw [run st.notes]
  exact grows

/-- Growing steps grow together. -/
theorem Growing.bind {x : StateM ImportState α} {f : α → StateM ImportState β}
    (hx : Growing x) (hf : ∀ a, Growing (f a)) : Growing (x >>= f) := by
  intro symbols
  obtain ⟨a, symbols₁, added, grows, topics, run⟩ := hx symbols
  obtain ⟨b, symbols₂, more, grows', topics', run'⟩ := hf a symbols₁
  refine ⟨b, symbols₂, added ++ more, grows.trans grows', fun d hd => ?_, fun notes => ?_⟩
  · exact (Array.mem_append.1 hd).elim (topics d) (topics' d)
  · rw [StateT.run_bind, run notes, ← Array.append_assoc]
    exact run' _

/-- A step that only gives a result adds no row. -/
theorem Growing.pure (a : α) : Growing (pure a) := fun symbols =>
  ⟨a, symbols, #[], .refl symbols, by simp, fun notes => by rw [Array.append_empty]; rfl⟩

/-! ### Steps that may fail -/

/-- Two imports run one after the other, and the second one only if the first one succeeds. -/
theorem run_bind (x : ImportM α) (f : α → ImportM β) (st : ImportState) :
    (x >>= f).run.run st =
      match x.run.run st with
      | (some a, st') => (f a).run.run st'
      | (none, st') => (none, st') := by
  rw [OptionT.run_bind, Option.elimM, StateT.run_bind]
  rcases x.run.run st with ⟨_ | a, st'⟩ <;> rfl

/-- Two imports succeed exactly if the first one does and the second one does behind it. -/
theorem run_bind_eq_some {x : ImportM α} {f : α → ImportM β} {st st'' : ImportState} {b : β} :
    (x >>= f).run.run st = (some b, st'') ↔
      ∃ a st', x.run.run st = (some a, st') ∧ (f a).run.run st' = (some b, st'') := by
  rw [run_bind]
  rcases x.run.run st with ⟨_ | a, st'⟩
  · exact ⟨fun h => (nomatch h), fun ⟨_, _, h, _⟩ => (nomatch h)⟩
  · exact ⟨fun h => ⟨a, st', rfl, h⟩, fun ⟨_, _, ha, h⟩ => by cases ha; exact h⟩

/-- A failure ends a run where it happens. -/
theorem run_bind_eq_none {x : ImportM α} {f : α → ImportM β} {st st'' : ImportState} :
    (x >>= f).run.run st = (none, st'') ↔ x.run.run st = (none, st'') ∨
      ∃ a st', x.run.run st = (some a, st') ∧ (f a).run.run st' = (none, st'') := by
  rw [run_bind]
  rcases x.run.run st with ⟨_ | a, st'⟩
  · exact ⟨fun h => by cases h; exact .inl rfl, fun h => h.elim (fun h => by cases h; rfl)
      fun ⟨_, _, h, _⟩ => (nomatch h)⟩
  · exact ⟨fun h => .inr ⟨a, st', rfl, h⟩, fun h => h.elim (fun h => (nomatch h))
      fun ⟨_, _, ha, h⟩ => by cases ha; exact h⟩

/-- Giving a result succeeds and changes nothing. -/
theorem run_pure_eq_some {a b : α} {st st' : ImportState} :
    (pure a : ImportM α).run.run st = (some b, st') ↔ a = b ∧ st = st' :=
  ⟨fun h => by cases h; exact ⟨rfl, rfl⟩, fun ⟨ha, hs⟩ => by rw [ha, hs]; rfl⟩

/-- The second step need only add to a state that the first one leads to. -/
theorem growing_bind {x : ImportM α} {f : α → ImportM β} (hx : Growing x.run)
    (hf : ∀ st a st', x.run.run st = (some a, st') → Growing (f a).run) :
    Growing (x >>= f).run := by
  intro symbols
  obtain ⟨_ | a, symbols₁, added, grows, topics, run⟩ := hx symbols
  · refine ⟨none, symbols₁, added, grows, topics, fun notes => ?_⟩
    rw [run_bind, run notes]
  · obtain ⟨b, symbols₂, more, grows', topics', run'⟩ := hf _ a _ (run #[]) symbols₁
    refine ⟨b, symbols₂, added ++ more, grows.trans grows', fun d hd => ?_, fun notes => ?_⟩
    · exact (Array.mem_append.1 hd).elim (topics d) (topics' d)
    · rw [run_bind, run notes, ← Array.append_assoc]
      exact run' _

/-- An import that only gives a result adds no row. -/
theorem growing_pure (a : α) : Growing (pure a : ImportM α).run := .pure (some a)

/-- Noting something adds no row. -/
theorem growing_report (imp : Importer) (message : String) : Growing (imp.report message) :=
  fun symbols =>
    ⟨(), symbols, #[_], .refl symbols, by simp only [List.mem_toArray, List.mem_singleton,
      forall_eq], fun notes => rfl⟩

/-- Noting something and failing adds no row. -/
theorem growing_reportAndFail (imp : Importer) (message : String) :
    Growing (do imp.report message; failure : ImportM α).run :=
  (imp.growing_report message).bind fun _ => .pure none

/-- Adding a row grows if the table does. -/
theorem growing_row {add : SymbolTable → Token × SymbolTable}
    (h : ∀ s : SymbolTable, s.Grows (add s).2) : Growing (row add).run := fun symbols =>
  ⟨some (add symbols).1, (add symbols).2, #[], h symbols, by simp, fun notes => by
    rw [Array.append_empty]; rfl⟩

/-- Adding a row gives its token and the table with it. -/
theorem row_eq_some {add : SymbolTable → Token × SymbolTable} {t : Token} {st st' : ImportState}
    (h : (row add).run.run st = (some t, st')) :
    t = (add st.symbols).1 ∧ st'.symbols = (add st.symbols).2 := by
  cases h
  exact ⟨rfl, rfl⟩

/-! ### Types -/

/-- Two searches run one after the other, and the second one only if the first one succeeds. -/
theorem run_search_bind (x : SearchM α) (f : α → SearchM β) (s : SymbolTable) :
    (x >>= f).run.run s =
      match x.run.run s with
      | (.ok a, s') => (f a).run.run s'
      | (.error e, s') => (.error e, s') := by
  rw [ExceptT.run_bind, StateT.run_bind]
  rcases x.run.run s with ⟨_ | a, s'⟩ <;> rfl

/-- Searching within a scope asks the table for the row. -/
theorem run_within (scope : Token) (t : TypeName) (s : SymbolTable) :
    (within scope t).run.run s =
      match s.typeRef ⟨scope, t.nspace, t.name⟩ with
      | .ok (token, s') => (.ok token, s')
      | .error e => (.error e, s) := by
  unfold within
  rw [run_search_bind]
  show StateT.run (ExceptT.run (liftM (s.typeRef ⟨scope, t.nspace, t.name⟩) >>= _)) s = _
  rw [run_search_bind]
  rcases s.typeRef ⟨scope, t.nspace, t.name⟩ with e | ⟨token, s'⟩ <;> rfl

/-- Searching within a scope only adds the row of the type. -/
theorem grows_within (scope : Token) (t : TypeName) (s : SymbolTable) :
    s.Grows ((within scope t).run.run s).2 := by
  rw [run_within]
  rcases h : s.typeRef ⟨scope, t.nspace, t.name⟩ with e | ⟨token, s'⟩
  · exact .refl s
  · exact SymbolTable.grows_typeRef h

/-- A search that goes on with what another one finds. -/
theorem grows_search_bind {x : SearchM α} {f : α → SearchM β} {s : SymbolTable}
    (hx : s.Grows (x.run.run s).2) (hf : ∀ a (s' : SymbolTable), s'.Grows ((f a).run.run s').2) :
    s.Grows ((x >>= f).run.run s).2 := by
  rw [run_search_bind]
  rcases h : x.run.run s with ⟨e | a, s'⟩
  · rw [h] at hx
    exact hx
  · rw [h] at hx
    exact hx.trans (hf a s')

/-- A search through the module only adds rows, even if it fails. -/
theorem grows_throughModule (view : HostView) (t : TypeName) (outer : List TypeName)
    (s : SymbolTable) : s.Grows ((throughModule view t outer).run.run s).2 := by
  induction outer generalizing t with
  | nil =>
    unfold throughModule
    split
    · exact .refl s
    · split
      · exact .refl s
      · rename_i a _
        exact grows_search_bind (s.grows_assemblyRef a) fun scope => grows_within scope t
  | cons o os ih => exact grows_search_bind (ih o) fun scope => grows_within scope t

/-- A search by name only adds rows, even if it fails. -/
theorem grows_byName (view : HostView) (r : TypeRef) (s : SymbolTable) :
    s.Grows ((byName view r).run.run s).2 := by
  unfold byName
  split
  · exact .refl s
  · rename_i t _
    refine grows_search_bind ?_ fun found => grows_throughModule view found.leaf found.enclosing
    rcases view.typeReference t.id with e | found <;> exact .refl s

/-- A type is looked up by its name only if the search through its module fails. -/
theorem run_locate (view : HostView) (r : TypeRef) (s : SymbolTable) :
    (locate view r).run s =
      match (throughModule view r.leaf r.enclosing).run.run s with
      | (.ok token, s') => (.ok token, s')
      | (.error first, s') =>
        match (byName view r).run.run s' with
        | (.ok token, s'') => (.ok token, s'')
        | (.error second, s'') => (.error (first, second), s'') := by
  unfold locate
  rw [StateT.run_bind]
  rcases (throughModule view r.leaf r.enclosing).run.run s with ⟨first | token, s'⟩
  · dsimp only
    show StateT.run (_ >>= _) s' = _
    rw [StateT.run_bind]
    rcases (byName view r).run.run s' with ⟨second | token, s''⟩ <;> rfl
  · rfl

/-- Locating a type only adds rows, even if it fails. -/
theorem grows_locate (view : HostView) (r : TypeRef) (s : SymbolTable) :
    s.Grows ((locate view r).run s).2 := by
  have grows := grows_throughModule view r.leaf r.enclosing s
  rw [run_locate]
  rcases h : (throughModule view r.leaf r.enclosing).run.run s with ⟨first | token, s'⟩
  · have more := grows_byName view r s'
    rw [h] at grows
    dsimp only
    rcases k : (byName view r).run.run s' with ⟨second | token, s''⟩ <;>
    · rw [k] at more
      exact grows.trans more
  · rw [h] at grows
    exact grows

/-- Importing a reference is locating its type, with a note if that fails. -/
theorem run_reference (imp : Importer) (r : TypeRef) (st : ImportState) :
    (imp.reference r).run.run st =
      match (locate imp.view r).run st.symbols with
      | (.ok token, symbols) => (some token, { st with symbols })
      | (.error (first, second), symbols) =>
        (none, ((imp.report
          s!"failed to import {r.fullName}: {first.message}; {second.message}").run
            { st with symbols }).2) := by
  unfold reference
  rw [run_bind]
  have run : (search (locate imp.view r)).run.run st =
      (some ((locate imp.view r).run st.symbols).1,
        { st with symbols := ((locate imp.view r).run st.symbols).2 }) := rfl
  rw [run]
  rcases (locate imp.view r).run st.symbols with ⟨⟨first, second⟩ | token, symbols⟩ <;> rfl

/-- Importing a reference only adds rows. -/
theorem growing_reference (imp : Importer) (r : TypeRef) : Growing (imp.reference r).run := by
  intro symbols
  have grows := grows_locate imp.view r symbols
  rcases h : (locate imp.view r).run symbols with ⟨⟨first, second⟩ | token, symbols'⟩
  · rw [h] at grows
    obtain ⟨_, _, added, more, topics, run⟩ := imp.growing_report
      s!"failed to import {r.fullName}: {first.message}; {second.message}" symbols'
    refine ⟨none, _, added, grows.trans more, topics, fun notes => ?_⟩
    rw [run_reference]
    simp only [h, run]
  · rw [h] at grows
    refine ⟨some token, symbols', #[], grows, by simp, fun notes => ?_⟩
    rw [run_reference, Array.append_empty]
    simp only [h]

/-- Importing a named type only adds rows. -/
theorem growing_handle (imp : Importer) (h : TypeHandle) : Growing (imp.handle h).run := by
  cases h with
  | token t => exact growing_pure _
  | reference r => exact growing_bind (imp.growing_reference r) fun _ _ _ _ => growing_pure _

mutual

/-- Importing a type only adds rows. -/
theorem growing_type (imp : Importer) (t : TypeSig) : Growing (imp.type t).run := by
  cases t with
  | reference h => exact growing_bind (imp.growing_handle h) fun _ _ _ _ => growing_pure _
  | value h => exact growing_bind (imp.growing_handle h) fun _ _ _ _ => growing_pure _
  | generic isValue definition arguments =>
    exact growing_bind (imp.growing_handle definition) fun _ _ _ _ =>
      growing_bind (growing_types imp arguments) fun _ _ _ _ => growing_pure _
  | array e => exact growing_bind (growing_type imp e) fun _ _ _ _ => growing_pure _
  | byRef e => exact growing_bind (growing_type imp e) fun _ _ _ _ => growing_pure _
  | pointer e => exact growing_bind (growing_type imp e) fun _ _ _ _ => growing_pure _
  | primitive p => exact growing_pure _
  | typeParam n => exact growing_pure _
  | methodParam n => exact growing_pure _

/-- Importing types only adds rows. -/
theorem growing_types (imp : Importer) (ts : List TypeSig) : Growing (imp.types ts).run := by
  cases ts with
  | nil => exact growing_pure _
  | cons t ts =>
    exact growing_bind (growing_type imp t) fun _ _ _ _ =>
      growing_bind (growing_types imp ts) fun _ _ _ _ => growing_pure _

end

/-- Importing a signature only adds rows. -/
theorem growing_signature (imp : Importer) (s : MethodSig) : Growing (imp.signature s).run :=
  growing_bind (imp.growing_type s.result) fun _ _ _ _ =>
    growing_bind (imp.growing_types s.params) fun _ _ _ _ => growing_pure _

/-! ### Members -/

/-- Encoding adds no row. -/
theorem growing_blob (imp : Importer) (what : String) (x : Except Malformation Bytes) :
    Growing (imp.blob what x).run := by
  cases x with
  | ok bytes => exact growing_pure _
  | error e => exact imp.growing_reportAndFail _

/-- Importing a type to a token only adds rows. -/
theorem growing_typeToken (imp : Importer) (t : TypeSig) : Growing (imp.typeToken t).run := by
  refine growing_bind (imp.growing_type t) fun _ imported _ _ => ?_
  split
  · exact growing_pure _
  · exact growing_bind (imp.growing_blob _ _) fun _ bytes _ _ =>
      growing_row fun s => s.grows_typeSpec bytes

/-- Importing the type that declares a member only adds rows. -/
theorem growing_parent (imp : Importer) (declaringType : Option TypeSig) (member : String) :
    Growing (imp.parent declaringType member).run := by
  cases declaringType with
  | some t => exact imp.growing_typeToken t
  | none => exact imp.growing_reportAndFail _

/-- Importing a method only adds rows. -/
theorem growing_method (imp : Importer) (m : MethodRef) : Growing (imp.method m).run := by
  refine growing_bind (imp.growing_parent _ _) fun _ parent _ _ =>
    growing_bind (imp.growing_signature _) fun _ signature _ _ =>
      growing_bind (imp.growing_blob _ _) fun _ bytes _ _ =>
        growing_bind (growing_row fun s => s.grows_memberRef _) fun _ member _ found => ?_
  split
  · exact growing_pure _
  · refine growing_bind (imp.growing_types _) fun _ _ _ _ =>
      growing_bind (imp.growing_blob _ _) fun _ _ _ _ =>
        growing_row fun s => s.grows_methodSpec ?_
    rw [(row_eq_some found).1]
    exact Token.table?_ofRow _ _

/-- Importing a field only adds rows. -/
theorem growing_field (imp : Importer) (f : FieldRef) : Growing (imp.field f).run :=
  growing_bind (imp.growing_parent _ _) fun _ _ _ _ =>
    growing_bind (imp.growing_type _) fun _ _ _ _ =>
      growing_bind (imp.growing_blob _ _) fun _ _ _ _ =>
        growing_row fun s => s.grows_memberRef _

/-- Adding the row of a signature only adds rows. -/
theorem growing_standAloneSig (imp : Importer) (what : String) (x : Except Malformation Bytes) :
    Growing (do let bytes ← imp.blob what x
                row (·.standAloneSig bytes) : ImportM Token).run :=
  growing_bind (imp.growing_blob _ _) fun _ bytes _ _ =>
    growing_row fun s => s.grows_standAloneSig bytes

/-- Importing the signature of an indirect call only adds rows. -/
theorem growing_callSite (imp : Importer) (s : MethodSig) :
    Growing (imp.operand (.callSite s)).run :=
  growing_bind (imp.growing_signature s) fun _ _ _ _ =>
    growing_bind (imp.growing_blob _ _) fun _ bytes _ _ =>
      growing_bind (growing_row fun s => s.grows_standAloneSig bytes) fun _ _ _ _ =>
        growing_pure _

/-- **Importing an operand only adds rows.** -/
theorem growing_operand (imp : Importer) (o : Operand) : Growing (imp.operand o).run := by
  cases o with
  | type t => exact growing_bind (imp.growing_typeToken t) fun _ _ _ _ => growing_pure _
  | method m => exact growing_bind (imp.growing_method m) fun _ _ _ _ => growing_pure _
  | field f => exact growing_bind (imp.growing_field f) fun _ _ _ _ => growing_pure _
  | callSite s => exact imp.growing_callSite s
  | _ => exact growing_pure _

/-! ### Methods -/

/-- An attempt grows as what is attempted does. -/
theorem growing_attempt {old : α} {x : ImportM α} (h : Growing x.run) :
    Growing (attempt old x) := by
  refine h.bind fun new => ?_
  cases new <;> exact .pure _

/-- Importing a local variable only adds rows. -/
theorem growing_localVar (imp : Importer) (v : LocalVar) : Growing (imp.localVar v).run :=
  growing_bind (imp.growing_type v.type) fun _ _ _ _ => growing_pure _

/-- Importing the members of a list only adds rows if each of them does. -/
theorem growing_mapM {f : α → ImportM β} (h : ∀ x, Growing (f x).run) (xs : List α) :
    Growing (xs.mapM f).run := by
  induction xs with
  | nil => exact growing_pure _
  | cons x xs ih =>
    rw [List.mapM_cons]
    exact growing_bind (h x) fun _ _ _ _ => growing_bind ih fun _ _ _ _ => growing_pure _

/-- Importing local variables only adds rows. -/
theorem growing_locals (imp : Importer) (m : SyntheticMethod) : Growing (imp.locals m) := by
  refine (growing_mapM imp.growing_localVar m.body.locals.toList).bind fun locals => ?_
  cases locals with
  | none => exact .pure _
  | some locals =>
    dsimp only
    split
    · exact .pure _
    · exact (imp.growing_standAloneSig _ _).bind fun _ => .pure _

/-- Importing a region only adds rows. -/
theorem growing_region (imp : Importer) (r : Region) : Growing (imp.region r) := by
  unfold region
  split
  · exact .pure _
  · exact growing_attempt (growing_bind (imp.growing_typeToken _) fun _ _ _ _ => growing_pure _)

/-- Importing an instruction only adds rows. -/
theorem growing_instruction (imp : Importer) (i : Instruction) :
    Growing (imp.instruction i) := by
  unfold instruction
  split
  · exact growing_attempt (growing_bind (imp.growing_operand _) fun _ _ _ _ => growing_pure _)
  · exact .pure _

/-- Attempting the members of a list only adds rows if each attempt does. -/
theorem growing_each {step : α → StateM ImportState (α × Nat)} (h : ∀ x, Growing (step x))
    (xs : List α) : Growing (each step xs) := by
  induction xs with
  | nil => exact .pure _
  | cons x xs ih => exact (h x).bind fun _ => ih.bind fun _ => .pure _

/-- **Importing a method only adds rows.** -/
theorem growing_synthetic (view : HostView) (m : SyntheticMethod) : Growing (synthetic view m) := by
  refine (growing_attempt (growing_signature _ _)).bind fun _ => ?_
  refine (growing_locals _ _).bind fun _ => ?_
  refine (growing_each (growing_region _) _).bind fun _ => ?_
  exact (growing_each (growing_instruction _) _).bind fun _ => .pure _

/-! ### Imports one after the other -/

/-- Something to import. -/
inductive Request where
  | type (imp : Importer) (t : TypeSig)
  | operand (imp : Importer) (o : Operand)
  | method (view : HostView) (m : SyntheticMethod)

/-- What an import leaves behind, whether it succeeds or not. -/
def Request.serve (st : ImportState) : Request → ImportState
  | type imp t => ((imp.type t).run.run st).2
  | operand imp o => ((imp.operand o).run.run st).2
  | method view m => ((synthetic view m).run st).2

/-- What imports leave behind, one after the other. -/
def serveAll (st : ImportState) (requests : List Request) : ImportState :=
  requests.foldl Request.serve st

/-- **Imports one after the other only add rows.** -/
theorem grows_serveAll (st : ImportState) (requests : List Request) :
    st.symbols.Grows (serveAll st requests).symbols := by
  refine List.foldlRecOn (motive := fun later => st.symbols.Grows later.symbols) requests
    Request.serve (.refl _) fun later grown request _ => grown.trans ?_
  cases request with
  | type imp t => exact (imp.growing_type t).grows later
  | operand imp o => exact (imp.growing_operand o).grows later
  | method view m => exact (growing_synthetic view m).grows later

end Importer
end HookImage
