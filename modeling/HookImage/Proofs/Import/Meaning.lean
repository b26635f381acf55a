/-
# Import keeps the meaning

An imported operand is read back from its token by following the rows: an instantiation leads
to its method, a member to its declaring type, a blob to the types in it, and a type row to
the rows around it and to an assembly (`operand?`).  What is read is the operand again, with
rows in place of names, and the rows say the names (`operand_readable`).
-/

import Mathlib
import HookImage.Proofs.Import.Rows
import HookImage.Proofs.Signature.ReadBack

namespace HookImage

/-! ### Operands from their tokens -/

namespace SymbolTable

/-- The type that a token stands for. -/
def type? (s : SymbolTable) (t : Token) : Option TypeSig :=
  match t.table? with
  | some .typeRef => (s.types.row? t.row).map fun _ => .reference (.token t)
  | some .typeSpec => (s.specs.row? t.row).bind (SignatureReader.whole SignatureReader.type)
  | _ => none

/-- The method of a member row. -/
def methodOf? (s : SymbolTable) (row : MemberRow) : Option MethodRef := do
  let declaringType ← s.type? row.parent
  let signature ← SignatureReader.whole SignatureReader.method row.signature
  return { declaringType := some declaringType, name := row.name, signature }

/-- The field of a member row. -/
def fieldOf? (s : SymbolTable) (row : MemberRow) : Option FieldRef := do
  let declaringType ← s.type? row.parent
  let fieldType ← SignatureReader.whole SignatureReader.field row.signature
  return { declaringType := some declaringType, name := row.name, fieldType }

/-- What a token stands for as an operand.  A member is a field or a method by the first byte
of its signature. -/
def operand? (s : SymbolTable) (t : Token) : Option Operand :=
  match t.table? with
  | some .typeRef | some .typeSpec => (s.type? t).map .type
  | some .memberRef => do
    let row ← s.member? t
    if row.signature.head? = some 0x06 then return .field (← s.fieldOf? row)
    else return .method (← s.methodOf? row)
  | some .methodSpec => do
    let row ← s.instantiation? t
    let m ← s.methodOf? (← s.member? row.method)
    let genericArguments ← SignatureReader.whole SignatureReader.instantiation row.arguments
    return .method { m with genericArguments }
  | some .standAloneSig => do
    let blob ← s.signature? t
    return .callSite (← SignatureReader.whole SignatureReader.method blob)
  | _ => none

end SymbolTable

/-! ### Operands that differ in their names alone -/

/-- A type as a token tells it that stands for the type alone: a plain type is no longer marked
as a value type. -/
def TypeSig.unmarked : TypeSig → TypeSig
  | value h => reference h
  | t => t

/-- Whether one operand is another with its names replaced by such that `R` relates to them. -/
inductive Operand.Alike (R : TypeHandle → TypeHandle → Prop) : Operand → Operand → Prop
  | type {t t' : TypeSig} (type : t.unmarked.Alike R t') : Alike R (.type t) (.type t')
  | method {m m' : MethodRef} {d d' : TypeSig} (declared : m.declaringType = some d)
    (declared' : m'.declaringType = some d') (parent : d.unmarked.Alike R d')
    (name : m'.name = m.name) (signature : m.signature.Alike R m'.signature)
    (arguments : List.Forall₂ (TypeSig.Alike R) m.genericArguments m'.genericArguments) :
    Alike R (.method m) (.method m')
  | field {f f' : FieldRef} {d d' : TypeSig} (declared : f.declaringType = some d)
    (declared' : f'.declaringType = some d') (parent : d.unmarked.Alike R d')
    (name : f'.name = f.name) (type : f.fieldType.Alike R f'.fieldType) :
    Alike R (.field f) (.field f')
  | callSite {s s' : MethodSig} (signature : s.Alike R s') : Alike R (.callSite s) (.callSite s')

/-! ### Operands that can be imported -/

/-- Whether a type names only types of known modules, with numbers and lists that have
compressed forms. -/
structure TypeSig.Importable (view : HostView) (t : TypeSig) : Prop where
  known : ∀ h ∈ t.handles, Importer.Known view h
  small : t.Compressible

/-- Whether a method signature names only types of known modules, with numbers and lists that
have compressed forms. -/
structure MethodSig.Importable (view : HostView) (s : MethodSig) : Prop where
  genericCount : s.genericCount.toNat < 0x20000000
  length : s.params.length < 0x20000000
  result : s.result.Importable view
  params : ∀ t ∈ s.params, t.Importable view

/-- Whether a metadata operand has a declaring type where it needs one, names only types of
known modules, and has numbers and lists with compressed forms. -/
inductive Operand.Importable (view : HostView) : Operand → Prop
  | type {t : TypeSig} (type : t.Importable view) : Importable view (.type t)
  | method {m : MethodRef} {d : TypeSig} (declared : m.declaringType = some d)
    (parent : d.Importable view) (signature : m.signature.Importable view)
    (length : m.genericArguments.length < 0x20000000)
    (arguments : ∀ t ∈ m.genericArguments, t.Importable view) : Importable view (.method m)
  | field {f : FieldRef} {d : TypeSig} (declared : f.declaringType = some d)
    (parent : d.Importable view) (type : f.fieldType.Importable view) : Importable view (.field f)
  | callSite {s : MethodSig} (signature : s.Importable view) : Importable view (.callSite s)

/-- The numbers and lists of an importable signature have compressed forms. -/
theorem MethodSig.Importable.small {view : HostView} {s : MethodSig} (h : s.Importable view) :
    s.Compressible :=
  ⟨h.genericCount, h.length, h.result.small, fun t ht => (h.params t ht).small⟩

/-- The types that an importable signature names are known. -/
theorem MethodSig.Importable.known {view : HostView} {s : MethodSig} (h : s.Importable view) :
    ∀ n ∈ s.handles, Importer.Known view n := by
  rw [MethodSig.handles, List.forall_mem_append, List.forall_mem_flatMap]
  exact ⟨h.result.known, fun t ht => (h.params t ht).known⟩

namespace Importer

variable {imp : Importer} {view : HostView} {S : SymbolTable} {st st' : ImportState} {token : Token}

/-- Whether the rows of a token say the names of a type and an assembly with the name, up to
the case of its letters, of the module in which the outermost type around it lies. -/
def Names (view : HostView) (s : SymbolTable) : TypeHandle → TypeHandle → Prop
  | .reference r, .token t => ∃ a, view.home? r = some a ∧ s.IsTypeRow t ∧ s.Tells t r a
  | _, _ => False

/-- What stands for a known type names it. -/
theorem Renders.names {h h' : TypeHandle} (renders : Renders view S h h') (known : Known view h) :
    Names view S h h' := by
  cases h with
  | token t => exact known.elim
  | reference r =>
    obtain ⟨a, home⟩ := known
    cases h' with
    | reference _ => exact renders.elim
    | token t => exact ⟨a, home, renders.1, renders.2 a home⟩

/-- Where all types are known, an imported type names what it was imported from. -/
theorem alike_names {t t' : TypeSig} (alike : t.Alike (Renders view S) t')
    (known : ∀ h ∈ t.handles, Known view h) : t.Alike (Names view S) t' :=
  alike.mono fun h hh _ renders => renders.names (known h hh)

/-- Where all types are known, imported types name what they were imported from. -/
theorem types_alike_names {ts ts' : List TypeSig}
    (alike : List.Forall₂ (TypeSig.Alike (Renders view S)) ts ts')
    (known : ∀ t ∈ ts, ∀ h ∈ t.handles, Known view h) :
    List.Forall₂ (TypeSig.Alike (Names view S)) ts ts' :=
  forall₂_of_mem alike fun t ht _ h => alike_names h (known t ht)

/-- An imported signature names what it was imported from. -/
theorem signature_alike_names {s s' : MethodSig} (alike : s.Alike (Renders view S) s')
    (importable : s.Importable view) : s.Alike (Names view S) s' :=
  ⟨alike.hasThis, alike.explicitThis, alike.convention, alike.genericCount,
    alike_names alike.result importable.result.known,
    types_alike_names alike.params fun t ht => (importable.params t ht).known⟩

/-! ### Reading back -/

/-- A type of the same form has a compressed form too. -/
theorem compressible_of_alike {R : TypeHandle → TypeHandle → Prop} {t t' : TypeSig}
    (alike : t.Alike R t') (small : t.Compressible) : t'.Compressible := by
  obtain ⟨lists, numbers⟩ := alike.lists_numbers
  exact ⟨lists ▸ small.lists, numbers ▸ small.numbers⟩

/-- Types of the same forms have compressed forms too. -/
theorem types_compressible {R : TypeHandle → TypeHandle → Prop} {ts ts' : List TypeSig}
    (alike : List.Forall₂ (TypeSig.Alike R) ts ts') (small : ∀ t ∈ ts, t.Compressible) :
    ∀ t' ∈ ts', t'.Compressible := by
  intro t' ht
  obtain ⟨t, ht, alike⟩ := exists_mem_of_forall₂ alike ht
  exact compressible_of_alike alike (small t ht)

/-- A signature of the same form has a compressed form too. -/
theorem signature_compressible {R : TypeHandle → TypeHandle → Prop} {s s' : MethodSig}
    (alike : s.Alike R s') (small : s.Compressible) : s'.Compressible :=
  ⟨alike.genericCount ▸ small.genericCount, alike.params.length_eq ▸ small.length,
    compressible_of_alike alike.result small.result,
    types_compressible alike.params small.params⟩

/-- **A type is read back** from the token that stands for it. -/
theorem type?_of_denotesType {t : TypeSig} (importable : t.Importable view)
    (denotes : DenotesType view S t token) :
    ∃ t', S.type? token = some t' ∧ t.unmarked.Alike (Names view S) t' := by
  obtain ⟨t', alike, stands⟩ := denotes
  have named := alike_names alike importable.known
  rcases stands with plain | ⟨constructed, table, bytes, encoded, row⟩
  · have read {h h' : TypeHandle} (same : h' = .token token) (names : Names view S h h') :
        ∃ t', S.type? token = some t' ∧ (TypeSig.reference h).Alike (Names view S) t' := by
      subst same
      refine ⟨.reference (.token token), ?_, .reference names⟩
      cases h with
      | token t => exact names.elim
      | reference r =>
        obtain ⟨_, _, ⟨table, row, hr⟩, _⟩ := names
        rw [SymbolTable.type?, table]
        simp only [hr, Option.map_some]
    cases named with
    | @reference h h' names =>
      cases h' with
      | token t => exact read (congrArg _ (Option.some.inj plain)) names
      | reference r => exact nomatch plain
    | @value h h' names =>
      cases h' with
      | token t => exact read (congrArg _ (Option.some.inj plain)) names
      | reference r => exact nomatch plain
    | _ => exact nomatch plain
  · refine ⟨t', ?_, ?_⟩
    · rw [SymbolTable.type?, table]
      simp only [row, Option.bind_some]
      exact SignatureReader.whole_type encoded (compressible_of_alike alike importable.small)
    · -- A plain type would stand for itself, so the type is not plain and keeps its form.
      cases t with
      | value h =>
        cases named with
        | @value _ h' names =>
          cases h' with
          | token t => exact nomatch constructed
          | reference r => cases h <;> exact names.elim
      | _ => exact named

/-- **A method is read back** from its row. -/
theorem methodOf?_of_denotesMethod {m : MethodRef} {d : TypeSig}
    (declared : m.declaringType = some d) (parent : d.Importable view)
    (signature : m.signature.Importable view) (denotes : DenotesMethod view S m token) :
    ∃ row d' signature', token.table? = some .memberRef ∧ S.member? token = some row ∧
      row.signature.head? ≠ some 0x06 ∧
      S.methodOf? row =
        some { declaringType := some d', name := m.name, signature := signature' } ∧
      d.unmarked.Alike (Names view S) d' ∧ m.signature.Alike (Names view S) signature' := by
  obtain @⟨d₁, owner, signature', bytes, declared₁, denotes, alike, encoded, table, row⟩ := denotes
  obtain rfl : d₁ = d := Option.some.inj (declared₁.symm.trans declared)
  obtain ⟨d', read, same⟩ := type?_of_denotesType parent denotes
  have found : S.member? token = some ⟨owner, m.name, bytes⟩ := by
    rw [SymbolTable.member?, table, row]
    rfl
  have blob := SignatureReader.whole_method encoded (signature_compressible alike signature.small)
  refine ⟨_, d', signature', table, found, ?_, ?_, same, signature_alike_names alike signature⟩
  · rw [Blob.head?_method encoded]
    exact fun h => Blob.methodHeader_ne (by decide) (Option.some.inj h)
  · rw [SymbolTable.methodOf?, read, Option.bind_eq_bind, Option.bind_some, blob]
    rfl

/-- **An operand is read back** from the token of its row. -/
theorem operand?_of_denotes {o : Operand} (importable : o.Importable view)
    (denotes : Denotes view S o token) :
    ∃ o', S.operand? token = some o' ∧ o.Alike (Names view S) o' := by
  cases importable with
  | @type t importable =>
    cases denotes with
    | type denotes =>
      obtain ⟨t', read, same⟩ := type?_of_denotesType importable denotes
      refine ⟨.type t', ?_, .type same⟩
      rcases denotes.exists_row fun h hh => (importable.known h hh).symbolic with
        ⟨table, _⟩ | ⟨table, _⟩
      · rw [SymbolTable.operand?, table, read]
        rfl
      · rw [SymbolTable.operand?, table, read]
        rfl
  | @method m d declared parent signature length arguments =>
    cases denotes with
    | method plain denotes =>
      obtain ⟨row, d', signature', table, found, notField, read, same, alike⟩ :=
        methodOf?_of_denotesMethod declared parent signature denotes
      refine ⟨.method { declaringType := some d', name := m.name, signature := signature' }, ?_,
        .method declared rfl same rfl alike (by rw [plain]; exact .nil)⟩
      rw [SymbolTable.operand?, table]
      simp only [found, Option.bind_eq_bind, Option.bind_some, if_neg notField, read]
      rfl
    | @instantiation _ definition _ ts' bytes _ denotes alikes encoded table row =>
      obtain ⟨memberRow, d', signature', _, found, _, read, same, alike⟩ :=
        methodOf?_of_denotesMethod declared parent signature denotes
      have instantiated : S.instantiation? token = some ⟨definition, bytes⟩ := by
        rw [SymbolTable.instantiation?, table, row]
        rfl
      have blob := SignatureReader.whole_instantiation encoded (alikes.length_eq ▸ length)
        (types_compressible alikes fun t ht => (arguments t ht).small)
      refine ⟨.method { declaringType := some d', name := m.name, signature := signature'
                        genericArguments := ts' }, ?_,
        .method declared rfl same rfl alike
          (types_alike_names alikes fun t ht => (arguments t ht).known)⟩
      rw [SymbolTable.operand?, table]
      simp only [instantiated, found, Option.bind_eq_bind, Option.bind_some, read, blob]
      rfl
  | @field f d declared parent type =>
    cases denotes with
    | @field _ d₁ t' owner _ bytes declared₁ denotes alike encoded row =>
      obtain rfl : d₁ = d := Option.some.inj (declared₁.symm.trans declared)
      obtain ⟨d', read, same⟩ := type?_of_denotesType parent denotes
      have found : S.member? token = some ⟨owner, f.name, bytes⟩ := by
        rw [SymbolTable.member?, row.1, row.2]
        rfl
      have blob := SignatureReader.whole_field encoded (compressible_of_alike alike type.small)
      refine ⟨.field { declaringType := some d', name := f.name, fieldType := t' }, ?_,
        .field declared rfl same rfl (alike_names alike type.known)⟩
      rw [SymbolTable.operand?, row.1]
      simp only [found, Option.bind_eq_bind, Option.bind_some, Blob.head?_field encoded]
      rw [if_pos (show some Blob.fieldHeader = some 0x06 from rfl), SymbolTable.fieldOf?]
      simp only [read, Option.bind_eq_bind, Option.bind_some, blob]
      rfl
  | @callSite s signature =>
    cases denotes with
    | @callSite _ signature' _ bytes alike encoded table row =>
      have found : S.signature? token = some bytes := by
        rw [SymbolTable.signature?, table, row]
        rfl
      have blob :=
        SignatureReader.whole_method encoded (signature_compressible alike signature.small)
      refine ⟨.callSite signature', ?_, .callSite (signature_alike_names alike signature)⟩
      rw [SymbolTable.operand?, table]
      simp only [found, Option.bind_eq_bind, Option.bind_some, blob]
      rfl

/-! ### Nothing fails -/

/-- Encoding fails only for what has no byte form. -/
theorem blob_eq_none {what : String} {x : Except Malformation Bytes}
    (run : (imp.blob what x).run.run st = (none, st')) : ¬∃ bytes, x = .ok bytes := by
  rintro ⟨bytes, rfl⟩
  exact nomatch run

/-- The type that an import makes of a type has a byte form. -/
theorem exists_type_of_alike {t t' : TypeSig} (alike : t.Alike (Renders view S) t')
    (importable : t.Importable view) : ∃ bytes, Blob.type t' = .ok bytes :=
  (Blob.exists_type_eq_ok t').2
    ⟨written_of_alike alike fun h hh => (importable.known h hh).symbolic,
      (compressible_of_alike alike importable.small).lists_lt⟩

/-- **An importable type is imported.** -/
theorem typeToken_ne_none {t : TypeSig} (importable : t.Importable imp.view)
    (run : (imp.typeToken t).run.run st = (none, st')) (reach : st'.symbols.Grows S)
    (small : S.Small) : False := by
  rcases run_bind_eq_none.1 run with run | ⟨t', st₁, ht, run⟩
  · exact type_ne_none importable.known run reach small
  · split at run
    · exact nomatch run
    · rcases run_bind_eq_none.1 run with run | ⟨_, _, _, last⟩
      · have reach₁ := (imp.growing_blob _ _).reaches run reach
        exact blob_eq_none run (exists_type_of_alike (type_alike ht reach₁ small) importable)
      · exact nomatch last

/-- Imported types have byte forms. -/
theorem exists_types_of_alike {ts ts' : List TypeSig}
    (alike : List.Forall₂ (TypeSig.Alike (Renders view S)) ts ts')
    (importable : ∀ t ∈ ts, t.Importable view) : ∀ t' ∈ ts', ∃ bytes, Blob.type t' = .ok bytes := by
  intro t' ht
  obtain ⟨t, ht, alike⟩ := exists_mem_of_forall₂ alike ht
  exact exists_type_of_alike alike (importable t ht)

/-- The signature that an import makes of a signature has a byte form. -/
theorem exists_method_of_alike {s s' : MethodSig} (alike : s.Alike (Renders view S) s')
    (importable : s.Importable view) : ∃ bytes, Blob.method s' = .ok bytes := by
  have length : s'.params.length < 0x100000000 :=
    Nat.lt_trans (alike.params.length_eq ▸ importable.length) (by decide)
  unfold Blob.method
  rw [exists_bind_eq_ok fun _ => exists_bind_eq_ok fun _ => exists_map_eq_ok,
    Blob.exists_count_eq_ok, Blob.exists_types_eq_ok]
  exact ⟨length, exists_type_of_alike alike.result importable.result,
    exists_types_of_alike alike.params importable.params⟩

/-- Imported type arguments have a byte form if their number has a compressed form. -/
theorem exists_instantiation_of_alike {ts ts' : List TypeSig}
    (alike : List.Forall₂ (TypeSig.Alike (Renders view S)) ts ts')
    (length : ts.length < 0x20000000) (importable : ∀ t ∈ ts, t.Importable view) :
    ∃ bytes, Blob.instantiation ts' = .ok bytes := by
  have length : ts'.length < 0x100000000 :=
    Nat.lt_trans (alike.length_eq ▸ length) (by decide)
  rw [Blob.instantiation, exists_bind_eq_ok fun _ => exists_map_eq_ok, Blob.exists_count_eq_ok,
    Blob.exists_types_eq_ok]
  exact ⟨length, exists_types_of_alike alike importable⟩

/-- An importable declaring type is imported. -/
theorem parent_ne_none {declaringType : Option TypeSig} {d : TypeSig} {member : String}
    (declared : declaringType = some d) (importable : d.Importable imp.view)
    (run : (imp.parent declaringType member).run.run st = (none, st'))
    (reach : st'.symbols.Grows S) (small : S.Small) : False := by
  subst declared
  exact typeToken_ne_none importable run reach small

/-- **An importable method is imported.** -/
theorem method_ne_none {m : MethodRef} (importable : (Operand.method m).Importable imp.view)
    (run : (imp.method m).run.run st = (none, st')) (reach : st'.symbols.Grows S)
    (small : S.Small) : False := by
  cases importable with
  | method declared parent signature length arguments =>
    rcases run_bind_eq_none.1 run with run | ⟨_, st₁, _, run⟩
    · exact parent_ne_none declared parent run reach small
    rcases run_bind_eq_none.1 run with run | ⟨_, st₂, hs, run⟩
    · exact signature_ne_none signature.known run reach small
    rcases run_bind_eq_none.1 run with run | ⟨_, st₃, _, run⟩
    · have reach₂ := (imp.growing_blob _ _).reaches run reach
      exact blob_eq_none run
        (exists_method_of_alike (signature_alike hs reach₂ small) signature)
    rcases run_bind_eq_none.1 run with run | ⟨_, st₄, _, run⟩
    · exact nomatch run
    split at run
    · exact nomatch run
    rcases run_bind_eq_none.1 run with run | ⟨_, st₅, ha, run⟩
    · exact types_ne_none (fun t ht => (arguments t ht).known) run reach small
    rcases run_bind_eq_none.1 run with run | ⟨_, _, _, last⟩
    · have reach₅ := (imp.growing_blob _ _).reaches run reach
      exact blob_eq_none run
        (exists_instantiation_of_alike (types_alike ha reach₅ small) length arguments)
    · exact nomatch last

/-- **An importable field is imported.** -/
theorem field_ne_none {f : FieldRef} (importable : (Operand.field f).Importable imp.view)
    (run : (imp.field f).run.run st = (none, st')) (reach : st'.symbols.Grows S)
    (small : S.Small) : False := by
  cases importable with
  | field declared parent type =>
    rcases run_bind_eq_none.1 run with run | ⟨_, st₁, _, run⟩
    · exact parent_ne_none declared parent run reach small
    rcases run_bind_eq_none.1 run with run | ⟨t', st₂, ht, run⟩
    · exact type_ne_none type.known run reach small
    rcases run_bind_eq_none.1 run with run | ⟨_, st₃, _, last⟩
    · have reach₂ := (imp.growing_blob _ _).reaches run reach
      refine blob_eq_none run ?_
      rw [Blob.field, exists_map_eq_ok]
      exact exists_type_of_alike (type_alike ht reach₂ small) type
    · exact nomatch last

/-- **An operand of known modules is imported.** -/
theorem operand_ne_none {o : Operand} (importable : o.Importable imp.view)
    (run : (imp.operand o).run.run st = (none, st')) (reach : st'.symbols.Grows S)
    (small : S.Small) : False := by
  cases importable with
  | type importable =>
    rcases run_bind_eq_none.1 run with run | ⟨_, _, _, last⟩
    · exact typeToken_ne_none importable run reach small
    · exact nomatch last
  | method declared parent signature length arguments =>
    rcases run_bind_eq_none.1 run with run | ⟨_, _, _, last⟩
    · exact method_ne_none (.method declared parent signature length arguments) run reach small
    · exact nomatch last
  | field declared parent type =>
    rcases run_bind_eq_none.1 run with run | ⟨_, _, _, last⟩
    · exact field_ne_none (.field declared parent type) run reach small
    · exact nomatch last
  | callSite signature =>
    rcases run_bind_eq_none.1 run with run | ⟨_, st₁, hs, run⟩
    · exact signature_ne_none signature.known run reach small
    rcases run_bind_eq_none.1 run with run | ⟨_, _, _, run⟩
    · have reach₁ := (imp.growing_blob _ _).reaches run reach
      exact blob_eq_none run
        (exists_method_of_alike (signature_alike hs reach₁ small) signature)
    rcases run_bind_eq_none.1 run with run | ⟨_, _, _, last⟩
    · exact nomatch run
    · exact nomatch last

/-- **Import keeps the meaning.**  An operand of known modules becomes a token from which it is
read back, with rows that say its names in place of the names, and stays so under every import
behind it, as long as the tables have room. -/
theorem operand_readable {o : Operand} (importable : o.Importable imp.view) (st : ImportState)
    (later : List Request) {symbols : SymbolTable}
    (reached : symbols = (serveAll ((imp.operand o).run.run st).2 later).symbols)
    (small : symbols.Small) : ∃ token o', ((imp.operand o).run.run st).1 = some (.token token) ∧
      symbols.operand? token = some o' ∧ o.Alike (Names imp.view symbols) o' := by
  have reach : ((imp.operand o).run.run st).2.symbols.Grows symbols := by
    rw [reached]
    exact grows_serveAll _ later
  have symbolic : o.isSymbolic := by cases importable <;> rfl
  rcases run : (imp.operand o).run.run st with ⟨_ | result, st'⟩
  · rw [run] at reach
    exact (operand_ne_none importable run reach small).elim
  · rw [run] at reach
    obtain ⟨token, rfl, denotes⟩ := operand_denotes symbolic run reach small
    obtain ⟨o', read, same⟩ := operand?_of_denotes importable denotes
    exact ⟨token, o', rfl, read, same⟩

end Importer

/-! ### A call of an instantiated method -/

/-- A type within another type of the game, as a value. -/
def TypeSig.slot : TypeSig :=
  .value (.reference (.nested (.topLevel (some ⟨1⟩) "Game" "Bag") "Slot"))

/-- A method of a constructed type, applied to a nested type. -/
def MethodRef.genericGet : MethodRef where
  declaringType := some (.generic false (.reference (.topLevel (some ⟨1⟩) "Game" "Bag")) [.slot])
  name := "Get"
  signature := { hasThis := true, genericCount := 1, result := .array (.methodParam 0) }
  genericArguments := [.slot]

/-- The slot of an inventory is importable. -/
theorem TypeSig.slot_importable : slot.Importable .game where
  known := by
    rw [slot, TypeSig.handles, List.forall_mem_singleton]
    exact ⟨_, rfl⟩
  small := ⟨by simp [slot, TypeSig.lists], by simp [slot, TypeSig.numbers]⟩

/-- The instantiated method is importable. -/
theorem MethodRef.genericGet_importable : (Operand.method genericGet).Importable .game := by
  have bag : (TypeSig.generic false (.reference (.topLevel (some ⟨1⟩) "Game" "Bag"))
      [.slot]).Importable .game := {
    known := by
      rw [TypeSig.handles, List.forall_mem_cons, List.forall_mem_flatMap,
        List.forall_mem_singleton]
      exact ⟨⟨_, rfl⟩, TypeSig.slot_importable.known⟩
    small := ⟨by simp [TypeSig.slot, TypeSig.lists], by simp [TypeSig.slot, TypeSig.numbers]⟩ }
  have result : (TypeSig.array (.methodParam 0)).Importable .game := {
    known := by simp [TypeSig.handles]
    small := ⟨by simp [TypeSig.lists], by simp [TypeSig.numbers]⟩ }
  exact .method rfl bag ⟨by decide, by decide, result, List.forall_mem_nil _⟩ (by decide)
    (List.forall_mem_singleton.2 TypeSig.slot_importable)

/-- The hypotheses are satisfiable: the method is imported into an empty table, and another type
behind it. -/
theorem Importer.operand_readable_genericGet : ∃ symbols token o',
    (((Importer.mk .game none).operand (.method .genericGet)).run.run { symbols := {} }).1 =
      some (.token token) ∧
      symbols.operand? token = some o' ∧
        (Operand.method .genericGet).Alike (Names .game symbols) o' := by
  let imp : Importer := { view := .game }
  have small : decide (serveAll ((imp.operand (.method .genericGet)).run.run { symbols := {} }).2
      [.type imp (.ofName "Map")]).symbols.Small = true := by
    cbv
  obtain ⟨token, o', imported, read, same⟩ := operand_readable MethodRef.genericGet_importable
    { symbols := {} } [.type imp (.ofName "Map")] rfl (of_decide_eq_true small)
  exact ⟨_, token, o', imported, read, same⟩

end HookImage
