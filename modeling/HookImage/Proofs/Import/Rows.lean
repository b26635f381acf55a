/-
# What imported operands stand for

An operand becomes the token of a row that holds its parts: the name, the bytes of the
signature, the token of the declaring type (`operand_denotes`).  Whatever is imported later,
the row stays.
-/

import HookImage.Proofs.Import.Named

namespace HookImage

/-- The named types of a method reference: those of the declaring type, of the signature and
of the arguments of an instantiation. -/
def MethodRef.handles (m : MethodRef) : List TypeHandle :=
  m.declaringType.toList.flatMap (·.handles) ++ m.signature.handles ++
    m.genericArguments.flatMap (·.handles)

/-- The named types of a field reference. -/
def FieldRef.handles (f : FieldRef) : List TypeHandle :=
  f.declaringType.toList.flatMap (·.handles) ++ f.fieldType.handles

/-- The named types of an operand. -/
def Operand.handles : Operand → List TypeHandle
  | type t => t.handles
  | method m => m.handles
  | field f => f.handles
  | callSite s => s.handles
  | _ => []

namespace SymbolTable

/-- Whether a token stands for a type alone: it is the name of a plain type, or a row with the
bytes of another one. -/
def StandsFor (s : SymbolTable) (t : TypeSig) (token : Token) : Prop :=
  Region.catchToken? t = some token ∨
    Region.catchToken? t = none ∧ token.table? = some .typeSpec ∧
      ∃ bytes, Blob.type t = .ok bytes ∧ s.specs.row? token.row = some bytes

/-- Whether a token is the row of a member. -/
def HasMember (s : SymbolTable) (token : Token) (row : MemberRow) : Prop :=
  token.table? = some .memberRef ∧ s.members.row? token.row = some row

end SymbolTable

namespace Importer

/-- Whether a token stands for what a type becomes under an import. -/
def DenotesType (view : HostView) (s : SymbolTable) (t : TypeSig) (token : Token) : Prop :=
  ∃ t', t.Alike (Renders view s) t' ∧ s.StandsFor t' token

/-- Whether a token is the row of what a method becomes under an import, without the arguments
of an instantiation. -/
inductive DenotesMethod (view : HostView) (s : SymbolTable) (m : MethodRef) (token : Token) : Prop
  | intro {d : TypeSig} {owner : Token} {signature : MethodSig} {bytes : Bytes}
    (declared : m.declaringType = some d) (parent : DenotesType view s d owner)
    (alike : m.signature.Alike (Renders view s) signature)
    (encoded : Blob.method signature = .ok bytes) (row : s.HasMember token ⟨owner, m.name, bytes⟩)

/-- Whether a token is the row of what an operand becomes under an import. -/
inductive Denotes (view : HostView) (s : SymbolTable) : Operand → Token → Prop
  | type {t : TypeSig} {token : Token} (type : DenotesType view s t token) :
    Denotes view s (.type t) token
  | method {m : MethodRef} {token : Token} (plain : m.genericArguments = [])
    (method : DenotesMethod view s m token) : Denotes view s (.method m) token
  | instantiation {m : MethodRef} {definition token : Token} {arguments : List TypeSig}
    {bytes : Bytes} (generic : m.genericArguments ≠ []) (method : DenotesMethod view s m definition)
    (alike : List.Forall₂ (TypeSig.Alike (Renders view s)) m.genericArguments arguments)
    (encoded : Blob.instantiation arguments = .ok bytes) (table : token.table? = some .methodSpec)
    (row : s.instantiations.row? token.row = some ⟨definition, bytes⟩) :
    Denotes view s (.method m) token
  | field {f : FieldRef} {d t : TypeSig} {owner token : Token} {bytes : Bytes}
    (declared : f.declaringType = some d) (parent : DenotesType view s d owner)
    (alike : f.fieldType.Alike (Renders view s) t) (encoded : Blob.field t = .ok bytes)
    (row : s.HasMember token ⟨owner, f.name, bytes⟩) : Denotes view s (.field f) token
  | callSite {c signature : MethodSig} {token : Token} {bytes : Bytes}
    (alike : c.Alike (Renders view s) signature) (encoded : Blob.method signature = .ok bytes)
    (table : token.table? = some .standAloneSig)
    (row : s.signatures.row? token.row = some bytes) : Denotes view s (.callSite c) token

variable {imp : Importer} {S : SymbolTable} {st st' : ImportState} {token : Token}

/-- A type that is named by no token has a row among the plain or among the constructed
types. -/
theorem DenotesType.exists_row {view : HostView} {t : TypeSig} (h : DenotesType view S t token)
    (symbolic : ∀ h ∈ t.handles, ¬h.isResolved) :
    S.IsTypeRow token ∨
      token.table? = some .typeSpec ∧ ∃ bytes, S.specs.row? token.row = some bytes := by
  obtain ⟨t', alike, plain | ⟨_, table, bytes, _, row⟩⟩ := h
  · have named : TypeHandle.token token ∈ t'.handles := by
      unfold Region.catchToken? at plain
      split at plain
      · cases plain
        rw [TypeSig.handles]
        exact List.mem_singleton_self _
      · cases plain
        rw [TypeSig.handles]
        exact List.mem_singleton_self _
      · exact nomatch plain
    have rows : ∀ h' ∈ t'.handles, ∃ t, h' = .token t ∧ S.IsTypeRow t :=
      alike.forall_handles fun h hh _ renders => renders.exists_isTypeRow (symbolic h hh)
    obtain ⟨_, same, isRow⟩ := rows _ named
    cases same
    exact .inl isRow
  · exact .inr ⟨table, bytes, row⟩

/-! ### Steps -/

/-- Encoding gives the byte form and changes nothing. -/
theorem blob_eq_some {what : String} {x : Except Malformation Bytes} {bytes : Bytes}
    (run : (imp.blob what x).run.run st = (some bytes, st')) : x = .ok bytes ∧ st = st' := by
  cases x with
  | ok b =>
    obtain ⟨rfl, rfl⟩ := run_pure_eq_some.1 run
    exact ⟨rfl, rfl⟩
  | error e => exact nomatch run

/-- The token of a type stands for it. -/
theorem typeToken_denotes {t : TypeSig} (run : (imp.typeToken t).run.run st = (some token, st'))
    (reach : st'.symbols.Grows S) (small : S.Small) : DenotesType imp.view S t token := by
  obtain ⟨t', st₁, ht, run⟩ := run_bind_eq_some.1 run
  split at run
  · rename_i plain
    obtain ⟨rfl, rfl⟩ := run_pure_eq_some.1 run
    exact ⟨t', type_alike ht reach small, .inl plain⟩
  · rename_i constructed
    obtain ⟨bytes, st₂, hb, added⟩ := run_bind_eq_some.1 run
    obtain ⟨encoded, rfl⟩ := blob_eq_some hb
    obtain ⟨rfl, table⟩ := row_eq_some added
    rw [table] at reach
    have reach₁ := (st₁.symbols.grows_typeSpec bytes).trans reach
    obtain ⟨table, row⟩ := st₁.symbols.row?_typeSpec bytes (small.of_grows reach)
    exact ⟨t', type_alike ht reach₁ small, .inr ⟨constructed, table, bytes, encoded,
      reach.specs _ _ row⟩⟩

/-- The parent of a member stands for its declaring type. -/
theorem parent_denotes {declaringType : Option TypeSig} {member : String}
    (run : (imp.parent declaringType member).run.run st = (some token, st'))
    (reach : st'.symbols.Grows S) (small : S.Small) :
    ∃ d, declaringType = some d ∧ DenotesType imp.view S d token := by
  cases declaringType with
  | some d => exact ⟨d, rfl, typeToken_denotes run reach small⟩
  | none => exact nomatch run

/-- The token of a member is that of its row. -/
theorem member_hasMember {row : MemberRow}
    (run : (Importer.row (·.memberRef row)).run.run st = (some token, st'))
    (reach : st'.symbols.Grows S) (small : S.Small) : S.HasMember token row := by
  obtain ⟨rfl, table⟩ := row_eq_some run
  rw [table] at reach
  obtain ⟨table, row⟩ := st.symbols.row?_memberRef row (small.of_grows reach)
  exact ⟨table, reach.members _ _ row⟩

/-- **The token of a method stands for it.** -/
theorem method_denotes {m : MethodRef} (run : (imp.method m).run.run st = (some token, st'))
    (reach : st'.symbols.Grows S) (small : S.Small) :
    Denotes imp.view S (.method m) token := by
  obtain ⟨owner, st₁, hp, run⟩ := run_bind_eq_some.1 run
  obtain ⟨signature, st₂, hs, run⟩ := run_bind_eq_some.1 run
  obtain ⟨bytes, st₃, hb, run⟩ := run_bind_eq_some.1 run
  obtain ⟨encoded, rfl⟩ := blob_eq_some hb
  obtain ⟨member, st₄, hm, run⟩ := run_bind_eq_some.1 run
  -- The member is there as soon as its row is added, whatever the arguments bring with them.
  have denotes (reach : st₄.symbols.Grows S) : DenotesMethod imp.view S m member := by
    have reach₂ := (growing_row fun s => s.grows_memberRef _).reaches hm reach
    have reach₁ := (imp.growing_signature m.signature).reaches hs reach₂
    obtain ⟨d, declared, parent⟩ := parent_denotes hp reach₁ small
    exact .intro declared parent (signature_alike hs reach₂ small) encoded
      (member_hasMember hm reach small)
  split at run
  · rename_i plain
    obtain ⟨rfl, rfl⟩ := run_pure_eq_some.1 run
    exact .method (List.isEmpty_iff.1 plain) (denotes reach)
  · rename_i generic
    obtain ⟨arguments, st₅, ha, run⟩ := run_bind_eq_some.1 run
    obtain ⟨bytes', st₆, hb', added⟩ := run_bind_eq_some.1 run
    obtain ⟨encoded', rfl⟩ := blob_eq_some hb'
    obtain ⟨rfl, table⟩ := row_eq_some added
    rw [table] at reach
    have outside : member.table? = some .memberRef := by
      rw [(row_eq_some hm).1]
      exact Token.table?_ofRow _ _
    have reach₅ := (st₅.symbols.grows_methodSpec outside).trans reach
    have reach₄ := (imp.growing_types m.genericArguments).reaches ha reach₅
    obtain ⟨table, row⟩ := st₅.symbols.row?_methodSpec ⟨member, bytes'⟩ (small.of_grows reach)
    exact .instantiation (fun none => generic (List.isEmpty_iff.2 none)) (denotes reach₄)
      (types_alike ha reach₅ small) encoded' table (reach.instantiations _ _ row)

/-- **The token of a field stands for it.** -/
theorem field_denotes {f : FieldRef} (run : (imp.field f).run.run st = (some token, st'))
    (reach : st'.symbols.Grows S) (small : S.Small) : Denotes imp.view S (.field f) token := by
  obtain ⟨owner, st₁, hp, run⟩ := run_bind_eq_some.1 run
  obtain ⟨t, st₂, ht, run⟩ := run_bind_eq_some.1 run
  obtain ⟨bytes, st₃, hb, hm⟩ := run_bind_eq_some.1 run
  obtain ⟨encoded, rfl⟩ := blob_eq_some hb
  have reach₂ := (growing_row fun s => s.grows_memberRef _).reaches hm reach
  have reach₁ := (imp.growing_type f.fieldType).reaches ht reach₂
  obtain ⟨d, declared, parent⟩ := parent_denotes hp reach₁ small
  exact .field declared parent (type_alike ht reach₂ small) encoded
    (member_hasMember hm reach small)

/-- **The token of an indirect call stands for its signature.** -/
theorem callSite_denotes {c : MethodSig} {o : Operand}
    (run : (imp.operand (.callSite c)).run.run st = (some o, st'))
    (reach : st'.symbols.Grows S) (small : S.Small) :
    ∃ token, o = .token token ∧ Denotes imp.view S (.callSite c) token := by
  obtain ⟨signature, st₁, hs, run⟩ := run_bind_eq_some.1 run
  obtain ⟨bytes, st₂, hb, run⟩ := run_bind_eq_some.1 run
  obtain ⟨encoded, rfl⟩ := blob_eq_some hb
  obtain ⟨token, st₃, added, last⟩ := run_bind_eq_some.1 run
  obtain ⟨rfl, rfl⟩ := run_pure_eq_some.1 last
  obtain ⟨rfl, table⟩ := row_eq_some added
  rw [table] at reach
  have reach₁ := (st₁.symbols.grows_standAloneSig bytes).trans reach
  obtain ⟨table, row⟩ := st₁.symbols.row?_standAloneSig bytes (small.of_grows reach)
  exact ⟨_, rfl, .callSite (signature_alike hs reach₁ small) encoded table
    (reach.signatures _ _ row)⟩

/-- **An operand becomes the token of its row.** -/
theorem operand_denotes {o o' : Operand} (symbolic : o.isSymbolic)
    (run : (imp.operand o).run.run st = (some o', st')) (reach : st'.symbols.Grows S)
    (small : S.Small) : ∃ token, o' = .token token ∧ Denotes imp.view S o token := by
  cases o with
  | type t =>
    obtain ⟨token, st₁, ht, last⟩ := run_bind_eq_some.1 run
    obtain ⟨rfl, rfl⟩ := run_pure_eq_some.1 last
    exact ⟨token, rfl, .type (typeToken_denotes ht reach small)⟩
  | method m =>
    obtain ⟨token, st₁, hm, last⟩ := run_bind_eq_some.1 run
    obtain ⟨rfl, rfl⟩ := run_pure_eq_some.1 last
    exact ⟨token, rfl, method_denotes hm reach small⟩
  | field f =>
    obtain ⟨token, st₁, hf, last⟩ := run_bind_eq_some.1 run
    obtain ⟨rfl, rfl⟩ := run_pure_eq_some.1 last
    exact ⟨token, rfl, field_denotes hf reach small⟩
  | callSite c => exact callSite_denotes run reach small
  | _ => exact absurd symbolic Bool.false_ne_true

end Importer
end HookImage
