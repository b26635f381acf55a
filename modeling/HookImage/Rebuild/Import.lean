/-
# Import

Importing turns every symbolic reference of a method into a token of the image.  A type
goes through the module that its reference names; if that is not possible, it is looked
up by its full name among the types of the loaded modules.  What cannot be imported is
noted and stays symbolic.
-/

import HookImage.Diagnostics
import HookImage.Host.View
import HookImage.Image.Basic

namespace HookImage

/-- What importing reads: the view, and the method that the references belong to. -/
structure Importer where
  view : HostView
  origin : Option MethodId := none

/-- What importing changes: the symbol table, and the notes. -/
structure ImportState where
  symbols : SymbolTable
  notes : Diagnostics := #[]

/-- An import that may fail and keeps the changes up to there. -/
abbrev ImportM := OptionT (StateM ImportState)

namespace Importer

/-- Notes what could not be imported. -/
def report (imp : Importer) (message : String) : StateM ImportState Unit :=
  modify fun st =>
    { st with
      notes := st.notes.push
        { severity := .warning, topic := .imports, message, method := imp.origin } }

/-- A search for a type, which may fail and keeps the rows added up to there. -/
abbrev SearchM := ExceptT Error (StateM SymbolTable)

/-- The row of a type within an assembly or within another type. -/
def within (scope : Token) (t : TypeName) : SearchM Token := do
  let (token, symbols) ← (← get).typeRef ⟨scope, t.nspace, t.name⟩
  set symbols
  return token

/-- The row of a type through the module that its outermost link names.  Each link is a
row within the row of the link around it. -/
def throughModule (view : HostView) (t : TypeName) : List TypeName → SearchM Token
  | [] =>
    match t.module with
    | none => throw (.failure (.noDefiningModule ⟨t, []⟩))
    | some id =>
      match view.module id with
      | none => throw (.failure (.moduleNotLoaded id ⟨t, []⟩))
      | some a => do
        let scope ← modifyGet (·.assemblyRef a)
        within scope t
  | outer :: rest => do
    let scope ← throughModule view outer rest
    within scope t

/-- The row of a type that is found by its full name. -/
def byName (view : HostView) (r : TypeRef) : SearchM Token :=
  match view.findType r.fullName with
  | none => throw (.failure (.nowhereDefined r.fullName))
  | some t => do
    let found ← view.typeReference t.id
    throughModule view found.leaf found.enclosing

/-- The row of a type of the audited process: through its module, or else by its name.  If
neither is possible, both reasons. -/
def locate (view : HostView) (r : TypeRef) : StateM SymbolTable (Except (Error × Error) Token) := do
  match ← (throughModule view r.leaf r.enclosing).run with
  | .ok token => return .ok token
  | .error first =>
    match ← (byName view r).run with
    | .ok token => return .ok token
    | .error second => return .error (first, second)

/-- Searches in the symbol table of an import. -/
def search {α : Type} (x : StateM SymbolTable α) : ImportM α := do
  modifyGet fun st =>
    let ⟨symbols, notes⟩ := st
    let (found, symbols) := x.run symbols
    (found, ⟨symbols, notes⟩)

/-- The token of a type of the audited process. -/
def reference (imp : Importer) (r : TypeRef) : ImportM Token := do
  match ← search (locate imp.view r) with
  | .ok token => return token
  | .error (first, second) =>
    imp.report s!"failed to import {r.fullName}: {first.message}; {second.message}"
    failure

/-- A named type as a token. -/
def handle (imp : Importer) : TypeHandle → ImportM TypeHandle
  | .token t => return .token t
  | .reference r => return .token (← imp.reference r)

mutual

/-- A type with its named types as tokens. -/
def type (imp : Importer) : TypeSig → ImportM TypeSig
  | .reference h => return .reference (← imp.handle h)
  | .value h => return .value (← imp.handle h)
  | .generic isValue definition arguments => do
    let definition ← imp.handle definition
    let arguments ← imp.types arguments
    return .generic isValue definition arguments
  | .array e => return .array (← imp.type e)
  | .byRef e => return .byRef (← imp.type e)
  | .pointer e => return .pointer (← imp.type e)
  | .primitive p => return .primitive p
  | .typeParam n => return .typeParam n
  | .methodParam n => return .methodParam n

/-- Types up to the first that cannot be imported. -/
def types (imp : Importer) : List TypeSig → ImportM (List TypeSig)
  | [] => return []
  | t :: ts => do
    let t ← imp.type t
    let ts ← imp.types ts
    return t :: ts

end

/-- A method signature with its named types as tokens. -/
def signature (imp : Importer) (s : MethodSig) : ImportM MethodSig := do
  let result ← imp.type s.result
  let params ← imp.types s.params
  return { s with result, params }

/-- A blob, if it can be written. -/
def blob (imp : Importer) (what : String) (x : Except Malformation Bytes) : ImportM Bytes :=
  match x with
  | .ok bytes => return bytes
  | .error e => do
    imp.report s!"failed to encode {what}: {(Error.malformed e).message}"
    failure

/-- Adds a row to the symbol table. -/
def row (add : SymbolTable → Token × SymbolTable) : ImportM Token := do
  modifyGet fun st =>
    let ⟨symbols, notes⟩ := st
    let (token, symbols) := add symbols
    (token, ⟨symbols, notes⟩)

/-- The token of a type that is already imported: its own one, or that of a constructed
type. -/
def typeToken (imp : Importer) (t : TypeSig) : ImportM Token := do
  let imported ← imp.type t
  match Region.catchToken? imported with
  | some token => return token
  | none =>
    let bytes ← imp.blob "type specification" (Blob.type imported)
    row (·.typeSpec bytes)

/-- The token of the type that declares a member. -/
def parent (imp : Importer) (declaringType : Option TypeSig) (member : String) :
    ImportM Token :=
  match declaringType with
  | some t => imp.typeToken t
  | none => do
    imp.report s!"{member} has no declaring type"
    failure

/-- The token of a method. -/
def method (imp : Importer) (m : MethodRef) : ImportM Token := do
  let parent ← imp.parent m.declaringType m.name
  let signature ← imp.signature m.signature
  let bytes ← imp.blob "method signature" (Blob.method signature)
  let member ← row (·.memberRef ⟨parent, m.name, bytes⟩)
  if m.genericArguments.isEmpty then return member
  let arguments ← imp.types m.genericArguments
  let instantiation ← imp.blob "method instantiation" (Blob.instantiation arguments)
  row (·.methodSpec ⟨member, instantiation⟩)

/-- The token of a field. -/
def field (imp : Importer) (f : FieldRef) : ImportM Token := do
  let parent ← imp.parent f.declaringType f.name
  let type ← imp.type f.fieldType
  let bytes ← imp.blob "field signature" (Blob.field type)
  row (·.memberRef ⟨parent, f.name, bytes⟩)

/-- An operand with its metadata as a token. -/
def operand (imp : Importer) : Operand → ImportM Operand
  | .type t => return .token (← imp.typeToken t)
  | .method m => return .token (← imp.method m)
  | .field f => return .token (← imp.field f)
  | .callSite s => do
    let signature ← imp.signature s
    let bytes ← imp.blob "call site signature" (Blob.method signature)
    return .token (← row (·.standAloneSig bytes))
  | other => return other

/-- The imported value, or the old one and one failure. -/
def attempt {α : Type} (old : α) (x : ImportM α) : StateM ImportState (α × Nat) := do
  match ← x.run with
  | some new => return (new, 0)
  | none => return (old, 1)

/-- A local variable with an imported type. -/
def localVar (imp : Importer) (v : LocalVar) : ImportM LocalVar := do
  return { v with type := ← imp.type v.type }

/-- The local variables of a method and the token of their signature.  The variables are
imported all together or not at all. -/
def locals (imp : Importer) (m : SyntheticMethod) : StateM ImportState (SyntheticMethod × Nat) := do
  let imported : ImportM (List LocalVar) := m.body.locals.toList.mapM imp.localVar
  match ← imported.run with
  | none => return (m, 1)
  | some locals =>
    let m := { m with body := { m.body with locals := locals.toArray } }
    if locals.isEmpty then return (m, 0)
    let token : ImportM Token := do
      let bytes ← imp.blob "local signature" (Blob.locals locals)
      row (·.standAloneSig bytes)
    return ({ m with localSignature := ← token.run }, 0)

/-- An exception region with its catch type as a token. -/
def region (imp : Importer) (r : Region) : StateM ImportState (Region × Nat) :=
  match r.catchType with
  | none => return (r, 0)
  | some t => attempt r do
    let token ← imp.typeToken t
    return { r with catchType := some (.reference (.token token)) }

/-- An instruction with its metadata as a token. -/
def instruction (imp : Importer) (i : Instruction) : StateM ImportState (Instruction × Nat) :=
  if i.operand.isSymbolic then attempt i do
    return { i with operand := ← imp.operand i.operand }
  else return (i, 0)

/-- The members of a list one after the other, with the failures of all. -/
def each {α : Type} (step : α → StateM ImportState (α × Nat)) : List α → StateM ImportState (List α × Nat)
  | [] => return ([], 0)
  | x :: xs => do
    let (y, n) ← step x
    let (ys, k) ← each step xs
    return (y :: ys, n + k)

/-- A method with its references as tokens, and how many were left symbolic: signature,
local variables, catch types and operands, in this order. -/
def synthetic (view : HostView) (m : SyntheticMethod) : StateM ImportState (SyntheticMethod × Nat) := do
  let imp : Importer := { view, origin := m.origin }
  let (signature, a) ← attempt m.signature (imp.signature m.signature)
  let (m, b) ← imp.locals { m with signature }
  let (regions, c) ← each imp.region m.body.regions
  let (instructions, d) ← each imp.instruction m.body.instructions
  return ({ m with body := { m.body with regions, instructions } }, a + b + c + d)

end Importer
end HookImage
