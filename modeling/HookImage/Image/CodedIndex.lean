/-
# Coded indices

A column that refers to rows of several tables holds the row shifted to the left, with
a tag in the low bits that says which table is meant.  The tag is a position in the
list of tables of the column's kind.  Some positions belong to tables that an output
image never has.
-/

import HookImage.Token

namespace HookImage

/-- The kinds of columns that refer to several tables. -/
inductive CodedIndex where
  | typeDefOrRef
  | resolutionScope
  | memberRefParent
  | hasCustomAttribute
  | customAttributeType
  | methodDefOrRef
deriving DecidableEq

namespace CodedIndex

/-- The name of the kind. -/
def name : CodedIndex → String
  | typeDefOrRef => "TypeDefOrRef"
  | resolutionScope => "ResolutionScope"
  | memberRefParent => "MemberRefParent"
  | hasCustomAttribute => "HasCustomAttribute"
  | customAttributeType => "CustomAttributeType"
  | methodDefOrRef => "MethodDefOrRef"

/-- Every kind. -/
def all : List CodedIndex :=
  [typeDefOrRef, resolutionScope, memberRefParent, hasCustomAttribute, customAttributeType,
    methodDefOrRef]

/-- The tables of a kind by their tags; a gap is a table that images never have. -/
def tables : CodedIndex → List (Option TableId)
  | typeDefOrRef => [some .typeDef, some .typeRef, some .typeSpec]
  | resolutionScope => [some .module, none, some .assemblyRef, some .typeRef]
  | memberRefParent =>
    [some .typeDef, some .typeRef, none, some .methodDef, some .typeSpec]
  | hasCustomAttribute =>
    [some .methodDef, some .field, some .typeRef, some .typeDef, some .param, none,
      some .memberRef, some .module, none, none, none, some .standAloneSig, none,
      some .typeSpec, some .assembly, some .assemblyRef, none, none, none, none, none,
      some .methodSpec]
  | customAttributeType => [none, none, some .methodDef, some .memberRef, none]
  | methodDefOrRef => [some .methodDef, some .memberRef]

/-- How many bits the tag takes. -/
def tagBits : CodedIndex → Nat
  | typeDefOrRef | resolutionScope => 2
  | memberRefParent | customAttributeType => 3
  | hasCustomAttribute => 5
  | methodDefOrRef => 1

/-- The tag of a table. -/
def tag? (kind : CodedIndex) (table : TableId) : Option Nat :=
  kind.tables.findIdx? (· == some table)

/-- The coded form of a token, if its table is one of the kind's. -/
def encode? (kind : CodedIndex) (token : Token) : Option Nat := do
  let table ← token.table?
  let tag ← kind.tag? table
  return (token.row <<< kind.tagBits) + tag

end CodedIndex
end HookImage
