/-
# Metadata tokens

A token names a row of a metadata table in 32 bits: the table's number in the high
byte and the row, counted from one, in the low 24 bits.  The user string heap is not
a table, but its tokens have the same form, with an offset in place of the row.
-/

import HookImage.Text.Hex

namespace HookImage

/-- The tables that an output image can hold, and the user string heap. -/
inductive TableId where
  /-- The module itself. -/
  | module
  /-- Types of other assemblies. -/
  | typeRef
  /-- Types that the image defines. -/
  | typeDef
  /-- Fields that the image defines. -/
  | field
  /-- Methods that the image defines. -/
  | methodDef
  /-- Parameter names of defined methods. -/
  | param
  /-- Methods and fields of other assemblies. -/
  | memberRef
  /-- Instances of custom attributes. -/
  | customAttribute
  /-- Signatures of local variables and of indirect calls. -/
  | standAloneSig
  /-- Types that are constructed from others. -/
  | typeSpec
  /-- The assembly itself. -/
  | assembly
  /-- Other assemblies. -/
  | assemblyRef
  /-- Which defined type lies within which. -/
  | nestedClass
  /-- Instantiations of generic methods. -/
  | methodSpec
  /-- The user string heap. -/
  | userString
deriving DecidableEq, Hashable

namespace TableId

/-- The number of the table, which is the high byte of its tokens. -/
def number : TableId → Nat
  | module => 0x00
  | typeRef => 0x01
  | typeDef => 0x02
  | field => 0x04
  | methodDef => 0x06
  | param => 0x08
  | memberRef => 0x0A
  | customAttribute => 0x0C
  | standAloneSig => 0x11
  | typeSpec => 0x1B
  | assembly => 0x20
  | assemblyRef => 0x23
  | nestedClass => 0x29
  | methodSpec => 0x2B
  | userString => 0x70

/-- The name of the table. -/
def name : TableId → String
  | module => "Module"
  | typeRef => "TypeRef"
  | typeDef => "TypeDef"
  | field => "Field"
  | methodDef => "MethodDef"
  | param => "Param"
  | memberRef => "MemberRef"
  | customAttribute => "CustomAttribute"
  | standAloneSig => "StandAloneSig"
  | typeSpec => "TypeSpec"
  | assembly => "Assembly"
  | assemblyRef => "AssemblyRef"
  | nestedClass => "NestedClass"
  | methodSpec => "MethodSpec"
  | userString => "UserString"

/-- Every table, in the order of their numbers. -/
def all : List TableId :=
  [module, typeRef, typeDef, field, methodDef, param, memberRef, customAttribute,
    standAloneSig, typeSpec, assembly, assemblyRef, nestedClass, methodSpec, userString]

/-- The table with a given number. -/
def ofNumber? (n : Nat) : Option TableId := all.find? (·.number == n)

/-- The list of tables is complete. -/
theorem mem_all (t : TableId) : t ∈ all := by
  cases t <;> decide

/-- A table is found by its number. -/
@[simp] theorem ofNumber?_number (t : TableId) : ofNumber? t.number = some t := by
  cases t <;> rfl

/-- What is found by a number has it. -/
theorem number_of_ofNumber? {n : Nat} {t : TableId} (h : ofNumber? n = some t) : t.number = n := by
  have same := List.find?_some h
  exact eq_of_beq same

/-- The number of a table has one byte. -/
theorem number_lt (t : TableId) : t.number < 256 := by
  cases t <;> decide

end TableId

/-- A reference to a row of a metadata table. -/
structure Token where
  word : UInt32
deriving DecidableEq, Hashable, Inhabited

namespace Token

/-- The token of a row.  Only the low 24 bits of the row fit. -/
def ofRow (table : TableId) (row : Nat) : Token :=
  ⟨UInt32.ofNat (table.number * 0x1000000 + row % 0x1000000)⟩

/-- The number of the table, whether there is such a table or not. -/
def tableNumber (t : Token) : Nat := t.word.toNat / 0x1000000

/-- The table, if the high byte is the number of one. -/
def table? (t : Token) : Option TableId := TableId.ofNumber? t.tableNumber

/-- The row, counted from one. -/
def row (t : Token) : Nat := t.word.toNat % 0x1000000

/-- The token that names nothing. -/
def isNull (t : Token) : Bool := t.word == 0

/-- A token is shown as eight hexadecimal digits. -/
def text (t : Token) : String := "0x" ++ Text.hexPadded 8 t.word.toNat

/-- A token with its two parts spelled out. -/
def inspect (t : Token) : String :=
  s!"Token({t.text}, table: 0x{Text.hexPadded 2 t.tableNumber}, row: {t.row})"

/-- A token is the number of its table before 24 bits of the row. -/
theorem toNat_ofRow (table : TableId) (row : Nat) :
    (ofRow table row).word.toNat = table.number * 0x1000000 + row % 0x1000000 := by
  have := table.number_lt
  simp only [ofRow, UInt32.toNat_ofNat']
  omega

/-- A token has the low 24 bits of its row. -/
@[simp]
theorem row_ofRow (table : TableId) (row : Nat) : (ofRow table row).row = row % 0x1000000 := by
  rw [Token.row, toNat_ofRow]
  omega

/-- A token has the number of its table. -/
@[simp] theorem tableNumber_ofRow (table : TableId) (row : Nat) :
    (ofRow table row).tableNumber = table.number := by
  rw [tableNumber, toNat_ofRow]
  omega

/-- A token is in its table. -/
@[simp]
theorem table?_ofRow (table : TableId) (row : Nat) : (ofRow table row).table? = some table := by
  rw [table?, tableNumber_ofRow, TableId.ofNumber?_number]

end Token
end HookImage
