/-
# What can go wrong

An error names its cause; `message` puts the cause into words.  A *malformation* is a
damaged body, signature or image, and is what encoders, validators and the reader
report.  Most failures of a reconstruction are not errors of the whole: they become
diagnostics and cost one reference, one manipulator or one method.
-/

import HookImage.Cil.Instruction
import HookImage.Image.CodedIndex

namespace HookImage

/-- How a body, a signature or an image is damaged. -/
inductive Malformation where
  /-- A token that no signature can refer to. -/
  | notTypeDefOrRef (t : Token)
  /-- A type that is still symbolic where it would be written. -/
  | notImported (r : TypeRef)
  /-- A list with more members than can be counted in 32 bits. -/
  | listTooLong (length : Nat)
  /-- A short branch to an instruction that the body does not have. -/
  | branchToMissing (branch target : InstrId)
  /-- Code of more than 32 bits of bytes. -/
  | bodyTooLarge
  /-- A symbolic operand where a token would be written. -/
  | symbolicOperand (op : Opcode) (operand : Operand)
  /-- A reference to an instruction that the body does not have. -/
  | missingInstruction (id : InstrId)
  /-- An operand of another layout than its operation has. -/
  | misfit (operand : Operand) (op : Opcode)
  | shortBranchTooFar
  | branchTooFar
  | switchTooFar
  | tooManyRegions
  | regionEndsEarly
  | filterWithoutStart
  | catchWithoutType
  | catchTypeUnresolved
  /-- A token in a column that cannot refer to its table. -/
  | notIndexed (t : Token) (index : CodedIndex)
  /-- A part of a file of more than 32 bits of bytes. -/
  | tooLarge (part : String)
  /-- A method of an image whose body cannot be written. -/
  | inMethod (container method : String) (cause : Malformation)
  /-- Bytes that the file does not have. -/
  | truncated (offset : Nat)
  /-- A virtual address that no section covers. -/
  | unmapped (rva : Nat)
  | noDosSignature
  | noPeSignature
  | notPe32
  | noCliHeader
  | badMetadataSignature
  | unterminatedStreamName
  | noStream (name : String)
  | unexpectedTable (number : Nat)
  /-- A receiver whose type is not known. -/
  | receiverWithoutType (m : MethodId)
  /-- A member whose parent is no type of the image. -/
  | orphanMember (name : String) (parent : Token)
  /-- An instantiation of something that is no method. -/
  | orphanInstantiation (t : Token)
  | misfitAt (i : Instruction)
  | symbolicOperandAt (i : Instruction)
  | danglingTokenAt (i : Instruction) (t : Token)
  | wrongTokenAt (i : Instruction) (d : Denotation) (t : Token)
  | branchToMissingAt (i : Instruction) (target : InstrId)
  | regionAtMissing (anchor : InstrId)
  | filterMissing
  | catchTypeSymbolic (t : TypeSig)
  | catchTypeDangling (t : Token)
  | signatureUnresolved
  | paramNameCount (names params : Nat)
  | emptyBody
  | localTypeUnresolved
  | localsWithoutSignature
  | localSignatureDangling (t : Token)

/-- A malformation in words. -/
def Malformation.message : Malformation → String
  | notTypeDefOrRef t => s!"Token {t.text} cannot be encoded as TypeDefOrRef"
  | notImported r => s!"Type '{r.fullName}' was not imported before encoding"
  | listTooLong length => s!"Signature list too long: {length}"
  | branchToMissing branch target => s!"branch at {branch.text} targets missing {target.text}"
  | bodyTooLarge => "method body too large"
  | symbolicOperand op operand => s!"{op.mnemonic} has an unresolved operand {operand.text}"
  | missingInstruction id => s!"reference to missing instruction {id.text}"
  | misfit operand op => s!"operand {operand.text} does not fit {op.mnemonic}"
  | shortBranchTooFar => "short branch out of range"
  | branchTooFar => "branch out of range"
  | switchTooFar => "switch target out of range"
  | tooManyRegions => "too many exception handlers"
  | regionEndsEarly => "exception region ends before it starts"
  | filterWithoutStart => "filter clause without filter start"
  | catchWithoutType => "catch clause without catch type"
  | catchTypeUnresolved => "unresolved catch type"
  | notIndexed t index => s!"token {t.text} is not a {index.name} index"
  | tooLarge part => s!"{part} too large"
  | inMethod container method cause => s!"{container}::{method}: Malformed - {cause.message}"
  | truncated offset => s!"truncated image at offset {offset}"
  | unmapped rva => s!"RVA 0x{Text.hexNat rva} outside every section"
  | noDosSignature => "missing DOS signature"
  | noPeSignature => "missing PE signature"
  | notPe32 => "not a PE32 optional header"
  | noCliHeader => "no CLI header"
  | badMetadataSignature => "bad metadata signature"
  | unterminatedStreamName => "unterminated stream name"
  | noStream name => s!"missing {name} stream"
  | unexpectedTable number => s!"unexpected table 0x{Text.hexPadded 2 number}"
  | receiverWithoutType m => s!"instance method {m.text} without declaring type"
  | orphanMember name parent => s!"member {name} has unresolvable parent {parent.text}"
  | orphanInstantiation t => s!"method instantiation {t.text} of unresolvable method"
  | misfitAt i => s!"{i.id.text}: operand {i.operand.text} does not fit {i.opcode.mnemonic}"
  | symbolicOperandAt i => s!"{i.id.text}: unresolved operand {i.operand.text}"
  | danglingTokenAt i t => s!"{i.id.text}: token {t.text} does not resolve"
  | wrongTokenAt i d t =>
    s!"{i.id.text}: {i.opcode.mnemonic} does not accept {d.name} token {t.text}"
  | branchToMissingAt i target => s!"{i.id.text}: branch to missing {target.text}"
  | regionAtMissing anchor => s!"exception region anchored at missing {anchor.text}"
  | filterMissing => "filter clause without filter"
  | catchTypeSymbolic t => s!"unresolved catch type {t.inspect}"
  | catchTypeDangling t => s!"catch type {t.text} does not resolve"
  | signatureUnresolved => "unresolved return or parameter type"
  | paramNameCount names params => s!"{names} parameter names for {params} parameters"
  | emptyBody => "empty body"
  | localTypeUnresolved => "unresolved local type"
  | localsWithoutSignature => "locals without signature"
  | localSignatureDangling t => s!"local signature {t.text} does not resolve"

/-- How an edit of a body is refused. -/
inductive EditFault where
  | unknownMnemonic (text : String)
  | replaceOutside (index count : Nat)
  | nothingToRemove (index : Nat)
  | labelAtEnd
  /-- A cause that a manipulator states in its own words. -/
  | stated (text : String)

/-- A refused edit in words. -/
def EditFault.message : EditFault → String
  | unknownMnemonic text => s!"unknown mnemonic '{text}'"
  | replaceOutside index count => s!"replace at {index} in body of {count}"
  | nothingToRemove index => s!"no instruction to remove at {index}"
  | labelAtEnd => "cannot mark a label at the end of the body"
  | stated text => text

/-- A failure without a class of its own. -/
inductive Failure where
  | tooManyLocals
  /-- A type whose reference leads to no module. -/
  | noDefiningModule (r : TypeRef)
  | moduleNotLoaded (a : ModuleId) (r : TypeRef)
  /-- A name that no loaded module defines. -/
  | nowhereDefined (name : String)
  | noRegistry
  /-- A cause that a manipulator states in its own words. -/
  | stated (text : String)

/-- A failure in words. -/
def Failure.message : Failure → String
  | tooManyLocals => "too many local variables"
  | noDefiningModule r => s!"{r.fullName} has no defining module"
  | moduleNotLoaded a r => s!"module {a.text} of {r.fullName} is not loaded"
  | nowhereDefined name => s!"no loaded module defines {name}"
  | noRegistry => "no detour registry is attached"
  | stated text => text

/-- Why an operation could not continue. -/
inductive Error where
  | malformed (cause : Malformation)
  | invalidInstruction (cause : EditFault)
  /-- A file could not be written. -/
  | file
  | failure (cause : Failure)
  | methodNotFound (m : MethodId)
  | typeNotFound (t : TypeId)
  | noMethodBody (m : MethodId)
  /-- A token that names no row of the output image. -/
  | tokenNotFound (t : Token)
  /-- A recorded manipulator that failed, in its own words. -/
  | manipulator (text : String)
  | recursionLimit (limit : Nat)
  /-- A registry whose lock was left held by a thread that died. -/
  | lock
  /-- A number that left the range of its fixed width. -/
  | overflow

/-- An error in words. -/
def Error.message : Error → String
  | malformed cause => s!"Malformed - {cause.message}"
  | invalidInstruction cause => s!"Invalid instruction - {cause.message}"
  | file => "file could not be written"
  | failure cause => cause.message
  | methodNotFound m => s!"Method not found in runtime view - {m.text}"
  | typeNotFound t => s!"Type not found in runtime view - {t.text}"
  | noMethodBody m => s!"Method has no body - {m.text}"
  | tokenNotFound t => s!"Token does not resolve in the output image - {t.text}"
  | manipulator text => s!"Manipulator failed - {text}"
  | recursionLimit limit => s!"Reach the maximum recursion level allowed - {limit}"
  | lock => "Failed to lock target"
  | overflow => "arithmetic overflow"

/-- The class of an error. -/
def Error.kind : Error → String
  | malformed _ => "Malformed"
  | invalidInstruction _ => "InvalidInstruction"
  | file => "FileError"
  | failure _ => "Error"
  | methodNotFound _ => "MethodNotFound"
  | typeNotFound _ => "TypeNotFound"
  | noMethodBody _ => "NoMethodBody"
  | tokenNotFound _ => "TokenNotFound"
  | manipulator _ => "Manipulator"
  | recursionLimit _ => "RecursionLimit"
  | lock => "LockError"
  | overflow => "Panic"

instance : MonadLift (Except Malformation) (Except Error) where
  monadLift x := x.mapError .malformed

end HookImage
