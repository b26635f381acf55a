/-
# Edit scripts

An edit script is a recorded sequence of edits of one body.  Steps of a *cursor* share
one cursor; every other step works on the body as a whole, and the cursor starts anew
behind it.  A step can give a label to the instruction it adds, and later steps can name
the instruction by the label.
-/

import HookImage.Cil.Cursor
import HookImage.Cil.Manipulator
import HookImage.Cil.StackDepth

namespace HookImage
namespace Script

/-- A name of an instruction: its number, or a label of an earlier step. -/
inductive Anchor where
  | id (i : InstrId)
  | label (name : String)

/-- An operand whose targets may be labels. -/
inductive Draft where
  | operand (o : Operand)
  | target (a : Anchor)
  | targets (as : List Anchor)

/-- An exception region whose boundaries may be labels. -/
structure RegionDraft where
  flags : UInt16
  tryStart : Anchor
  tryEnd : Option Anchor
  handlerStart : Anchor
  handlerEnd : Option Anchor
  filterStart : Option Anchor
  catchType : Option TypeSig

/-- What a search looks for. -/
inductive Pattern where
  | anything
  | operation (op : Opcode)
  | flow (f : Flow)
  | number (id : InstrId)
  /-- A symbolic reference to a method of a name. -/
  | calls (name : String)
  /-- A string literal. -/
  | literal (s : String)
  | not (p : Pattern)

/-- Whether an instruction is one that is looked for. -/
def Pattern.accepts : Pattern → Instruction → Bool
  | anything, _ => true
  | operation op, i => i.opcode == op
  | flow f, i => i.opcode.flow == f
  | number id, i => i.id == id
  | calls name, i =>
    match i.operand with
    | .method m => m.name == name
    | _ => false
  | literal s, i =>
    match i.operand with
    | .string t => t == s
    | _ => false
  | not p, i => !p.accepts i

/-- How a script gives up in words of its own. -/
inductive Complaint where
  | manipulator | failure | instruction

/-- The error of a script that gives up. -/
def Complaint.error (c : Complaint) (text : String) : Error :=
  match c with
  | manipulator => .manipulator text
  | failure => .failure (.stated text)
  | instruction => .invalidInstruction (.stated text)

/-- An edit. -/
inductive Step where
  | index
  | goto (index : Nat)
  | next
  | prev
  | gotoNext (p : Pattern)
  | gotoPrev (p : Pattern)
  | emit (op : Opcode) (operand : Draft) (label : Option String)
  | remove
  | replace (op : Opcode) (operand : Draft)
  | mark (label : String)
  /-- Runs the inner steps at every instruction that is found, at most a thousand
  times. -/
  | each (p : Pattern) (inner : List Step)
  | restart
  | fail (c : Complaint) (text : String)
  | panic (words : Option String)
  | bodyPush (op : Opcode) (operand : Draft) (label : Option String)
  | bodyInsert (index : Nat) (op : Opcode) (operand : Draft) (label : Option String)
  | bodyFresh (label : Option String)
  | bodyPushReserved (id : Anchor) (op : Opcode) (operand : Draft)
  | bodyReplace (index : Nat) (op : Opcode) (operand : Draft)
  | bodyRemove (index : Nat)
  | bodySetOperand (index : Nat) (operand : Draft)
  | bodyPosition (id : Anchor)
  | bodyGet (id : Anchor)
  | bodyLength
  | bodyAddLocal (v : LocalVar) (times : Nat)
  | bodyRegion (r : RegionDraft)
  | bodyReferences
  | bodyMaxStack (depth : UInt16)
  | bodyEstimate
  | bodyMethod
  | bodyState

/-- What a step answers. -/
inductive Answer where
  | nothing
  | number (n : Nat)
  | flag (b : Bool)
  | id (i : InstrId)
  | ids (is : List InstrId)
  | instruction (i : Option Instruction)
  | position (n : Option Nat)
  | length (n : Nat) (empty : Bool)
  | method (id : MethodId) (name : String)
  | body (b : MethodBody)

/-- Why a script stops: an error, or a death with or without words. -/
inductive Stop where
  | error (e : Error)
  | panic (words : Option String)

/-- The state of a script between two steps. -/
structure State where
  method : MethodInfo
  cursor : Cursor
  labels : List (String × InstrId) := []

namespace State

/-- The instruction that an anchor names. -/
def resolve (st : State) : Anchor → Except Error InstrId
  | .id i => .ok i
  | .label name =>
    match st.labels.lookup name with
    | some i => .ok i
    | none => .error (.invalidInstruction (.stated s!"unknown label '{name}'"))

/-- The operand that a draft stands for. -/
def operand (st : State) : Draft → Except Error Operand
  | .operand o => .ok o
  | .target a => return .target (← st.resolve a)
  | .targets as => return .targets (← as.mapM st.resolve)

/-- The exception region that a draft stands for. -/
def region (st : State) (r : RegionDraft) : Except Error Region := do
  return {
    flags := r.flags
    tryStart := ← st.resolve r.tryStart
    tryEnd := ← r.tryEnd.mapM st.resolve
    handlerStart := ← st.resolve r.handlerStart
    handlerEnd := ← r.handlerEnd.mapM st.resolve
    filterStart := ← r.filterStart.mapM st.resolve
    catchType := r.catchType }

/-- The state with a label for an instruction, if there is one to give. -/
def save (st : State) (label : Option String) (id : InstrId) : State :=
  match label with
  | some name => { st with labels := (name, id) :: st.labels }
  | none => st

/-- The state with another body and the cursor at its start. -/
def withBody (st : State) (b : MethodBody) : State := { st with cursor := { body := b } }

/-- The state with the cursor elsewhere. -/
def withCursor (st : State) (c : Cursor) : State := { st with cursor := c }

end State

/-- A step that may stop the script, and keeps the state in any case. -/
abbrev Run := ExceptT Stop (StateM State)

/-- Stops with an error where a computation has one. -/
def orStop {α : Type} (x : Except Error α) : Run α :=
  ExceptT.mk (pure (x.mapError .error))

/-- Stops with an error where an edit is refused. -/
def orRefuse {α : Type} (x : Except EditFault α) : Run α :=
  orStop (x.mapError .invalidInstruction)

/-- Adds a local variable several times and gives the last slot. -/
def addLocals (v : LocalVar) (times : Nat) : Run Answer := do
  let b := (← get).cursor.body
  modify (·.withBody (b.addLocals v times))
  if 0x10000 < b.locals.size + times then throw (.error (.failure .tooManyLocals))
  else if times = 0 then return .nothing
  else return .number (b.locals.size + times - 1)

/-- Repeats `round` at every instruction that is found, `limit` times at most, and
counts the rounds. -/
def forEach (p : Pattern) (round : Run Unit) : Nat → Nat → Run Answer
  | 0, count => return .number count
  | limit + 1, count => do
    let st ← get
    match st.cursor.gotoNext? p.accepts with
    | some c =>
      set (st.withCursor c)
      round
      forEach p round limit (count + 1)
    | none => return .number count

mutual

/-- Runs a step. -/
def Step.run : Step → Run Answer
  | .index => return .number (← get).cursor.index
  | .goto index => do
    let c := (← get).cursor.goto index
    modify (·.withCursor c)
    return .number c.index
  | .next => return .instruction (← get).cursor.next?
  | .prev => return .instruction (← get).cursor.prev?
  | .gotoNext p => do
    match (← get).cursor.gotoNext? p.accepts with
    | some c =>
      modify (·.withCursor c)
      return .flag true
    | none => return .flag false
  | .gotoPrev p => do
    match (← get).cursor.gotoPrev? p.accepts with
    | some c =>
      modify (·.withCursor c)
      return .flag true
    | none => return .flag false
  | .emit op operand label => do
    let st ← get
    let (id, c) := st.cursor.emit op (← orStop (st.operand operand))
    set ((st.withCursor c).save label id)
    return .id id
  | .remove => do
    let (result, c) := (← get).cursor.remove
    modify (·.withCursor c)
    return .instruction (some (← orRefuse result))
  | .replace op operand => do
    let st ← get
    let c ← orRefuse (st.cursor.replace op (← orStop (st.operand operand)))
    set (st.withCursor c)
    return .nothing
  | .mark label => do
    let st ← get
    let id ← orRefuse st.cursor.label
    set (st.save (some label) id)
    return .id id
  | .each p inner => forEach p (runAll inner) 1000 0
  | .restart => do
    modify fun st => st.withBody st.cursor.body
    return .nothing
  | .fail c text => do
    modify fun st => st.withBody st.cursor.body
    throw (.error (c.error text))
  | .panic words => throw (.panic words)
  | .bodyPush op operand label => do
    let st ← get
    let (id, b) := st.cursor.body.push op (← orStop (st.operand operand))
    set ((st.withBody b).save label id)
    return .id id
  | .bodyInsert index op operand label => do
    let st ← get
    let (id, b) := st.cursor.body.insert index op (← orStop (st.operand operand))
    set ((st.withBody b).save label id)
    return .id id
  | .bodyFresh label => do
    let st ← get
    let (id, b) := st.cursor.body.fresh
    set ((st.withBody b).save label id)
    return .id id
  | .bodyPushReserved anchor op operand => do
    let st ← get
    let id ← orStop (st.resolve anchor)
    set (st.withBody (st.cursor.body.pushReserved id op (← orStop (st.operand operand))))
    return .nothing
  | .bodyReplace index op operand => do
    let st ← get
    set (st.withBody st.cursor.body)
    let b ← orRefuse (st.cursor.body.replace index op (← orStop (st.operand operand)))
    set (st.withBody b)
    return .nothing
  | .bodyRemove index => do
    let st ← get
    match st.cursor.body.remove index with
    | some (gone, b) =>
      set (st.withBody b)
      return .instruction (some gone)
    | none =>
      set (st.withBody st.cursor.body)
      return .instruction none
  | .bodySetOperand index operand => do
    let st ← get
    set (st.withBody (st.cursor.body.setOperand index (← orStop (st.operand operand))))
    return .nothing
  | .bodyPosition anchor => do
    let st ← get
    set (st.withBody st.cursor.body)
    return .position (st.cursor.body.position? (← orStop (st.resolve anchor)))
  | .bodyGet anchor => do
    let st ← get
    set (st.withBody st.cursor.body)
    return .instruction (st.cursor.body.find? (← orStop (st.resolve anchor)))
  | .bodyLength => do
    let st ← get
    set (st.withBody st.cursor.body)
    return .length st.cursor.body.length st.cursor.body.isEmpty
  | .bodyAddLocal v times => addLocals v times
  | .bodyRegion r => do
    let st ← get
    let b := st.cursor.body
    set (st.withBody { b with regions := b.regions ++ [← orStop (st.region r)] })
    return .nothing
  | .bodyReferences => do
    let st ← get
    set (st.withBody st.cursor.body)
    return .ids st.cursor.body.referencedIds
  | .bodyMaxStack depth => do
    let st ← get
    set (st.withBody { st.cursor.body with maxStack := depth })
    return .nothing
  | .bodyEstimate => do
    let st ← get
    set (st.withBody st.cursor.body)
    return .number st.cursor.body.estimateMaxStack.toNat
  | .bodyMethod => do
    let st ← get
    set (st.withBody st.cursor.body)
    return .method st.method.id st.method.name
  | .bodyState => do
    let st ← get
    set (st.withBody st.cursor.body)
    return .body st.cursor.body

/-- Runs steps in order until one stops the script. -/
def runAll : List Step → Run Unit
  | [] => return ()
  | step :: rest => do
    let _ ← step.run
    runAll rest

end

/-- Runs every step on a body, also behind one that stops, and gives what each answers
and the body at the end. -/
def trace (m : MethodInfo) (b : MethodBody) (steps : List Step) :
    List (Except Stop Answer) × MethodBody :=
  let run (acc : List (Except Stop Answer) × State) (step : Step) :=
    let (answer, st) := step.run.run acc.2
    (answer :: acc.1, st)
  let (answers, st) := steps.foldl run ([], { method := m, cursor := { body := b } })
  (answers.reverse, st.cursor.body)

/-- A script as a manipulator.  It fails where the first step stops. -/
def manipulator (identity : Nat) (label : Option String) (steps : List Step) : Manipulator where
  identity
  label
  run m b :=
    match (runAll steps).run { method := m, cursor := { body := b } } with
    | (.ok (), st) => .edited st.cursor.body
    | (.error (.error e), st) => ⟨st.cursor.body, .failed e⟩
    | (.error (.panic words), st) => ⟨st.cursor.body, .panicked words⟩

end Script
end HookImage
