/-
# Exception regions

A protected range of instructions and the handler that belongs to it.  The boundaries
name instructions and not offsets, so they stay with their instructions while a body is
edited.  The starts are inclusive; an end is the first instruction behind the range, or
absent where the range reaches to the end of the body.
-/

import HookImage.Cil.Instruction

namespace HookImage

/-- An exception region. -/
structure Region where
  /-- The kind of the handler, as the bits of a written clause: none for a typed catch,
  `1` for a filter, `2` for a finally, `4` for a fault. -/
  flags : UInt16
  tryStart : InstrId
  tryEnd : Option InstrId
  handlerStart : InstrId
  handlerEnd : Option InstrId
  /-- Where the code of a filter begins. -/
  filterStart : Option InstrId := none
  /-- The type that a catch handles. -/
  catchType : Option TypeSig := none

namespace Region

/-- A handler for exceptions of a type. -/
def catching (tryStart : InstrId) (tryEnd : Option InstrId) (handlerStart : InstrId)
    (handlerEnd : Option InstrId) (type : TypeSig) : Region :=
  { flags := 0, tryStart, tryEnd, handlerStart, handlerEnd, catchType := some type }

/-- A handler that always runs. -/
def finalizing (tryStart : InstrId) (tryEnd : Option InstrId) (handlerStart : InstrId)
    (handlerEnd : Option InstrId) : Region :=
  { flags := 2, tryStart, tryEnd, handlerStart, handlerEnd }

/-- Whether a typed catch belongs to the region. -/
def isCatch (r : Region) : Bool := r.flags == 0

/-- Whether a filter decides about the handler. -/
def isFilter (r : Region) : Bool := r.flags &&& 1 == 1

/-- The instructions that the region names: the protected range, the handler, the
filter. -/
def anchors (r : Region) : List InstrId :=
  r.tryStart :: r.tryEnd.toList ++ r.handlerStart :: r.handlerEnd.toList ++ r.filterStart.toList

/-- The region after an instruction has gone.  Its successor takes its place; where it
was the last one, an end becomes the end of the body and a start is left as it is. -/
def retarget (r : Region) (gone : InstrId) (successor : Option InstrId) : Region :=
  let start (id : InstrId) := if id = gone then successor.getD id else id
  let stop (id : Option InstrId) := if id = some gone then successor else id
  { r with
    tryStart := start r.tryStart
    tryEnd := stop r.tryEnd
    handlerStart := start r.handlerStart
    handlerEnd := stop r.handlerEnd
    filterStart := r.filterStart.map start }

/-- The token of a catch type, if it is a plain imported type. -/
def catchToken? : TypeSig → Option Token
  | .reference (.token t) | .value (.token t) => some t
  | _ => none

end Region
end HookImage
