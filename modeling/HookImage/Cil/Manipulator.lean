/-
# Manipulators

A recorded transformation of a body.  It is given the method and a copy of its body, which
it edits, and it ends well, with an error, or by dying with or without words.  What it made
of the copy is there in any case.
-/

import HookImage.Cil.Body
import HookImage.Host.Descriptor

namespace HookImage

/-- How a run of a manipulator ends. -/
inductive Ending where
  | succeeded
  | failed (e : Error)
  /-- It died; the words are absent where it left none. -/
  | panicked (words : Option String)

/-- What a run of a manipulator leaves: the copy of the body, edited as far as the run came,
and how it ended. -/
structure Outcome where
  body : MethodBody
  ending : Ending

/-- A run that edited the body to its end. -/
def Outcome.edited (b : MethodBody) : Outcome := ⟨b, .succeeded⟩

/-- A recorded transformation. -/
structure Manipulator where
  /-- Which recorded object it is. -/
  identity : Nat
  /-- How the transformation describes itself. -/
  label : Option String := none
  run : MethodInfo → MethodBody → Outcome

/-- The description in messages. -/
def Manipulator.describe (m : Manipulator) : String := m.label.getD "<closure>"

end HookImage
