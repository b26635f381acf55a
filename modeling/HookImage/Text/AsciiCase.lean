/-
# Text without regard to case

Names of mnemonics, types and assemblies are compared without regard to the case of
the letters A to Z.  Every other character counts as it is.
-/

namespace HookImage
namespace Text

/-- The text with the letters A to Z in lower case. -/
def foldCase (s : String) : String := s.map Char.toLower

/-- Whether two texts are the same but for the case of the letters A to Z. -/
def sameName (s t : String) : Bool := foldCase s == foldCase t

/-- The text that the first `size` bytes of a text are in UTF-8.  There is none if the text has
fewer bytes, or if a character would be cut. -/
def leading? (s : String) (size : Nat) : Option String :=
  (s.pos? ⟨size⟩).map fun p => (s.sliceTo p).copy

/-- Whether a text begins with another but for the case of the letters A to Z.  As many bytes
are looked at as the other text has. -/
def beginsWith (s head : String) : Bool :=
  (leading? s head.utf8ByteSize).any (sameName · head)

end Text
end HookImage
