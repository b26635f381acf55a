/-
# Quoted text

The form in which a string is shown inside a message: between double quotes, with
a backslash before the quote and the backslash, the usual letters for tab, line
feed, carriage return and NUL, and the number of every other character that has
no glyph.  An apostrophe and every other visible character stand for themselves.
-/

import HookImage.Text.Blank
import HookImage.Text.Hex

namespace HookImage
namespace Text

/-- One character as it is written between quotes. -/
def escape (c : Char) : String :=
  match c with
  | '"' => "\\\""
  | '\\' => "\\\\"
  | '\n' => "\\n"
  | '\r' => "\\r"
  | '\t' => "\\t"
  | '\x00' => "\\0"
  | _ => if isBlank c then "\\u\x7b" ++ hexNat c.toNat ++ "\x7d" else c.toString

/-- A string in double quotes. -/
def quote (s : String) : String :=
  "\"" ++ String.join (s.toList.map escape) ++ "\""

end Text
end HookImage
