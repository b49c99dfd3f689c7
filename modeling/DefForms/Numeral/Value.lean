import DefForms.Diagnostic
import DefForms.Node.Basic
import DefForms.Numeral.Integer
import DefForms.Numeral.Shortest

set_option autoImplicit false

/-! # The value of a numeral

Numerals keep their text, and any text may stand in a tree that was built by hand. Here the text is
read; a text that is no literal, or whose value has no room, is reported with the line of the
numeral. -/

namespace DefForms

/-- The value as an integer of 64 bits. -/
def Numeral.intValue (numeral : Numeral) : Except Diagnostic Int :=
  match Integer.read numeral.text.toList with
  | .ok value => .ok value
  | .error fault =>
    .error (.atLine .parse
      ("invalid integer literal `" ++ numeral.text ++ "`: " ++ fault.message) (some numeral.line)
      none)

/-- The value as a floating-point number of 64 bits. -/
def Numeral.floatValue (numeral : Numeral) : Except Diagnostic Binary64 :=
  match Binary64.read numeral.text.toList with
  | .ok value => .ok value
  | .error fault =>
    .error (.atLine .parse
      ("invalid float literal `" ++ numeral.text ++ "`: " ++ fault.message) (some numeral.line)
      none)

end DefForms
