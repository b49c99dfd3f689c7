import DefForms.Text.Extender
import DefForms.Text.Ignorable
import DefForms.Text.Unprintable

set_option autoImplicit false

/-! # Characters shown in messages

A message names a character of the source. Most characters stand for themselves. Quotes, the
backslash and a few controls have short escapes. A character that could not be seen, or that would
be drawn on its neighbour, is given by its code point in hexadecimal. -/

namespace DefForms.Text

/-- The code point of a character in braces, in hexadecimal digits without padding. -/
def codePointEscape (c : Char) : String :=
  "\\u\x7b" ++ String.ofList (Nat.toDigits 16 c.toNat) ++ "\x7d"

/-- The text that shows a character in a message. -/
def showChar (c : Char) : String :=
  match c with
  | '\x00' => "\\0"
  | '\t' => "\\t"
  | '\r' => "\\r"
  | '\n' => "\\n"
  | '\'' => "\\'"
  | '"' => "\\\""
  | '\\' => "\\\\"
  | c =>
    if isOverlaid c || isIgnorable c || isUnprintable c then codePointEscape c
    else String.singleton c

end DefForms.Text
