import DefForms.Numeral.Digits

set_option autoImplicit false

/-! # Integer literals

An integer literal is an optional sign and at least one digit, and its value must fit into 64 bits
with a sign. The digits are taken from left to right and reading stops at the first one that is no
digit or that takes the value out of range, so of two faults the one further left is reported. -/

namespace DefForms

/-- Why a text is no integer literal. -/
inductive IntegerFault where
  /-- There is no text. -/
  | empty
  /-- There is a character that is no digit, or no digit behind the sign. -/
  | invalidDigit
  /-- The value is above the greatest one. -/
  | tooLarge
  /-- The value is below the least one. -/
  | tooSmall
deriving DecidableEq

/-- The wording of a fault. -/
def IntegerFault.message : IntegerFault → String
  | .empty => "cannot parse integer from empty string"
  | .invalidDigit => "invalid digit found in string"
  | .tooLarge => "number too large to fit in target type"
  | .tooSmall => "number too small to fit in target type"

namespace Integer

/-- The least integer of 64 bits. -/
def least : Int := -9223372036854775808

/-- The greatest integer of 64 bits. -/
def greatest : Int := 9223372036854775807

/-- Read digits of a number that is not negative, of which `value` has been read. -/
def readUp (value : Int) : List Char → Except IntegerFault Int
  | [] => .ok value
  | c :: rest =>
    if c.isDigit then
      if value * 10 + digitValue c ≤ greatest then readUp (value * 10 + digitValue c) rest
      else .error .tooLarge
    else .error .invalidDigit

/-- Read digits of a negative number, of which `value` has been read. -/
def readDown (value : Int) : List Char → Except IntegerFault Int
  | [] => .ok value
  | c :: rest =>
    if c.isDigit then
      if least ≤ value * 10 - digitValue c then readDown (value * 10 - digitValue c) rest
      else .error .tooSmall
    else .error .invalidDigit

/-- The value of an integer literal. -/
def read : List Char → Except IntegerFault Int
  | [] => .error .empty
  | ['+'] => .error .invalidDigit
  | ['-'] => .error .invalidDigit
  | '+' :: digits => readUp 0 digits
  | '-' :: digits => readDown 0 digits
  | digits => readUp 0 digits

end Integer

end DefForms
