import DefForms.Numeral.Binary64
import DefForms.Numeral.Digits

set_option autoImplicit false

/-! # Float literals

A float literal is an optional sign and then either a number (digits with at most one point, at
least one digit, and an optional power of ten) or one of the words for infinity and for what is not
a number, in letters of either case. Its value is the nearest `Binary64`. -/

namespace DefForms

/-- Why a text is no float literal. -/
inductive FloatFault where
  /-- There is no text. -/
  | empty
  /-- The text has the wrong form. -/
  | invalid
deriving DecidableEq

/-- The wording of a fault. -/
def FloatFault.message : FloatFault → String
  | .empty => "cannot parse float from empty string"
  | .invalid => "invalid float literal"

/-- A number `digits * 10 ^ exponent` without a sign. -/
structure Decimal where
  digits : List Char
  exponent : Int
deriving DecidableEq

namespace Decimal

/-- A positive number with its point at `place` (it is below `10 ^ place`, and not below
    `10 ^ (place - 1)`) is too great for the format if its place is above this one. -/
def greatestPlace : Int := 310

/-- A positive number with its point at a place below this one is nearer to zero than to any other
    number of the format. -/
def leastPlace : Int := -330

/-- The nearest number of the format. The bounds on the place of the point are wide; they keep the
    powers of ten below small. -/
def toBinary64 (negative : Bool) (d : Decimal) : Binary64 :=
  let digits := d.digits.dropWhile (· == '0')
  let place := d.exponent + digits.length
  if digits.isEmpty then .zero negative
  else if greatestPlace < place then .infinite negative
  else if place < leastPlace then .zero negative
  else
    .ofRatio negative (digitsValue digits * Nat.pow 10 d.exponent.toNat)
      (Nat.pow 10 (-d.exponent).toNat)

/-- The power of ten that ends a number: a mark, an optional sign and digits. Without any text the
    power is zero. -/
def readPower : List Char → Option Int
  | [] => some 0
  | mark :: rest =>
    if mark = 'e' ∨ mark = 'E' then
      let (negative, digits) :=
        match rest with
        | '+' :: digits => (false, digits)
        | '-' :: digits => (true, digits)
        | digits => (false, digits)
      if digits.isEmpty ∨ !digits.all Char.isDigit then none
      else if negative then some (-(digitsValue digits : Int))
      else some (digitsValue digits)
    else none

/-- The digits behind the point, if there is a point, and the text behind them. -/
def readFraction : List Char → List Char × List Char
  | '.' :: rest => (rest.takeWhile Char.isDigit, rest.dropWhile Char.isDigit)
  | text => ([], text)

/-- A number without a sign. -/
def read (text : List Char) : Option Decimal :=
  let whole := text.takeWhile Char.isDigit
  let (fraction, rest) := readFraction (text.dropWhile Char.isDigit)
  if whole.isEmpty ∧ fraction.isEmpty then none
  else
    match readPower rest with
    | some power => some ⟨whole ++ fraction, power - fraction.length⟩
    | none => none

end Decimal

namespace Binary64

/-- The value of a word for a number that is not finite. -/
def ofWord (negative : Bool) (word : List Char) : Option Binary64 :=
  match String.ofList (word.map Char.toLower) with
  | "inf" => some (.infinite negative)
  | "infinity" => some (.infinite negative)
  | "nan" => some .nan
  | _ => none

/-- The value of a float literal behind its sign. -/
def readUnsigned (negative : Bool) (text : List Char) : Except FloatFault Binary64 :=
  match Decimal.read text with
  | some d => .ok (d.toBinary64 negative)
  | none =>
    match ofWord negative text with
    | some value => .ok value
    | none => .error .invalid

/-- The value of a float literal. -/
def read : List Char → Except FloatFault Binary64
  | [] => .error .empty
  | '+' :: text => readUnsigned false text
  | '-' :: text => readUnsigned true text
  | text => readUnsigned false text

end Binary64

end DefForms
