import DefForms.Json.Basic

set_option autoImplicit false

/-! # Reading JSON texts

A strict reader: the grammar of JSON, with blanks between the parts and nothing behind the value.
Each function takes the text that is left and returns what it read with the text behind it. Reading
a value needs a bound on its recursion; `parse` supplies one that the text cannot exhaust, because
every two steps use up at least one character. -/

namespace DefForms.Json

/-- Blanks may stand between any two parts of a JSON text. -/
def isBlank (c : Char) : Bool := c == ' ' || c == '\t' || c == '\n' || c == '\r'

/-- The text without the blanks at its front. -/
def skip (text : List Char) : List Char := text.dropWhile isBlank

/-! ## Literals -/

/-- Put characters in front of a literal that was read. -/
def withFront (front : List Char) : Option (List Char × List Char) → Option (List Char × List Char)
  | some (literal, rest) => some (front ++ literal, rest)
  | none => none

/-- The inside of a string up to the quote that closes it, and the text behind that quote. Every
    escape must be one that JSON knows, and no control character may stand bare. -/
def scanString : List Char → Option (List Char × List Char)
  | [] => none
  | '"' :: rest => some ([], rest)
  | '\\' :: 'u' :: a :: b :: c :: d :: rest =>
    match JsonText.hexUnit? a b c d with
    | some _ => withFront ['\\', 'u', a, b, c, d] (scanString rest)
    | none => none
  | '\\' :: c :: rest =>
    match JsonText.shortEscape? c with
    | some _ => withFront ['\\', c] (scanString rest)
    | none => none
  | c :: rest =>
    if c = '\\' ∨ c.toNat < 32 then none else withFront [c] (scanString rest)

/-- The digits at the front of a text. There must be one. -/
def scanDigits (text : List Char) : Option (List Char × List Char) :=
  match text.takeWhile Char.isDigit with
  | [] => none
  | digit :: more => some (digit :: more, text.dropWhile Char.isDigit)

/-- The digits before the point: a zero alone, or digits that do not start with one. -/
def scanWhole : List Char → Option (List Char × List Char)
  | '0' :: rest => some (['0'], rest)
  | text => scanDigits text

/-- The point and the digits behind it, if there is a point. -/
def scanFraction : List Char → Option (List Char × List Char)
  | '.' :: rest => withFront ['.'] (scanDigits rest)
  | text => some ([], text)

/-- The power of ten, if there is one. -/
def scanExponent : List Char → Option (List Char × List Char)
  | mark :: '+' :: rest =>
    if mark = 'e' ∨ mark = 'E' then withFront [mark, '+'] (scanDigits rest)
    else some ([], mark :: '+' :: rest)
  | mark :: '-' :: rest =>
    if mark = 'e' ∨ mark = 'E' then withFront [mark, '-'] (scanDigits rest)
    else some ([], mark :: '-' :: rest)
  | mark :: rest =>
    if mark = 'e' ∨ mark = 'E' then withFront [mark] (scanDigits rest) else some ([], mark :: rest)
  | [] => some ([], [])

/-- A number without a sign. -/
def scanUnsigned (text : List Char) : Option (List Char × List Char) :=
  match scanWhole text with
  | none => none
  | some (whole, rest) =>
    match scanFraction rest with
    | none => none
    | some (fraction, rest) => withFront (whole ++ fraction) (scanExponent rest)

/-- A number. -/
def scanNumber : List Char → Option (List Char × List Char)
  | '-' :: rest => withFront ['-'] (scanUnsigned rest)
  | text => scanUnsigned text

/-! ## Values -/

/-- Read a value that is not an array or an object. -/
def scalar : List Char → Option (Json × List Char)
  | '"' :: rest =>
    match scanString rest with
    | some (written, rest) => some (.str written, rest)
    | none => none
  | 'n' :: 'u' :: 'l' :: 'l' :: rest => some (.null, rest)
  | 't' :: 'r' :: 'u' :: 'e' :: rest => some (.bool true, rest)
  | 'f' :: 'a' :: 'l' :: 's' :: 'e' :: rest => some (.bool false, rest)
  | text =>
    match scanNumber text with
    | some (literal, rest) => some (.num literal, rest)
    | none => none

/-- Read a key and the colon behind it. -/
def key (text : List Char) : Option (List Char × List Char) :=
  match skip text with
  | '"' :: rest =>
    match scanString rest with
    | none => none
    | some (written, rest) =>
      match skip rest with
      | ':' :: rest => some (written, rest)
      | _ => none
  | _ => none

mutual

/-- Read a value. -/
def value : Nat → List Char → Option (Json × List Char)
  | 0, _ => none
  | fuel + 1, text =>
    match skip text with
    | '[' :: rest =>
      match skip rest with
      | ']' :: rest => some (.arr [], rest)
      | rest =>
        match items fuel rest with
        | some (found, rest) => some (.arr found, rest)
        | none => none
    | '\x7b' :: rest =>
      match skip rest with
      | '\x7d' :: rest => some (.obj [], rest)
      | rest =>
        match fields fuel rest with
        | some (found, rest) => some (.obj found, rest)
        | none => none
    | text => scalar text

/-- Read the items of an array, of which there is at least one, and the bracket behind them. -/
def items : Nat → List Char → Option (List Json × List Char)
  | 0, _ => none
  | fuel + 1, text =>
    match value fuel text with
    | none => none
    | some (item, rest) =>
      match skip rest with
      | ']' :: rest => some ([item], rest)
      | ',' :: rest =>
        match items fuel rest with
        | some (found, rest) => some (item :: found, rest)
        | none => none
      | _ => none

/-- Read the fields of an object, of which there is at least one, and the brace behind them. -/
def fields : Nat → List Char → Option (List (List Char × Json) × List Char)
  | 0, _ => none
  | fuel + 1, text =>
    match key text with
    | none => none
    | some (name, rest) =>
      match value fuel rest with
      | none => none
      | some (item, rest) =>
        match skip rest with
        | '\x7d' :: rest => some ([(name, item)], rest)
        | ',' :: rest =>
          match fields fuel rest with
          | some (found, rest) => some ((name, item) :: found, rest)
          | none => none
        | _ => none

end

/-- Read a whole JSON text. -/
def parse (text : List Char) : Option Json :=
  match value (2 * text.length + 2) text with
  | none => none
  | some (found, rest) =>
    match skip rest with
    | [] => some found
    | _ :: _ => none

end DefForms.Json
