import DefForms.Json.Basic

set_option autoImplicit false

/-! # Writing JSON texts

Two layouts of one structure: `compact` without any space, and `indented` with one item on each line
and two spaces for each level. An empty array or object is closed at once in both.

Each function takes the text that comes behind what it writes, so that nothing is copied when a
value is nested in another one. -/

namespace DefForms.Json

/-- Write a string literal with this inside. -/
def writeQuoted (written rest : List Char) : List Char := '"' :: (written ++ '"' :: rest)

/-- Write a truth value. -/
def writeBool (value : Bool) (rest : List Char) : List Char :=
  (if value then "true".toList else "false".toList) ++ rest

/-! ## Without spaces -/

mutual

/-- Write a value without any space. -/
def writeCompact : Json → List Char → List Char
  | .null, rest => "null".toList ++ rest
  | .bool value, rest => writeBool value rest
  | .num literal, rest => literal ++ rest
  | .str written, rest => writeQuoted written rest
  | .arr [], rest => '[' :: ']' :: rest
  | .arr (item :: more), rest => '[' :: item.writeCompact (writeCompactItems more (']' :: rest))
  | .obj [], rest => '\x7b' :: '\x7d' :: rest
  | .obj ((key, value) :: more), rest =>
      '\x7b' :: writeQuoted key (':' :: value.writeCompact (writeCompactFields more ('\x7d' :: rest)))

/-- Write the items of an array behind the first, each after a comma. -/
def writeCompactItems : List Json → List Char → List Char
  | [], rest => rest
  | item :: more, rest => ',' :: item.writeCompact (writeCompactItems more rest)

/-- Write the fields of an object behind the first, each after a comma. -/
def writeCompactFields : List (List Char × Json) → List Char → List Char
  | [], rest => rest
  | (key, value) :: more, rest =>
      ',' :: writeQuoted key (':' :: value.writeCompact (writeCompactFields more rest))

end

/-- The text of a value without any space. -/
def compact (json : Json) : List Char := json.writeCompact []

/-! ## With one item on each line -/

/-- Write a line end and the indentation of a level. -/
def writeNewLine (level : Nat) (rest : List Char) : List Char :=
  '\n' :: (List.replicate (2 * level) ' ' ++ rest)

mutual

/-- Write a value that stands at this level, with one item on each line. -/
def writeIndented (level : Nat) : Json → List Char → List Char
  | .null, rest => "null".toList ++ rest
  | .bool value, rest => writeBool value rest
  | .num literal, rest => literal ++ rest
  | .str written, rest => writeQuoted written rest
  | .arr [], rest => '[' :: ']' :: rest
  | .arr (item :: more), rest =>
      '[' :: writeNewLine (level + 1) (item.writeIndented (level + 1)
        (writeIndentedItems (level + 1) more (writeNewLine level (']' :: rest))))
  | .obj [], rest => '\x7b' :: '\x7d' :: rest
  | .obj ((key, value) :: more), rest =>
      '\x7b' :: writeNewLine (level + 1) (writeQuoted key (':' :: ' ' ::
        value.writeIndented (level + 1)
          (writeIndentedFields (level + 1) more (writeNewLine level ('\x7d' :: rest)))))

/-- Write the items of an array behind the first, each after a comma on a new line. -/
def writeIndentedItems (level : Nat) : List Json → List Char → List Char
  | [], rest => rest
  | item :: more, rest =>
      ',' :: writeNewLine level (item.writeIndented level (writeIndentedItems level more rest))

/-- Write the fields of an object behind the first, each after a comma on a new line. -/
def writeIndentedFields (level : Nat) : List (List Char × Json) → List Char → List Char
  | [], rest => rest
  | (key, value) :: more, rest =>
      ',' :: writeNewLine level (writeQuoted key (':' :: ' ' ::
        value.writeIndented level (writeIndentedFields level more rest)))

end

/-- The text of a value with one item on each line. -/
def indented (json : Json) : List Char := json.writeIndented 0 []

end DefForms.Json
