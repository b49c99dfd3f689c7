import DefForms.Json.Text

set_option autoImplicit false

/-! # JSON texts as trees

A `Json` is the structure of a JSON text. Literals are kept as they are written: a number by its
characters and a string by the characters between its quotes. That is enough to write the text
again, and it leaves room for literals that are well formed but denote no value of ours, such as a
string with half of a surrogate pair. -/

namespace DefForms

/-- A JSON text. -/
inductive Json where
  | null
  | bool (value : Bool)
  /-- A number, as written. -/
  | num (literal : List Char)
  /-- A string, as written between the quotes. -/
  | str (written : List Char)
  | arr (items : List Json)
  /-- An object, with the keys as written between the quotes. -/
  | obj (fields : List (List Char × Json))

namespace Json

/-- The string that denotes `text`. -/
def text (text : String) : Json := .str (JsonText.encode text.toList)

/-- The number `n`. -/
def nat (n : Nat) : Json := .num (Nat.toDigits 10 n)

/-- The number `n`. -/
def int : Int → Json
  | .ofNat n => .num (Nat.toDigits 10 n)
  | .negSucc n => .num ('-' :: Nat.toDigits 10 (n + 1))

/-- An object with these fields, in this order. -/
def record (fields : List (String × Json)) : Json :=
  .obj (fields.map fun (key, value) => (JsonText.encode key.toList, value))

end Json

end DefForms
