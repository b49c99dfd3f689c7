import DefForms.Json.Parser
import DefForms.Numeral.Digits
import DefForms.Tree.Writer

set_option autoImplicit false

/-! # Reading tree text

Reads what `Tree/Writer` writes, and a little more: the fields of an object may come in any order,
fields that are not known are passed over, and a structure may also be an array of its components in
order. A known field that is missing or given twice is refused, and so is a tree that opens more
than `maxLevels` arrays and objects inside each other; unknown fields do not count.

Each function below takes the number of levels that may still be opened. -/

namespace DefForms

/-- The arrays and objects that may be open at one place of a tree text. -/
def maxLevels : Nat := 127

/-- Line numbers are below this bound, the first number that does not fit into 64 bits. -/
def lineBound : Nat := 18446744073709551616

namespace Json

/-- The text that a string denotes. -/
def text? : Json → Option String
  | .str written => (JsonText.decode written).map String.ofList
  | _ => none

/-- The character that a string of one character denotes. -/
def char? : Json → Option Char
  | .str written =>
    match JsonText.decode written with
    | some [c] => some c
    | _ => none
  | _ => none

/-- The line number that a number stands for: digits only, and below `lineBound`. -/
def line? : Json → Option Nat
  | .num literal =>
    if literal.all Char.isDigit ∧ digitsValue literal < lineBound then some (digitsValue literal)
    else none
  | _ => none

/-- The key, as it is meant, and the value of a field. -/
def readField (field : List Char × Json) : Option (List Char × Json) :=
  match JsonText.decode field.1 with
  | some key => some (key, field.2)
  | none => none

/-- The value of the only field with this name. -/
def only? (fields : List (List Char × Json)) (name : String) : Option Json :=
  match fields.filter fun field => field.1 == name.toList with
  | [(_, value)] => some value
  | _ => none

/-- The components of a structure with these field names, in this order. -/
def components? (names : List String) : Json → Option (List Json)
  | .arr items => if items.length = names.length then some items else none
  | .obj fields =>
    match fields.mapM readField with
    | some known => names.mapM (only? known)
    | none => none
  | _ => none

/-- The tag and the content of a value that is one of several kinds. -/
def variant? : Json → Option (String × Json)
  | .obj [field] =>
    match readField field with
    | some (tag, content) => some (String.ofList tag, content)
    | none => none
  | _ => none

end Json

/-- Read a structure of a line and one more component. -/
def readLined {α β : Type} (name : String) (component : Json → Option α) (build : Nat → α → β) :
    Nat → Json → Option β
  | 0, _ => none
  | _ + 1, json =>
    match json.components? ["line", name] with
    | some [line, other] =>
      match line.line?, component other with
      | some line, some value => some (build line value)
      | _, _ => none
    | _ => none

/-- Read a term. -/
def Term.ofTree? : Nat → Json → Option Term := readLined "text" Json.text? Term.mk

/-- Read a numeral. -/
def Numeral.ofTree? : Nat → Json → Option Numeral := readLined "tokens" Json.text? Numeral.mk

/-- Read an operator. Any single character is taken. -/
def Operator.ofTree? : Nat → Json → Option Operator := readLined "symbol" Json.char? Operator.mk

/-- Read an entry. -/
def Param.ofTree? : Nat → Json → Option Param
  | 0, _ => none
  | levels + 1, json =>
    match json.components? ["line", "term", "term_type"] with
    | some [line, name, type] =>
      match line.line?, Term.ofTree? levels name, Term.ofTree? levels type with
      | some line, some name, some type => some ⟨line, name, type⟩
      | _, _, _ => none
    | _ => none

/-- Read a parameter list. -/
def ParamList.ofTree? : Nat → Json → Option ParamList
  | levels + 2, json =>
    match json.components? ["line", "args"] with
    | some [line, .arr entries] =>
      match line.line?, entries.mapM (Param.ofTree? levels) with
      | some line, some entries => some ⟨line, entries⟩
      | _, _ => none
    | _ => none
  | _, _ => none

/-- Read a head. -/
def Head.ofTree? : Nat → Json → Option Head
  | 0, _ => none
  | levels + 1, json =>
    match json.variant? with
    | some ("Term", content) => (Term.ofTree? levels content).map .term
    | some ("Operator", content) => (Operator.ofTree? levels content).map .operator
    | _ => none

/-- Read a node that holds no other nodes. -/
def Node.leafOfTree? (levels : Nat) (tag : String) (content : Json) : Option Node :=
  match tag with
  | "Int" => (Numeral.ofTree? levels content).map .int
  | "Float" => (Numeral.ofTree? levels content).map .float
  | "Operator" => (Operator.ofTree? levels content).map .operator
  | "Term" => (Term.ofTree? levels content).map .term
  | "Arg" => (Param.ofTree? levels content).map .param
  | "ArgList" => (ParamList.ofTree? levels content).map .paramList
  | _ => none

/-- Read a node. Three levels lie between a node and those that it holds: the object with the tag,
    the structure in it, and the array of nodes in that. -/
def Node.ofTree? : Nat → Json → Option Node
  | levels + 3, json =>
    match json.variant? with
    | some ("Call", content) =>
      match content.components? ["line", "name", "args"] with
      | some [line, head, .arr args] =>
        match line.line?, Head.ofTree? (levels + 1) head, args.mapM (Node.ofTree? levels) with
        | some line, some head, some args => some (.call line head args)
        | _, _, _ => none
      | _ => none
    | some ("Def", content) =>
      match content.components? ["line", "name", "args", "body"] with
      | some [line, name, params, .arr body] =>
        match line.line?, Term.ofTree? (levels + 1) name, ParamList.ofTree? (levels + 1) params,
          body.mapM (Node.ofTree? levels) with
        | some line, some name, some params, some body => some (.definition line name params body)
        | _, _, _, _ => none
      | _ => none
    | some (tag, content) => Node.leafOfTree? (levels + 2) tag content
    | none => none
  | 2, json =>
    match json.variant? with
    | some (tag, content) => Node.leafOfTree? 1 tag content
    | none => none
  | _, _ => none

/-- Read the tree text of one node. -/
def Node.ofTreeText? (text : String) : Option Node :=
  match Json.parse text.toList with
  | some json => Node.ofTree? maxLevels json
  | none => none

/-- Read the tree text of a program. -/
def nodesOfTreeText? (text : String) : Option (List Node) :=
  match Json.parse text.toList with
  | some (.arr items) => items.mapM (Node.ofTree? (maxLevels - 1))
  | _ => none

end DefForms
