import DefForms.Json.Printer
import DefForms.Numeral.Value

set_option autoImplicit false

/-! # The inspection form

A plain JSON form of a tree for people and tools that look at a program: every node is an object
with its kind under `type`. Lines are left out, and numerals show their value. A numeral without a
value keeps its text, so that no digit is lost. The fields of an object stand in the order of their
names. -/

namespace DefForms

/-- A leaf with its kind and value. -/
def Json.leaf (type : String) (value : Json) : Json :=
  .record [("type", .text type), ("value", value)]

/-- The value that an integer shows: a number, or else its text. -/
def Numeral.shownInt (numeral : Numeral) : Json :=
  match numeral.intValue with
  | .ok value => .int value
  | .error _ => .text numeral.text

/-- The value that a float shows: a number if it is finite, null if it is not, or else its text. -/
def Numeral.shownFloat (numeral : Numeral) : Json :=
  match numeral.floatValue with
  | .ok value =>
    match value.write? with
    | some literal => .num literal
    | none => .null
  | .error _ => .text numeral.text

/-- A term. -/
def Term.inspect (term : Term) : Json := .leaf "Term" (.text term.text)

/-- An operator. -/
def Operator.inspect (operator : Operator) : Json :=
  .leaf "Operator" (.text (String.singleton operator.symbol))

/-- A head. -/
def Head.inspect : Head → Json
  | .term name => name.inspect
  | .operator op => op.inspect

/-- An entry of a parameter list. -/
def Param.inspect (param : Param) : Json :=
  .record
    [("term", param.name.inspect), ("termType", param.type.inspect), ("type", .text "Arg")]

/-- A parameter list. -/
def ParamList.inspect (params : ParamList) : Json :=
  .record [("args", .arr (params.entries.map Param.inspect)), ("type", .text "ArgList")]

mutual

/-- A node. -/
def Node.inspect : Node → Json
  | .int numeral => .leaf "Int" numeral.shownInt
  | .float numeral => .leaf "Float" numeral.shownFloat
  | .operator op => op.inspect
  | .term name => name.inspect
  | .call _ head args =>
      .record [("args", .arr (Node.inspectAll args)), ("name", head.inspect),
        ("type", .text "Call")]
  | .param entry => entry.inspect
  | .paramList params => params.inspect
  | .definition _ name params body =>
      .record [("args", params.inspect), ("body", .arr (Node.inspectAll body)),
        ("name", name.inspect), ("type", .text "Def")]

/-- Several nodes. -/
def Node.inspectAll : List Node → List Json
  | [] => []
  | node :: rest => node.inspect :: Node.inspectAll rest

end

/-- The inspection form of a program. -/
def inspection (nodes : List Node) : Json := .arr (Node.inspectAll nodes)

end DefForms
