import DefForms.Json.Printer
import DefForms.Node.Basic

set_option autoImplicit false

/-! # Tree text

The tree text of a program is a JSON array with one item for each node. It shows everything that a
tree holds, lines included, so that a tree can be stored and read again (`Tree/Reader`). A structure
is an object with one field for each component. Where a value is one of several kinds, it is wrapped
in an object whose only key names the kind; where the kind is known from the place, such as the
entries of a parameter list, it is not wrapped. -/

namespace DefForms

/-- A value of one of several kinds. -/
def Json.tagged (tag : String) (content : Json) : Json := .record [(tag, content)]

/-- The fields of a term. -/
def Term.tree (term : Term) : Json :=
  .record [("line", .nat term.line), ("text", .text term.text)]

/-- The fields of a numeral. -/
def Numeral.tree (numeral : Numeral) : Json :=
  .record [("line", .nat numeral.line), ("tokens", .text numeral.text)]

/-- The fields of an operator. -/
def Operator.tree (operator : Operator) : Json :=
  .record [("line", .nat operator.line), ("symbol", .text (String.singleton operator.symbol))]

/-- The fields of an entry. -/
def Param.tree (param : Param) : Json :=
  .record [("line", .nat param.line), ("term", param.name.tree), ("term_type", param.type.tree)]

/-- The fields of a parameter list. -/
def ParamList.tree (params : ParamList) : Json :=
  .record [("line", .nat params.line), ("args", .arr (params.entries.map Param.tree))]

/-- A head, wrapped. -/
def Head.tree : Head → Json
  | .term name => .tagged "Term" name.tree
  | .operator op => .tagged "Operator" op.tree

mutual

/-- A node, wrapped. -/
def Node.tree : Node → Json
  | .int numeral => .tagged "Int" numeral.tree
  | .float numeral => .tagged "Float" numeral.tree
  | .operator op => .tagged "Operator" op.tree
  | .term name => .tagged "Term" name.tree
  | .call line head args =>
      .tagged "Call"
        (.record [("line", .nat line), ("name", head.tree), ("args", .arr (Node.trees args))])
  | .param entry => .tagged "Arg" entry.tree
  | .paramList params => .tagged "ArgList" params.tree
  | .definition line name params body =>
      .tagged "Def"
        (.record [("line", .nat line), ("name", name.tree), ("args", params.tree),
          ("body", .arr (Node.trees body))])

/-- Several nodes, each wrapped. -/
def Node.trees : List Node → List Json
  | [] => []
  | node :: rest => node.tree :: Node.trees rest

end

/-- The tree text of a program. -/
def treeText (nodes : List Node) : List Char :=
  (Json.arr (Node.trees nodes)).compact

end DefForms
