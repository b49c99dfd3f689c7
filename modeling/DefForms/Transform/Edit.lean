import DefForms.Node.Basic

set_option autoImplicit false

/-! # Edits

Small total changes to a node, for use in handlers. An edit that does not fit a node leaves it as it
is. -/

namespace DefForms

namespace Node

/-- Change a name: the text of a term, the head of a call if it is a term, the name of a
    definition. -/
def rename (old new : String) : Node → Node
  | .term name => .term (if name.text = old then { name with text := new } else name)
  | .call line (.term name) args =>
      .call line (.term (if name.text = old then { name with text := new } else name)) args
  | .definition line name params body =>
      .definition line (if name.text = old then { name with text := new } else name) params body
  | node => node

/-- Append to the text of a numeral or a term, or to the name of an entry. -/
def suffix (text : String) : Node → Node
  | .int numeral => .int { numeral with text := numeral.text ++ text }
  | .float numeral => .float { numeral with text := numeral.text ++ text }
  | .term name => .term { name with text := name.text ++ text }
  | .param entry => .param { entry with name := { entry.name with text := entry.name.text ++ text } }
  | node => node

/-- Change the nodes or entries that a node holds, at its end. The parameter list of a definition is
    not touched. -/
def mapHeld (nodes : List Node → List Node) (entries : List Param → List Param) : Node → Node
  | .call line head args => .call line head (nodes args)
  | .paramList params => .paramList { params with entries := entries params.entries }
  | .definition line name params body => .definition line name params (nodes body)
  | node => node

/-- Drop what a node holds. -/
def clear : Node → Node := mapHeld (fun _ => []) (fun _ => [])

/-- Reverse what a node holds. -/
def reverse : Node → Node := mapHeld List.reverse List.reverse

/-- The call of a name with the node as its only argument. -/
def wrap (name : String) (node : Node) : Node :=
  .call node.line (.term ⟨node.line, name⟩) [node]

/-- A call with arguments becomes its first argument. -/
def unwrap : Node → Node
  | .call _ _ (first :: _) => first
  | node => node

/-- A call becomes its head. -/
def takeHead : Node → Node
  | .call _ head _ => head.toNode
  | node => node

/-- A definition becomes the call that it stands for. -/
def undefine : Node → Node
  | .definition line name params body =>
      .call line (.term ⟨line, definitionKeyword⟩) (.term name :: .paramList params :: body)
  | node => node

/-- Change the line of a node, but not of its parts. -/
def setLine (line : Nat) : Node → Node
  | .int numeral => .int { numeral with line }
  | .float numeral => .float { numeral with line }
  | .operator op => .operator { op with line }
  | .term name => .term { name with line }
  | .call _ head args => .call line head args
  | .param entry => .param { entry with line }
  | .paramList params => .paramList { params with line }
  | .definition _ name params body => .definition line name params body

end Node

end DefForms
