import DefForms.Node.Surface
import DefForms.Transform.Basic

set_option autoImplicit false

/-! # Definitions

A call whose head is the keyword `def` stands for a definition: its first argument is the name, its
second the parameter list, and the others are the body. `expandDefinitions` turns each such call
into a `definition` node, from the inside to the outside, and fails at the first one that does not
have this shape. -/

namespace DefForms

/-- What is wrong with a call that should be a definition. The node is the one that stands in the
    place of the missing part, if there is one. -/
inductive DefinitionFault where
  /-- There is no name. -/
  | noName (found : Option Node)
  /-- There is a name but no parameter list behind it. -/
  | noParams (name : String) (found : Option Node)
deriving DecidableEq

/-- How definitions are written. -/
def definitionUsage : String := "write definitions as `(def name [arg:Type ...] body...)`"

/-- A node as it is shown in a message. -/
def describeFound : Option Node → String
  | some node => node.kind.name ++ " `" ++ node.surfaceText ++ "`"
  | none => "nothing"

/-- The wording of a fault. -/
def DefinitionFault.message : DefinitionFault → String
  | .noName found => "expected a valid name after `def`, found " ++ describeFound found
  | .noParams name found =>
      "expected an argument list after `def " ++ name ++ "`, found " ++ describeFound found

/-- The fault as a diagnostic, with the line of the call. -/
def DefinitionFault.diagnostic (line : Nat) (fault : DefinitionFault) : Diagnostic :=
  .atLine .validation fault.message (some line) (some definitionUsage)

/-- The definition at this line that has these arguments. -/
def definitionOfArgs (line : Nat) : List Node → Except DefinitionFault Node
  | .term name :: .paramList params :: body => .ok (.definition line name params body)
  | .term name :: rest => .error (.noParams name.text rest.head?)
  | args => .error (.noName args.head?)

/-- Turn a call with the keyword as its head into a definition. Other calls stay as they are, and
    nodes that are no calls are refused. -/
def Node.expandDefinition : Node → Except Diagnostic Node
  | .call line head args =>
    if head.isNamed definitionKeyword then
      match definitionOfArgs line args with
      | .ok node => .ok node
      | .error fault => .error (fault.diagnostic line)
    else .ok (.call line head args)
  | other =>
    .error (.atLine .internal ("def expansion received a " ++ other.kind.name ++ " node")
      (some other.line) none)

/-- The handler set that expands definitions. -/
def definitionHandlers : Handlers (Except Diagnostic) :=
  Handlers.empty.on .call Node.expandDefinition

/-- Expand all definitions. -/
def expandDefinitions (nodes : List Node) : Except Diagnostic (List Node) :=
  Node.transformAll definitionHandlers nodes

mutual

/-- The number of definitions in a node, itself included. -/
def Node.countDefinitions : Node → Nat
  | .definition _ _ _ body => 1 + Node.countDefinitionsIn body
  | .call _ _ args => Node.countDefinitionsIn args
  | .int _ | .float _ | .operator _ | .term _ | .param _ | .paramList _ => 0

/-- The number of definitions in several nodes. -/
def Node.countDefinitionsIn : List Node → Nat
  | [] => 0
  | node :: rest => node.countDefinitions + Node.countDefinitionsIn rest

end

end DefForms
