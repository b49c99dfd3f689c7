import DefForms.Node.Basic

set_option autoImplicit false

/-! # Surface text

`Node.surface` writes a tree in the notation in which programs are written: one space between the
parts of a form, none elsewhere. A definition is written as the call that it stands for, so the
surface text does not show whether definitions have been recognised. -/

namespace DefForms

/-- An entry is written `name:Type`. -/
def Param.surface (entry : Param) : List Char :=
  entry.name.text.toList ++ ':' :: entry.type.text.toList

/-- The entries of a list, with one space between two of them. -/
def Param.surfaceAll : List Param → List Char
  | [] => []
  | [entry] => entry.surface
  | entry :: next :: rest => entry.surface ++ ' ' :: Param.surfaceAll (next :: rest)

/-- A parameter list is written in square brackets. -/
def ParamList.surface (params : ParamList) : List Char :=
  '[' :: (Param.surfaceAll params.entries ++ [']'])

mutual

/-- The text of a node in program notation. -/
def Node.surface : Node → List Char
  | .int numeral => numeral.text.toList
  | .float numeral => numeral.text.toList
  | .operator op => [op.symbol]
  | .term name => name.text.toList
  | .call _ head args => '(' :: (head.text.toList ++ (Node.surfaceSpaced args ++ [')']))
  | .param entry => entry.surface
  | .paramList params => params.surface
  | .definition _ name params body =>
      '(' :: (definitionKeyword.toList ++ ' ' :: (name.text.toList ++ ' ' :: (params.surface
        ++ (Node.surfaceSpaced body ++ [')']))))

/-- The texts of several nodes, each after a space. -/
def Node.surfaceSpaced : List Node → List Char
  | [] => []
  | node :: rest => ' ' :: (node.surface ++ Node.surfaceSpaced rest)

end

/-- The surface text of a node as a string. -/
def Node.surfaceText (node : Node) : String :=
  String.ofList node.surface

/-- The surface texts of the nodes of a program, one on each line. -/
def Node.surfaceLines : List Node → List Char
  | [] => []
  | [node] => node.surface
  | node :: next :: rest => node.surface ++ '\n' :: Node.surfaceLines (next :: rest)

end DefForms
