set_option autoImplicit false

/-! # Syntax trees

The tree of a program text is a list of `Node`s. Leaves are numerals, operators and terms; a `call`
is a head with arguments; a `paramList` holds `name:Type` entries; a `definition` is the form that a
call headed by the keyword `def` stands for.

Every construct records the line (counted from 1) on which its own text starts. Numerals keep their
text as written: two spellings of one number are two different nodes, and their value is computed
only where it is asked for. -/

namespace DefForms

/-- The head that marks a call as a definition. -/
def definitionKeyword : String := "def"

/-- A name: for a term that was read, a letter followed by letters, digits and underscores. -/
structure Term where
  line : Nat
  text : String
deriving DecidableEq

/-- A number as it is written. -/
structure Numeral where
  line : Nat
  text : String
deriving DecidableEq

/-- An operator, written as a single character. -/
structure Operator where
  line : Nat
  symbol : Char
deriving DecidableEq

/-- The characters that are operators, in the order in which they are listed to users. -/
def Operator.symbols : List Char := ['+', '-', '/', '*', '%']

/-- One entry `name:Type` of a parameter list. -/
structure Param where
  line : Nat
  name : Term
  type : Term
deriving DecidableEq

/-- A bracketed list of parameters. -/
structure ParamList where
  line : Nat
  entries : List Param
deriving DecidableEq

/-- What stands first in a call. -/
inductive Head where
  | term (term : Term)
  | operator (operator : Operator)
deriving DecidableEq

/-- A syntax tree. -/
inductive Node where
  | int (numeral : Numeral)
  | float (numeral : Numeral)
  | operator (operator : Operator)
  | term (term : Term)
  | call (line : Nat) (head : Head) (args : List Node)
  | param (param : Param)
  | paramList (params : ParamList)
  | definition (line : Nat) (name : Term) (params : ParamList) (body : List Node)

/-- The constructor that a node is built with. -/
inductive Kind where
  | int
  | float
  | operator
  | term
  | call
  | param
  | paramList
  | definition
deriving DecidableEq

/-- Every kind, in the order in which kinds are listed to users. -/
def Kind.all : List Kind :=
  [.int, .float, .operator, .term, .call, .param, .paramList, .definition]

/-- The name of a kind in messages and in tree text. -/
def Kind.name : Kind → String
  | .int => "Int"
  | .float => "Float"
  | .operator => "Operator"
  | .term => "Term"
  | .call => "Call"
  | .param => "Arg"
  | .paramList => "ArgList"
  | .definition => "Def"

theorem Kind.mem_all (kind : Kind) : kind ∈ Kind.all := by
  cases kind <;> decide

/-- The text of a head. -/
def Head.text : Head → String
  | .term name => name.text
  | .operator op => String.singleton op.symbol

/-- The line of a head. -/
def Head.line : Head → Nat
  | .term name => name.line
  | .operator op => op.line

/-- A head as a node of its own. -/
def Head.toNode : Head → Node
  | .term name => .term name
  | .operator op => .operator op

/-- The head is the term with this text. An operator is never named. -/
def Head.isNamed (name : String) : Head → Bool
  | .term found => found.text == name
  | .operator _ => false

/-- The kind of a node. -/
def Node.kind : Node → Kind
  | .int _ => .int
  | .float _ => .float
  | .operator _ => .operator
  | .term _ => .term
  | .call _ _ _ => .call
  | .param _ => .param
  | .paramList _ => .paramList
  | .definition _ _ _ _ => .definition

/-- The line on which a node starts. -/
def Node.line : Node → Nat
  | .int numeral => numeral.line
  | .float numeral => numeral.line
  | .operator op => op.line
  | .term name => name.line
  | .call line _ _ => line
  | .param entry => entry.line
  | .paramList params => params.line
  | .definition line _ _ _ => line

/-! ## Deciding equality

Trees are nested through lists of nodes, so the test recurses on a tree and on a list of trees at
once. Lines count: the same text read on two lines gives two different nodes. -/

mutual

/-- The two trees are equal. -/
def Node.same : Node → Node → Bool
  | .int a, .int b => decide (a = b)
  | .float a, .float b => decide (a = b)
  | .operator a, .operator b => decide (a = b)
  | .term a, .term b => decide (a = b)
  | .call line head args, .call line' head' args' =>
      decide (line = line') && decide (head = head') && Node.sameAll args args'
  | .param a, .param b => decide (a = b)
  | .paramList a, .paramList b => decide (a = b)
  | .definition line name params body, .definition line' name' params' body' =>
      decide (line = line') && decide (name = name') && decide (params = params')
        && Node.sameAll body body'
  | _, _ => false

/-- The two lists hold equal trees in the same order. -/
def Node.sameAll : List Node → List Node → Bool
  | [], [] => true
  | a :: as, b :: bs => Node.same a b && Node.sameAll as bs
  | _, _ => false

end

mutual

theorem Node.same_iff (a b : Node) : Node.same a b = true ↔ a = b := by
  cases a <;> cases b <;> simp [Node.same]
  case call.call line head args line' head' args' =>
    rw [Node.sameAll_iff args args', and_assoc]
  case definition.definition line name params body line' name' params' body' =>
    rw [Node.sameAll_iff body body', and_assoc, and_assoc]

theorem Node.sameAll_iff (as bs : List Node) : Node.sameAll as bs = true ↔ as = bs := by
  match as, bs with
  | [], [] => simp [Node.sameAll]
  | [], _ :: _ => simp [Node.sameAll]
  | _ :: _, [] => simp [Node.sameAll]
  | a :: as, b :: bs => simp [Node.sameAll, Node.same_iff a b, Node.sameAll_iff as bs]

end

instance : DecidableEq Node := fun a b =>
  decidable_of_iff (Node.same a b = true) (Node.same_iff a b)

end DefForms
