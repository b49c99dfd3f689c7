import DefForms.Diagnostic
import DefForms.Transform.Handlers

set_option autoImplicit false

/-! # The transforming pass

A pass goes over a tree from the leaves to the root. What a node holds is transformed first, from left
to right, and then the node, rebuilt from the results, is given to the handler of its kind. The
result of a handler is not visited again.

Heads, the name of a definition and the two terms of an entry are parts of their node and are never
visited. The entries of a parameter list and the parameter list of a definition are visited, but
the tree has room only for an entry or a parameter list there, so a handler that returns anything
else stops the pass. -/

namespace DefForms

/-- The handler of `kind` returned a node of another kind, for which the tree has no room. -/
def Diagnostic.unfit (kind : Kind) (message : String) (line : Nat) (found : Kind) : Diagnostic :=
  .atLine .structural message (some line)
    (some ("the " ++ kind.name ++ " handler returned a " ++ found.name ++ " node"))

/-- The handler of an entry returned a node of another kind. -/
def Diagnostic.notParam (line : Nat) (found : Kind) : Diagnostic :=
  .unfit .param "attempted to replace an arg in a list with a non-arg" line found

/-- The handler of a parameter list returned a node of another kind. -/
def Diagnostic.notParamList (line : Nat) (found : Kind) : Diagnostic :=
  .unfit .paramList "attempted to replace an arg list with a non-arg-list" line found

variable {m : Type → Type} [Monad m] [MonadExceptOf Diagnostic m]

/-- The entry that a node is, if it is one. The line is that of the entry it replaces. -/
def Node.asParam (line : Nat) : Node → m Param
  | .param entry => pure entry
  | other => throwThe Diagnostic (.notParam line other.kind)

/-- The parameter list that a node is, if it is one. The line is that of the list it replaces. -/
def Node.asParamList (line : Nat) : Node → m ParamList
  | .paramList params => pure params
  | other => throwThe Diagnostic (.notParamList line other.kind)

/-- Transform the entries of a parameter list. -/
def Param.transformAll (handlers : Handlers m) : List Param → m (List Param)
  | [] => pure []
  | entry :: rest => do
    let found ← handlers.apply (.param entry)
    let first ← found.asParam entry.line
    let more ← Param.transformAll handlers rest
    pure (first :: more)

/-- Transform a parameter list: its entries, then the list. -/
def ParamList.transform (handlers : Handlers m) (params : ParamList) : m ParamList := do
  let entries ← Param.transformAll handlers params.entries
  let found ← handlers.apply (.paramList ⟨params.line, entries⟩)
  found.asParamList params.line

mutual

/-- Transform a node: what it holds, then the node. -/
def Node.transform (handlers : Handlers m) : Node → m Node
  | .int numeral => handlers.apply (.int numeral)
  | .float numeral => handlers.apply (.float numeral)
  | .operator op => handlers.apply (.operator op)
  | .term name => handlers.apply (.term name)
  | .call line head args => do
    let args ← Node.transformAll handlers args
    handlers.apply (.call line head args)
  | .param entry => handlers.apply (.param entry)
  | .paramList params => do
    let params ← params.transform handlers
    pure (.paramList params)
  | .definition line name params body => do
    let params ← params.transform handlers
    let body ← Node.transformAll handlers body
    handlers.apply (.definition line name params body)

/-- Transform several nodes. Each one yields one node. -/
def Node.transformAll (handlers : Handlers m) : List Node → m (List Node)
  | [] => pure []
  | node :: rest => do
    let first ← Node.transform handlers node
    let more ← Node.transformAll handlers rest
    pure (first :: more)

end

end DefForms
