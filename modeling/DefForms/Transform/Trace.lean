import DefForms.Node.Surface
import DefForms.Transform.Basic

set_option autoImplicit false

/-! # Watching a pass

The same pass can be run with a log of the nodes that are given to handlers, in order. The log is
kept when the pass fails. -/

namespace DefForms

/-- Handlers that can fail. -/
abbrev Fallible := Except Diagnostic

/-- Effects of a watched pass: a handler may fail, and the log outlives the failure. -/
abbrev Watched := ExceptT Diagnostic (StateM (List Node))

/-- Write a node into the log, then handle it. -/
def Handler.watch (handler : Handler Fallible) : Handler Watched := fun node => do
  modify fun log => log ++ [node]
  match handler node with
  | .ok result => pure result
  | .error diagnostic => throwThe Diagnostic diagnostic

/-- Watch every handler of a set. -/
def Handlers.watch (handlers : Handlers Fallible) : Handlers Watched :=
  ⟨fun kind => (handlers.handler? kind).map Handler.watch⟩

/-- Transform several nodes; also return the nodes that were given to handlers. -/
def Node.transformAllWatched (handlers : Handlers Fallible) (nodes : List Node) :
    Fallible (List Node) × List Node :=
  (Node.transformAll handlers.watch nodes).run.run []

/-- Transform a node; also return the nodes that were given to handlers. -/
def Node.transformWatched (handlers : Handlers Fallible) (node : Node) :
    Fallible Node × List Node :=
  (node.transform handlers.watch).run.run []

/-- The line of a log for a node. -/
def Node.logLine (node : Node) : String :=
  node.kind.name ++ "@" ++ node.line.repr ++ " " ++ node.surfaceText

end DefForms
