import DefForms.Node.Basic

set_option autoImplicit false

/-! # Handler sets

A transforming pass is given by at most one handler for each kind of node. A handler may fail or have
other effects; `m` is the monad of these effects. Nodes of a kind without a handler stay as they
are. -/

namespace DefForms

/-- What is done with a node. -/
abbrev Handler (m : Type → Type) := Node → m Node

/-- At most one handler for each kind. -/
structure Handlers (m : Type → Type) where
  handler? : Kind → Option (Handler m)

namespace Handlers

variable {m : Type → Type}

/-- No handler at all. -/
def empty : Handlers m := ⟨fun _ => none⟩

/-- Set the handler of a kind. An earlier one is replaced. -/
def on (handlers : Handlers m) (kind : Kind) (handler : Handler m) : Handlers m :=
  ⟨fun k => if k = kind then some handler else handlers.handler? k⟩

/-- The kind has a handler. -/
def contains (handlers : Handlers m) (kind : Kind) : Bool := (handlers.handler? kind).isSome

/-- The kinds that have a handler, in the order of `Kind.all`. -/
def kinds (handlers : Handlers m) : List Kind := Kind.all.filter handlers.contains

/-- No kind has a handler. -/
def isEmpty (handlers : Handlers m) : Bool := handlers.kinds.isEmpty

/-- The set as text: the names of the kinds that have a handler. -/
def describe (handlers : Handlers m) : String :=
  "Handlers \x7b kinds: [" ++ ", ".intercalate (handlers.kinds.map Kind.name) ++ "] \x7d"

/-- Give a node to the handler of its kind, if there is one. -/
def apply [Monad m] (handlers : Handlers m) (node : Node) : m Node :=
  match handlers.handler? node.kind with
  | some handler => handler node
  | none => pure node

theorem handler?_on_self (handlers : Handlers m) (kind : Kind) (handler : Handler m) :
    (handlers.on kind handler).handler? kind = some handler := by
  simp [on]

theorem handler?_on_other (handlers : Handlers m) {kind other : Kind} (handler : Handler m)
    (h : other ≠ kind) : (handlers.on kind handler).handler? other = handlers.handler? other := by
  simp [on, h]

end Handlers

end DefForms
