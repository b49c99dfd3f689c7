import DefForms.Definition
import DefForms.Inspection
import DefForms.Reader.Basic

set_option autoImplicit false

/-! # From source text to output

The stages in a row: read a source, expand its definitions, render the nodes. Whatever fails is
reported about the source that it came from. -/

namespace DefForms

/-- The name of a source that is not told apart by another one. -/
def Source.anonymousName : String := "source"

/-- The nodes of a source text, or the first failure as a diagnostic about it. -/
def Source.nodes (source : Source) : Except Diagnostic (List Node) :=
  match Reader.program source.text.toList with
  | .error failure => .error (failure.diagnostic source)
  | .ok found => .ok found

/-- Expand the definitions of nodes that were read from `source`. -/
def Source.expand (source : Source) (nodes : List Node) : Except Diagnostic (List Node) :=
  match expandDefinitions nodes with
  | .ok expanded => .ok expanded
  | .error diagnostic => .error (diagnostic.attach source)

/-- The nodes of a source with their definitions expanded. -/
def Source.expanded (source : Source) : Except Diagnostic (List Node) :=
  match source.nodes with
  | .ok nodes => source.expand nodes
  | .error diagnostic => .error diagnostic

/-- The forms of output. -/
inductive Format where
  /-- The inspection form, with one item on each line. -/
  | json
  /-- The surface text, with one node on each line. -/
  | pretty
deriving DecidableEq

/-- Every format. -/
def Format.all : List Format := [.json, .pretty]

/-- The name of a format. -/
def Format.name : Format → String
  | .json => "json"
  | .pretty => "pretty"

/-- The text of several nodes in a format. -/
def Format.render (nodes : List Node) : Format → List Char
  | .json => (inspection nodes).indented
  | .pretty => Node.surfaceLines nodes

end DefForms
