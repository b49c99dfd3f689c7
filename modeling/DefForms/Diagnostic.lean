import DefForms.Span

set_option autoImplicit false

/-! # Diagnostics

What is reported when a text cannot be read, a tree cannot be transformed or a file cannot be opened:
a category, a message, and where the trouble is. Reading knows the exact span of the trouble; what
is found later knows at most a line, and gets the span of that whole line once a source text is
attached (`Diagnostic.attach`). A source that is there already is never replaced. -/

namespace DefForms

/-- The stage that a diagnostic belongs to. -/
inductive Category where
  /-- The text is not a program. -/
  | parse
  /-- A definition does not have the shape of one. -/
  | validation
  /-- A transforming step would build a tree that cannot exist. -/
  | structural
  /-- A file cannot be read. -/
  | io
  /-- A function was used on a node that it is not meant for. -/
  | internal
deriving DecidableEq

/-- Every category. -/
def Category.all : List Category := [.parse, .validation, .structural, .io, .internal]

/-- The name of a category. -/
def Category.name : Category → String
  | .parse => "Parse"
  | .validation => "Validation"
  | .structural => "Structural"
  | .io => "Io"
  | .internal => "Internal"

/-- The word for a category at the start of a displayed diagnostic. -/
def Category.title : Category → String
  | .io => "I/O"
  | category => category.name

/-- The stable code of a category. -/
def Category.code : Category → String
  | .parse => "deflang::parse"
  | .validation => "deflang::validation"
  | .structural => "deflang::structural"
  | .io => "deflang::io"
  | .internal => "deflang::internal"

/-- A named source text. -/
structure Source where
  name : String
  text : String
deriving DecidableEq

/-- A report of trouble. -/
structure Diagnostic where
  category : Category
  message : String
  line : Option Nat
  source : Option Source
  span : Option Span
  help : Option String
deriving DecidableEq

/-- A part of the source text marked with a message. -/
structure Label where
  message : String
  start : Nat
  width : Nat
deriving DecidableEq

namespace Diagnostic

/-- A diagnostic that knows at most a line. -/
def atLine (category : Category) (message : String) (line : Option Nat)
    (help : Option String) : Diagnostic :=
  ⟨category, message, line, none, none, help⟩

/-- The diagnostic in one line: category, line if known, message. -/
def display (d : Diagnostic) : String :=
  d.category.title ++ " error: " ++
    match d.line with
    | some line => "Line " ++ line.repr ++ ": " ++ d.message
    | none => d.message

/-- The part of the source to mark. There is one only if both the source and the span are known. -/
def label? (d : Diagnostic) : Option Label :=
  match d.source, d.span with
  | some _, some span => some ⟨d.message, span.start, span.width⟩
  | _, _ => none

/-- Attach a source. If no span is known, the whole line of the trouble becomes the span. A
    diagnostic that has a source keeps it, and its span. -/
def attach (d : Diagnostic) (source : Source) : Diagnostic :=
  match d.source with
  | some _ => d
  | none =>
    { d with
      source := some source
      span := d.span.or (d.line.bind (Span.ofLine source.text)) }

/-- Attaching a second source changes nothing. -/
theorem attach_attach (d : Diagnostic) (first second : Source) :
    (d.attach first).attach second = d.attach first := by
  cases h : d.source <;> simp [attach, h]

end Diagnostic

end DefForms
