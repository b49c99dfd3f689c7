import DefForms.Command.Arguments
import DefForms.Files
import DefForms.LineDiff

set_option autoImplicit false

/-! # Running a request

`run` answers a request, given what reading its file yields. Output is all or nothing: if any stage
fails, nothing is printed and the failure is reported. The stages that were completed are told on
the side if the request is verbose, also when a later stage fails. -/

namespace DefForms.Command

/-- What a run leaves behind. -/
structure Outcome where
  /-- The text for standard output. -/
  output : List Char
  /-- The lines about completed stages. -/
  status : List String
  failure : Option Diagnostic

/-- The exit status of a run. -/
def Outcome.exitStatus (outcome : Outcome) : Nat :=
  if outcome.failure.isSome then 1 else 0

/-- The file at a path cannot be read. -/
def cannotRead (path : String) (fault : FileFault) : Diagnostic :=
  .atLine .io ("failed to read '" ++ path ++ "': " ++ fault.message) none none

/-- The status lines after reading nodes. -/
def readStatus (nodes : List Node) : List String :=
  ["Parse succeeded!", nodes.length.repr ++ " top-level node(s)"]

/-- The status lines after expanding definitions. -/
def expandStatus (nodes : List Node) : List String :=
  ["Expansion succeeded!", (Node.countDefinitionsIn nodes).repr ++ " definition(s) expanded"]

/-- Status lines are shown only in verbose runs. -/
def shown (verbose : Bool) (lines : List String) : List String := if verbose then lines else []

/-- The output for expanded nodes: their text, or how it differs from that of the nodes before. -/
def expandedOutput (format : Format) (diff : Bool) (nodes expanded : List Node) : List Char :=
  if diff then
    LineDiff.render (LineDiff.lineDiff (format.render nodes) (format.render expanded))
  else format.render expanded ++ ['\n']

/-- Answer a request about a source text. -/
def runOn (request : Request) (text : String) : Outcome :=
  let source : Source := ⟨request.file, text⟩
  match source.nodes with
  | .error diagnostic => ⟨[], [], some diagnostic⟩
  | .ok nodes =>
    match request.action with
    | .ast => ⟨request.format.render nodes ++ ['\n'], shown request.verbose (readStatus nodes), none⟩
    | .expand diff =>
      match source.expand nodes with
      | .error diagnostic => ⟨[], shown request.verbose (readStatus nodes), some diagnostic⟩
      | .ok expanded =>
        ⟨expandedOutput request.format diff nodes expanded,
          shown request.verbose (readStatus nodes ++ expandStatus expanded), none⟩

/-- Answer a request, given what its file holds or why it cannot be read. -/
def run (request : Request) (content : Except FileFault String) : Outcome :=
  match content with
  | .error fault => ⟨[], [], some (cannotRead request.file fault)⟩
  | .ok text => runOn request text

/-! ## Texts about the program -/

/-- The answer to a question about the version. -/
def versionText : String := "deflang 0.1.0\n"

/-- The answer to a question for help. The wording is not the program's: its help is put together by
    its argument parser, from the same subcommands and options. What is modelled is that help is an
    answer and no error. -/
def helpText : String :=
  "Parse deflang sources and expand their `def` forms.\n\n" ++
  "Usage: deflang [-v] ast [--format json|pretty] FILE\n" ++
  "       deflang [-v] expand [--format json|pretty] [--diff] FILE\n\n" ++
  "  -v, --verbose  report each completed stage on standard error\n" ++
  "      --format   the form of the output, json unless given\n" ++
  "      --diff     show how expansion changes the output\n" ++
  "  -h, --help     show this text\n" ++
  "  -V, --version  show the version\n"

/-- The refusal answers a question and is no error. -/
def Refusal.answer? : Refusal → Option String
  | .displayHelp => some helpText
  | .displayVersion => some versionText
  | _ => none

end DefForms.Command
