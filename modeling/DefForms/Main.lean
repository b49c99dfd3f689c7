import DefForms.Command.Run

set_option autoImplicit false

/-! # The program

Reads the command line and the file, runs the request and prints what it leaves behind. -/

namespace DefForms

open Command

/-- The fault that a system error stands for. -/
def FileFault.ofError : IO.Error → FileFault
  | .noFileOrDirectory _ _ _ => .notFound
  | .inappropriateType _ 21 _ => .isDirectory
  | .inappropriateType _ _ _ => .notDirectory
  | error => .other (toString error)

/-- The text of a file of the system. -/
def readFileText (path : String) : IO (Except FileFault String) := do
  try
    return decodeText (← IO.FS.readBinFile path)
  catch error =>
    return .error (.ofError error)

/-- Print a failure: its code, the failure in one line, the place in the source, and advice. The parts
    are those of the program's report, the layout is plainer. -/
def printFailure (diagnostic : Diagnostic) : IO Unit := do
  IO.eprintln diagnostic.category.code
  IO.eprintln diagnostic.display
  if let some source := diagnostic.source then
    if let some label := diagnostic.label? then
      IO.eprintln ("at byte " ++ label.start.repr ++ " of " ++ source.name)
  if let some help := diagnostic.help then
    IO.eprintln ("help: " ++ help)

/-- Run the program with these arguments. A refusal is named and not explained, and the text for help
    follows it. -/
def runProgram (arguments : List String) : IO UInt32 := do
  match readArguments arguments with
  | .error refusal =>
    match refusal.answer? with
    | some answer =>
      IO.print answer
      return 0
    | none =>
      IO.eprintln ("error: " ++ refusal.name)
      IO.eprint helpText
      return 2
  | .ok request =>
    let outcome := run request (← readFileText request.file)
    outcome.status.forM IO.eprintln
    IO.print (String.ofList outcome.output)
    if let some diagnostic := outcome.failure then
      printFailure diagnostic
    return outcome.exitStatus.toUInt32

end DefForms

/-- The entry point. -/
def main (arguments : List String) : IO UInt32 :=
  DefForms.runProgram arguments
