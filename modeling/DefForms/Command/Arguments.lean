import DefForms.Program

set_option autoImplicit false

/-! # Command line arguments

The command line is `[options] command [options] file`. Arguments are taken from left to right, and
the first one that cannot be accepted decides the answer. Options before the command are read by
`readCommand`, what follows the command by `Reading.read`.

The value of an option or of the file argument is checked late, when the next argument that is known
arrives or the arguments end. Until then it is *pending*; an argument that is not known at all is
reported before the pending value is looked at. -/

namespace DefForms.Command

/-! ## Requests and refusals -/

/-- What is to be done with a file. -/
inductive Action where
  /-- Show the nodes of the file. -/
  | ast
  /-- Show the nodes with definitions expanded, or what that changes. -/
  | expand (diff : Bool)
deriving DecidableEq

/-- A command line that was understood. -/
structure Request where
  verbose : Bool
  action : Action
  file : String
  format : Format
deriving DecidableEq

/-- Why there is no request. -/
inductive Refusal where
  /-- Help was asked for. -/
  | displayHelp
  /-- There are no arguments that say anything. -/
  | displayHelpOnMissing
  /-- The version was asked for. -/
  | displayVersion
  /-- There are options but no command. -/
  | missingSubcommand
  /-- There is no command of this name. -/
  | invalidSubcommand
  /-- There is no such option, or no place for the argument. -/
  | unknownArgument
  /-- An option is given twice. -/
  | argumentConflict
  /-- A value is missing or is none of those allowed. -/
  | invalidValue
  /-- A flag was given a value. -/
  | tooManyValues
  /-- There is no file. -/
  | missingRequiredArgument
deriving DecidableEq

/-- The name of a refusal. -/
def Refusal.name : Refusal → String
  | .displayHelp => "DisplayHelp"
  | .displayHelpOnMissing => "DisplayHelpOnMissingArgumentOrSubcommand"
  | .displayVersion => "DisplayVersion"
  | .missingSubcommand => "MissingSubcommand"
  | .invalidSubcommand => "InvalidSubcommand"
  | .unknownArgument => "UnknownArgument"
  | .argumentConflict => "ArgumentConflict"
  | .invalidValue => "InvalidValue"
  | .tooManyValues => "TooManyValues"
  | .missingRequiredArgument => "MissingRequiredArgument"

/-! ## Shapes of arguments -/

/-- An argument by its shape. -/
inductive Shape where
  /-- Two dashes alone. -/
  | separator
  /-- Two dashes and a name, with the value behind an equals sign, if there is one. -/
  | long (name : String) (value : Option String)
  /-- A dash and the letters of flags. -/
  | cluster (letters : List Char)
  /-- Anything else. A dash alone is a word, too. -/
  | word
deriving DecidableEq

/-- The shape of an argument. -/
def Shape.of (argument : String) : Shape :=
  match argument.toList with
  | ['-', '-'] => .separator
  | '-' :: '-' :: text =>
    let name := String.ofList (text.takeWhile (· ≠ '='))
    match text.dropWhile (· ≠ '=') with
    | [] => .long name none
    | _ :: value => .long name (some (String.ofList value))
  | '-' :: letter :: letters => .cluster (letter :: letters)
  | _ => .word

/-! ## Behind the command -/

/-- A value that is still to be checked. -/
inductive Pending where
  | nothing
  /-- The format option, with the value that it was given so far. -/
  | format (value : Option String)
  /-- The file argument. -/
  | file (name : String)
deriving DecidableEq

/-- What has been read behind the command. -/
structure Reading where
  /-- The command takes the diff flag. -/
  takesDiff : Bool
  verbose : Bool
  diff : Bool
  format : Option Format
  file : Option String
  pending : Pending
  /-- A separator came: all further arguments are files. -/
  filesOnly : Bool

namespace Reading

/-- Nothing has been read yet. -/
def start (takesDiff : Bool) : Reading where
  takesDiff := takesDiff
  verbose := false
  diff := false
  format := none
  file := none
  pending := .nothing
  filesOnly := false

/-- The format of this name. -/
def formatOf? (name : String) : Option Format := Format.all.find? fun format => format.name == name

/-- Take a value for the format option. -/
def setFormat (reading : Reading) (value : String) : Except Refusal Reading :=
  if reading.format.isSome then .error .argumentConflict
  else
    match formatOf? value with
    | some format => .ok { reading with format := some format, pending := .nothing }
    | none => .error .invalidValue

/-- Check the pending value. -/
def settle (reading : Reading) : Except Refusal Reading :=
  match reading.pending with
  | .nothing => .ok reading
  | .format none => .error .invalidValue
  | .format (some value) => reading.setFormat value
  | .file name =>
    if name.isEmpty then .error .invalidValue
    else .ok { reading with file := some name, pending := .nothing }

/-- Turn a flag on, which must not be on already. -/
def setFlag (reading : Reading) (isOn : Reading → Bool) (turnOn : Reading → Reading) :
    Except Refusal Reading :=
  match reading.settle with
  | .error refusal => .error refusal
  | .ok settled => if isOn settled then .error .argumentConflict else .ok (turnOn settled)

/-- Turn the verbose flag on. -/
def setVerbose (reading : Reading) : Except Refusal Reading :=
  reading.setFlag verbose fun settled => { settled with verbose := true }

/-- Turn the diff flag on. -/
def setDiff (reading : Reading) : Except Refusal Reading :=
  reading.setFlag diff fun settled => { settled with diff := true }

/-- Stop for help. -/
def help (reading : Reading) : Except Refusal Reading :=
  match reading.settle with
  | .error refusal => .error refusal
  | .ok _ => .error .displayHelp

/-- Take the flags of a cluster, one by one. -/
def takeCluster (reading : Reading) : List Char → Except Refusal Reading
  | [] => .ok reading
  | letter :: rest =>
    if letter = 'v' then
      match reading.setVerbose with
      | .error refusal => .error refusal
      | .ok next => next.takeCluster rest
    else if letter = 'h' then reading.help
    else .error .unknownArgument

/-- Take the format option, with the value behind its equals sign, if there is one. -/
def takeFormat (reading : Reading) (value : Option String) : Except Refusal Reading :=
  match reading.settle with
  | .error refusal => .error refusal
  | .ok settled =>
    match value with
    | some value => settled.setFormat value
    | none => .ok { settled with pending := .format none }

/-- Take an option that is written with two dashes. Only the format option has a value. -/
def takeLong (reading : Reading) (name : String) (value : Option String) :
    Except Refusal Reading :=
  if name = "format" then reading.takeFormat value
  else if name = "verbose" ∨ name = "help" ∨ (name = "diff" ∧ reading.takesDiff) then
    if value.isSome then .error .tooManyValues
    else if name = "verbose" then reading.setVerbose
    else if name = "help" then reading.help
    else reading.setDiff
  else .error .unknownArgument

/-- A file has been given. -/
def hasFile (reading : Reading) : Bool :=
  reading.file.isSome ||
    match reading.pending with
    | .file _ => true
    | _ => false

/-- Take a file. -/
def takeFile (reading : Reading) (name : String) : Except Refusal Reading :=
  if reading.hasFile then .error .unknownArgument
  else
    match reading.settle with
    | .error refusal => .error refusal
    | .ok settled => .ok { settled with pending := .file name }

/-- Take an argument that is no option: the value that the format option waits for, or a file. -/
def takeWord (reading : Reading) (text : String) : Except Refusal Reading :=
  if reading.pending = .format none then
    .ok { reading with pending := .format (some text) }
  else reading.takeFile text

/-- Take an argument. -/
def take (reading : Reading) (argument : String) : Except Refusal Reading :=
  if reading.filesOnly then reading.takeFile argument
  else
    match Shape.of argument with
    | .separator => .ok { reading with filesOnly := true }
    | .long name value => reading.takeLong name value
    | .cluster letters => reading.takeCluster letters
    | .word => reading.takeWord argument

/-- The request that has been read when the arguments end. -/
def finish (reading : Reading) (verbose : Bool) : Except Refusal Request :=
  match reading.settle with
  | .error refusal => .error refusal
  | .ok settled =>
    match settled.file with
    | none => .error .missingRequiredArgument
    | some file =>
      .ok {
        verbose := verbose || settled.verbose
        action := if settled.takesDiff then .expand settled.diff else .ast
        file
        format := settled.format.getD .json }

/-- Read all arguments behind the command. -/
def read (verbose : Bool) (reading : Reading) : List String → Except Refusal Request
  | [] => reading.finish verbose
  | argument :: rest =>
    match reading.take argument with
    | .error refusal => .error refusal
    | .ok next => next.read verbose rest

end Reading

/-! ## Before the command -/

/-- The commands, the one that explains the others included. -/
def commandNames : List String := ["ast", "expand", "help"]

/-- What the help command answers: it can explain one command. -/
def explain : List String → Refusal
  | [] => .displayHelp
  | [name] => if commandNames.contains name then .displayHelp else .invalidSubcommand
  | _ :: _ :: _ => .invalidSubcommand

/-- The arguments ended before a command came. -/
def noCommand (verbose : Bool) : Refusal :=
  if verbose then .missingSubcommand else .displayHelpOnMissing

/-- The answer to what stands behind a separator that comes before the command. -/
def afterSeparator (verbose : Bool) : List String → Refusal
  | [] => noCommand verbose
  | name :: _ => if commandNames.contains name then .unknownArgument else .invalidSubcommand

/-- Take the flags of a cluster, one by one, and return whether output is to be verbose. -/
def takeFlags (verbose : Bool) : List Char → Except Refusal Bool
  | [] => .ok verbose
  | letter :: rest =>
    if letter = 'v' then if verbose then .error .argumentConflict else takeFlags true rest
    else if letter = 'h' then .error .displayHelp
    else if letter = 'V' then .error .displayVersion
    else .error .unknownArgument

/-- Take a flag that is written with two dashes. No flag has a value. -/
def takeLongFlag (verbose : Bool) (name : String) (value : Option String) : Except Refusal Bool :=
  if name = "verbose" ∨ name = "help" ∨ name = "version" then
    if value.isSome then .error .tooManyValues
    else if name = "help" then .error .displayHelp
    else if name = "version" then .error .displayVersion
    else if verbose then .error .argumentConflict
    else .ok true
  else .error .unknownArgument

/-- Read flags up to the command, then the rest. -/
def readCommand (verbose : Bool) : List String → Except Refusal Request
  | [] => .error (noCommand verbose)
  | argument :: rest =>
    match Shape.of argument with
    | .separator => .error (afterSeparator verbose rest)
    | .long name value =>
      match takeLongFlag verbose name value with
      | .error refusal => .error refusal
      | .ok verbose => readCommand verbose rest
    | .cluster letters =>
      match takeFlags verbose letters with
      | .error refusal => .error refusal
      | .ok verbose => readCommand verbose rest
    | .word =>
      if argument = "ast" then Reading.read verbose (.start false) rest
      else if argument = "expand" then Reading.read verbose (.start true) rest
      else if argument = "help" then .error (explain rest)
      else .error .invalidSubcommand

/-- Read the arguments of a command line. -/
def readArguments (arguments : List String) : Except Refusal Request :=
  readCommand false arguments

end DefForms.Command
