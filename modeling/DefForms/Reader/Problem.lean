import DefForms.Diagnostic
import DefForms.Reader.Cursor
import DefForms.Text.Quoted

set_option autoImplicit false

/-! # Why a text is not a program

A `Problem` is the reason, a `Failure` the reason together with its place. Reading stops at the
first failure. The wording lives here and nowhere else. -/

namespace DefForms.Reader

/-- The reasons for which a text is not a program. -/
inductive Problem where
  /-- The character can start nothing at its place. -/
  | unexpected (c : Char)
  /-- The text ends where something must follow. -/
  | unexpectedEnd
  /-- A number has a second decimal point. -/
  | secondPoint
  /-- A form is opened inside `maxDepth` open forms. -/
  | tooDeep
  /-- A parenthesis is opened and never closed. -/
  | unmatchedParenthesis
  /-- A square bracket is opened and never closed. -/
  | unmatchedBracket
  /-- The word in a parameter list has no colon. -/
  | missingColon (word : List Char)
  /-- The word in a parameter list has more than one colon. -/
  | tooManyColons
  /-- One side of the colon is empty. -/
  | missingSide (word : List Char)
  /-- The text after the colon does not start with a letter. -/
  | badType (type : List Char)
deriving DecidableEq

/-- The wording of a problem. -/
def Problem.message : Problem → String
  | .unexpected c => "unexpected `" ++ Text.showChar c ++ "`"
  | .unexpectedEnd => "unexpected end of input"
  | .secondPoint => "invalid `.`; expected digit"
  | .tooDeep => "nesting too deep; at most " ++ maxDepth.repr ++ " levels are allowed"
  | .unmatchedParenthesis => "unmatched parentheses"
  | .unmatchedBracket => "unmatched square brackets"
  | .missingColon word => "expected a colon (:) in argument `" ++ String.ofList word ++ "`"
  | .tooManyColons => "too many colon (:) characters"
  | .missingSide word =>
      "argument `" ++ String.ofList word ++ "` needs both a name and a type"
  | .badType type =>
      "invalid type name `" ++ String.ofList type ++ "`; expected a letter first"

/-- How the entries of a parameter list are written. -/
def entryUsage : String :=
  "argument entries are written `name:Type`, e.g. `[x:Int y:Float]`"

/-- The advice that goes with a problem: only a word with the wrong number of sides has one. -/
def Problem.help : Problem → Option String
  | .missingColon _ | .tooManyColons | .missingSide _ => some entryUsage
  | _ => none

/-- A problem and its place. -/
structure Failure where
  problem : Problem
  line : Nat
  span : Span
deriving DecidableEq

/-- The problem lies in `text`, which stands at `cur`. -/
def Failure.on (cur : Cursor) (text : List Char) (problem : Problem) : Failure :=
  ⟨problem, cur.line, cur.span text⟩

/-- Nothing can start with the character at `cur`, or there is none. -/
def Failure.unexpected (cur : Cursor) : Option Char → Failure
  | some c => .on cur [c] (.unexpected c)
  | none => .on cur [] .unexpectedEnd

/-- The failure as a diagnostic about `source`. -/
def Failure.diagnostic (source : Source) (failure : Failure) : Diagnostic where
  category := .parse
  message := failure.problem.message
  line := some failure.line
  source := some source
  span := some failure.span
  help := failure.problem.help

end DefForms.Reader
