import DefForms.Command.Arguments
import DefForms.Command.Run
import DefForms.Definition
import DefForms.Diagnostic
import DefForms.Files
import DefForms.Inspection
import DefForms.Json.Basic
import DefForms.Json.Parser
import DefForms.Json.Printer
import DefForms.Json.Text
import DefForms.LineDiff
import DefForms.Main
import DefForms.Node.Basic
import DefForms.Node.Surface
import DefForms.Numeral.Binary64
import DefForms.Numeral.Decimal
import DefForms.Numeral.Digits
import DefForms.Numeral.Integer
import DefForms.Numeral.Shortest
import DefForms.Numeral.Value
import DefForms.Program
import DefForms.Proofs.Bytes.Agreement
import DefForms.Proofs.Bytes.Encoding
import DefForms.Proofs.Bytes.LineSpans
import DefForms.Proofs.Bytes.Lines
import DefForms.Proofs.Bytes.Place
import DefForms.Proofs.Bytes.Reader
import DefForms.Proofs.Bytes.Search
import DefForms.Proofs.Bytes.Words
import DefForms.Proofs.Command.Pipeline
import DefForms.Proofs.Command.Unchanged
import DefForms.Proofs.Definition.Blame
import DefForms.Proofs.Definition.BlameSpan
import DefForms.Proofs.Definition.Expansion
import DefForms.Proofs.Definition.NormalForm
import DefForms.Proofs.Definition.Promotion
import DefForms.Proofs.Definition.RoundTrip
import DefForms.Proofs.Grammar.DepthLimit
import DefForms.Proofs.Grammar.Derivation
import DefForms.Proofs.Grammar.OnePass
import DefForms.Proofs.Grammar.Token
import DefForms.Proofs.Inspection.Integers
import DefForms.Proofs.Inspection.Numerals
import DefForms.Proofs.Inspection.Outline
import DefForms.Proofs.Json.Compact
import DefForms.Proofs.Json.Literal
import DefForms.Proofs.LineDiff.Lines
import DefForms.Proofs.LineDiff.Rounds
import DefForms.Proofs.LineDiff.Script
import DefForms.Proofs.Node.Postorder
import DefForms.Proofs.Node.Shape
import DefForms.Proofs.Numeral.Digits
import DefForms.Proofs.Numeral.Integer
import DefForms.Proofs.Numeral.Overflow
import DefForms.Proofs.Reader.Composition
import DefForms.Proofs.Reader.Content
import DefForms.Proofs.Reader.Delimiter
import DefForms.Proofs.Reader.Depth
import DefForms.Proofs.Reader.Fault
import DefForms.Proofs.Reader.FaultSpan
import DefForms.Proofs.Reader.FirstFault
import DefForms.Proofs.Reader.Places
import DefForms.Proofs.Reader.Reading
import DefForms.Proofs.Reader.RoundTrip
import DefForms.Proofs.Reader.Spelling
import DefForms.Proofs.Reader.Unmatched
import DefForms.Proofs.Reader.Word
import DefForms.Proofs.Text.Run
import DefForms.Proofs.Transform.Fusion
import DefForms.Proofs.Transform.Leaves
import DefForms.Proofs.Transform.Occurring
import DefForms.Proofs.Transform.Positions
import DefForms.Proofs.Transform.Success
import DefForms.Proofs.Transform.Visits
import DefForms.Proofs.Tree.RoundTrip
import DefForms.Reader.Basic
import DefForms.Reader.Cursor
import DefForms.Reader.Delimiter
import DefForms.Reader.Problem
import DefForms.Reader.Token
import DefForms.Span
import DefForms.Text.Extender
import DefForms.Text.Ignorable
import DefForms.Text.Quoted
import DefForms.Text.Ranges
import DefForms.Text.Unprintable
import DefForms.Transform.Basic
import DefForms.Transform.Edit
import DefForms.Transform.Handlers
import DefForms.Transform.Trace
import DefForms.Tree.Reader
import DefForms.Tree.Writer
