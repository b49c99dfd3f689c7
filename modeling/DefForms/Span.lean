set_option autoImplicit false

/-! # Spans

A span is a range of bytes of a source text in UTF-8. `Span.ofLine` finds the span of a whole line:
it walks over the lines of the text and adds up their sizes, counting one byte for each line end. -/

namespace DefForms

/-- The number of bytes that a text takes in UTF-8. -/
def byteSize : List Char → Nat
  | [] => 0
  | c :: rest => c.utf8Size + byteSize rest

/-- The bytes from `start` up to and without `stop`. -/
structure Span where
  start : Nat
  stop : Nat
deriving DecidableEq

/-- How many bytes a span marks. A span that ends where it starts, or before, still marks one. -/
def Span.width (span : Span) : Nat :=
  if span.start < span.stop then span.stop - span.start else 1

/-- The span of the line with this number among `lines`, the first of which is number 1 and starts
    at `start`. -/
def Span.ofLineFrom (start : Nat) : List (List Char) → Nat → Option Span
  | _, 0 => none
  | [], _ + 1 => none
  | line :: _, 1 => some ⟨start, start + byteSize line⟩
  | line :: rest, number + 2 => Span.ofLineFrom (start + byteSize line + 1) rest (number + 1)

/-- The span of a line of `text`, without its line end. Lines are counted from 1. -/
def Span.ofLine (text : String) (number : Nat) : Option Span :=
  Span.ofLineFrom 0 (text.toList.splitOn '\n') number

end DefForms
