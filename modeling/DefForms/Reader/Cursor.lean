import DefForms.Span

set_option autoImplicit false

/-! # The reading position

A `Cursor` says how far reading has come: the number of bytes and of line ends that lie behind it,
and how many forms are open around it. It is carried along with the text that is still to be read
and moves over one character at a time, so every span and every line number comes from the same
walk over the text. -/

namespace DefForms.Reader

/-- The most calls and parameter lists that may be open at one place. -/
def maxDepth : Nat := 256

/-- A place in the source text. -/
structure Cursor where
  /-- The bytes before this place. -/
  offset : Nat
  /-- The line of this place, counted from 1. -/
  line : Nat
  /-- The forms that are open around this place. -/
  depth : Nat
deriving DecidableEq

namespace Cursor

/-- The place before the first character. -/
def start : Cursor := ⟨0, 1, 0⟩

/-- The place after the character `c`. -/
def step (cur : Cursor) (c : Char) : Cursor :=
  { cur with
    offset := cur.offset + c.utf8Size
    line := if c = '\n' then cur.line + 1 else cur.line }

/-- The place after `text`. -/
def past (cur : Cursor) (text : List Char) : Cursor :=
  text.foldl step cur

/-- The same place inside one more open form. -/
def enter (cur : Cursor) : Cursor := { cur with depth := cur.depth + 1 }

/-- The same place with the innermost open form closed. -/
def leave (cur : Cursor) : Cursor := { cur with depth := cur.depth - 1 }

/-- The span of `text` when it stands at this place. -/
def span (cur : Cursor) (text : List Char) : Span :=
  ⟨cur.offset, cur.offset + byteSize text⟩

@[simp]
theorem past_nil (cur : Cursor) : cur.past [] = cur := rfl

@[simp]
theorem past_cons (cur : Cursor) (c : Char) (rest : List Char) :
    cur.past (c :: rest) = (cur.step c).past rest := rfl

theorem past_append (cur : Cursor) (front back : List Char) :
    cur.past (front ++ back) = (cur.past front).past back := by
  simp [past]

@[simp]
theorem past_depth (cur : Cursor) (text : List Char) : (cur.past text).depth = cur.depth := by
  induction text generalizing cur with
  | nil => rfl
  | cons c rest ih => rw [past_cons, ih]; rfl

@[simp]
theorem past_offset (cur : Cursor) (text : List Char) :
    (cur.past text).offset = cur.offset + byteSize text := by
  induction text generalizing cur with
  | nil => rfl
  | cons c rest ih => rw [past_cons, ih, step, byteSize]; exact Nat.add_assoc _ _ _

@[simp]
theorem past_line (cur : Cursor) (text : List Char) :
    (cur.past text).line = cur.line + text.count '\n' := by
  induction text generalizing cur with
  | nil => rfl
  | cons c rest ih =>
    rw [past_cons, ih, step, List.count_cons]
    by_cases h : c = '\n'
    · simp only [h, if_pos, beq_self_eq_true]
      omega
    · simp [h]

end Cursor

end DefForms.Reader
