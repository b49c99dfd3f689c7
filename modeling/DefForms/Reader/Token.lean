import DefForms.Node.Basic
import DefForms.Reader.Problem

set_option autoImplicit false

/-! # Words, numbers and operators

The parts of a program that hold no other parts. Each function reads one of them from the front of
a text and returns it with the cursor behind it and the text that is left. All characters of the
notation are ASCII, and so are the classes below. -/

namespace DefForms.Reader

/-- Only the space and the line end may stand between the parts of a program. -/
def isBlank (c : Char) : Bool := c == ' ' || c == '\n'

/-- The character is an operator. -/
def isOperator (c : Char) : Bool := Operator.symbols.contains c

/-- The character may stand in a name behind its first letter. -/
def isNameChar (c : Char) : Bool := c.isAlphanum || c == '_'

/-- The character may start the word of an entry. -/
def isEntryStart (c : Char) : Bool := c.isAlpha || c == ':'

/-- The character may stand in the word of an entry behind its first character. -/
def isEntryChar (c : Char) : Bool := isNameChar c || c == ':'

/-- What was read, the place behind it, and the text that is left. -/
structure Taken (α : Type) where
  value : α
  cursor : Cursor
  rest : List Char

/-- Move over the blanks at the front of a text. -/
def skipBlanks (cur : Cursor) : List Char → Cursor × List Char
  | [] => (cur, [])
  | c :: rest => if isBlank c then skipBlanks (cur.step c) rest else (cur, c :: rest)

/-! ## Numbers -/

/-- Read the number at the front of a text that starts with a digit: a run of digits with at most
    one decimal point in or behind it. With a point it is a float, without one an integer. -/
def number (cur : Cursor) (text : List Char) : Except Failure (Taken Node) :=
  let whole := text.takeWhile Char.isDigit
  match text.dropWhile Char.isDigit with
  | '.' :: behind =>
    let written := whole ++ '.' :: behind.takeWhile Char.isDigit
    match behind.dropWhile Char.isDigit with
    | '.' :: _ => .error (.on (cur.past written) ['.'] .secondPoint)
    | rest => .ok ⟨.float ⟨cur.line, String.ofList written⟩, cur.past written, rest⟩
  | rest => .ok ⟨.int ⟨cur.line, String.ofList whole⟩, cur.past whole, rest⟩

/-! ## Heads -/

/-- Read an operator or a name, past any blanks. A name starts with a letter. If the text is
    exhausted, `beyond` is the character that stands behind it in the source. -/
def head (beyond : Option Char) (cur : Cursor) (text : List Char) : Except Failure (Taken Head) :=
  match skipBlanks cur text with
  | (cur, []) => .error (.unexpected cur beyond)
  | (cur, c :: rest) =>
    if isOperator c then .ok ⟨.operator ⟨cur.line, c⟩, cur.step c, rest⟩
    else if c.isAlpha then
      let word := c :: rest.takeWhile isNameChar
      .ok ⟨.term ⟨cur.line, String.ofList word⟩, cur.past word, rest.dropWhile isNameChar⟩
    else .error (.unexpected cur (some c))

/-! ## Entries of parameter lists -/

/-- The entry that is written as `word`, which stands at `cur`: a name, one colon, and a type that
    starts with a letter. -/
def entryOfWord (cur : Cursor) (word : List Char) : Except Failure Param :=
  match word.splitOn ':' with
  | [name, type] =>
    if name.isEmpty || type.isEmpty then .error (.on cur word (.missingSide word))
    else if (type.head?.any Char.isAlpha) then
      .ok ⟨cur.line, ⟨cur.line, String.ofList name⟩, ⟨cur.line, String.ofList type⟩⟩
    else .error (.on ((cur.past name).step ':') type (.badType type))
  | [_] => .error (.on cur word (.missingColon word))
  | _ => .error (.on cur word .tooManyColons)

/-- Read the entry at the front of `c :: rest`: the longest word of name characters and colons. -/
def entry (cur : Cursor) (c : Char) (rest : List Char) : Except Failure (Taken Param) :=
  if isEntryStart c then
    match entryOfWord cur (c :: rest.takeWhile isEntryChar) with
    | .error failure => .error failure
    | .ok param =>
      .ok ⟨param, cur.past (c :: rest.takeWhile isEntryChar), rest.dropWhile isEntryChar⟩
  else .error (.unexpected cur (some c))

/-! ## What is left is shorter -/

theorem length_dropWhile_le (p : Char → Bool) (text : List Char) :
    (text.dropWhile p).length ≤ text.length :=
  (List.dropWhile_sublist p).length_le

theorem skipBlanks_length_le (cur : Cursor) (text : List Char) :
    (skipBlanks cur text).2.length ≤ text.length := by
  induction text generalizing cur with
  | nil => simp [skipBlanks]
  | cons c rest ih =>
    rw [skipBlanks]
    split
    · exact Nat.le_succ_of_le (ih (cur.step c))
    · exact Nat.le_refl _

theorem number_shorter {cur : Cursor} {c : Char} {rest : List Char} {taken : Taken Node}
    (hc : c.isDigit = true) (h : number cur (c :: rest) = .ok taken) :
    taken.rest.length ≤ rest.length := by
  have first : (List.dropWhile Char.isDigit (c :: rest)).length ≤ rest.length := by
    rw [List.dropWhile_cons_of_pos hc]
    exact length_dropWhile_le _ _
  unfold number at h
  split at h
  · next behind hbehind =>
      rw [hbehind, List.length_cons] at first
      have second := length_dropWhile_le Char.isDigit behind
      split at h
      · simp at h
      · simp only [Except.ok.injEq] at h
        subst h
        show (List.dropWhile Char.isDigit behind).length ≤ rest.length
        omega
  · simp only [Except.ok.injEq] at h
    subst h
    exact first

theorem head_length_le {beyond : Option Char} {cur : Cursor} {text : List Char}
    {taken : Taken Head} (h : head beyond cur text = .ok taken) :
    taken.rest.length < text.length := by
  have bound := skipBlanks_length_le cur text
  unfold head at h
  split at h
  · simp at h
  · next cur' c rest hskip =>
      rw [hskip, List.length_cons] at bound
      have word := length_dropWhile_le isNameChar rest
      split at h
      · simp only [Except.ok.injEq] at h
        subst h
        exact bound
      · split at h
        · simp only [Except.ok.injEq] at h
          subst h
          show (List.dropWhile isNameChar rest).length < text.length
          omega
        · simp at h

theorem entry_shorter {cur : Cursor} {c : Char} {rest : List Char} {taken : Taken Param}
    (h : entry cur c rest = .ok taken) : taken.rest.length ≤ rest.length := by
  unfold entry at h
  split at h
  · split at h
    · simp at h
    · simp only [Except.ok.injEq] at h
      subst h
      exact length_dropWhile_le _ _
  · simp at h

end DefForms.Reader
