import DefForms.Reader.Delimiter
import DefForms.Reader.Token

set_option autoImplicit false

/-! # Reading a program

`nodes` reads all nodes of a span of text. A call is read in three steps: the delimiter that closes
it is searched in the rest of the span, its head and arguments are read from the text in between,
and reading goes on behind it. The enclosed text is therefore the bound of everything inside, and no
part of a form can reach over the end of the form that holds it. Recursion is on the length of the
span.

The order of the checks decides which of two problems is reported: depth, then the closing
delimiter, then the contents from left to right, then what follows. -/

namespace DefForms.Reader

/-! ## Forms -/

section Form

variable {α β : Type}

/-- Read the form at the front of a text that starts with `opener`. It must not be too deep, and it
    must be closed. What it encloses is left to `read`, and `finish` is given the text behind it. -/
def readForm (cur : Cursor) (opener closer : Char) (unmatched : Problem)
    (read : Cursor → List Char → Except Failure α) (finish : α → List Char → β)
    (text : List Char) : Except Failure β :=
  if cur.depth = maxDepth then .error (.on cur [opener] .tooDeep)
  else
    match enclosed opener closer text with
    | none => .error (.on cur [opener] unmatched)
    | some form =>
      match read (cur.enter.step opener) form.inner with
      | .error failure => .error failure
      | .ok found => .ok (finish found form.rest)

variable {cur : Cursor} {opener closer : Char} {unmatched : Problem} {text : List Char}
  {read : Cursor → List Char → Except Failure α} {finish : α → List Char → β}

theorem readForm_eq_ok_iff {result : β} :
    readForm cur opener closer unmatched read finish text = .ok result ↔
      cur.depth ≠ maxDepth ∧ ∃ form found, enclosed opener closer text = some form
        ∧ read (cur.enter.step opener) form.inner = .ok found ∧ finish found form.rest = result := by
  by_cases hdepth : cur.depth = maxDepth
  · simp [readForm, hdepth]
  · cases hform : enclosed opener closer text with
    | none => simp [readForm, hdepth, hform]
    | some form =>
        cases hread : read (cur.enter.step opener) form.inner <;>
          simp [readForm, hdepth, hform, hread]

/-- The checks of a form come in this order. -/
theorem readForm_eq_error_iff {failure : Failure} :
    readForm cur opener closer unmatched read finish text = .error failure ↔
      (cur.depth = maxDepth ∧ .on cur [opener] .tooDeep = failure)
        ∨ (cur.depth ≠ maxDepth ∧ enclosed opener closer text = none
          ∧ .on cur [opener] unmatched = failure)
        ∨ cur.depth ≠ maxDepth ∧ ∃ form, enclosed opener closer text = some form
          ∧ read (cur.enter.step opener) form.inner = .error failure := by
  by_cases hdepth : cur.depth = maxDepth
  · simp [readForm, hdepth]
  · cases hform : enclosed opener closer text with
    | none => simp [readForm, hdepth, hform]
    | some form =>
        cases hread : read (cur.enter.step opener) form.inner <;>
          simp [readForm, hdepth, hform, hread]

end Form

/-! ## Parameter lists -/

/-- The entries that make up a span, with the place where it ends. -/
def entries (cur : Cursor) (text : List Char) : Except Failure (List Param × Cursor) :=
  match text with
  | [] => .ok ([], cur)
  | c :: rest =>
    if isBlank c then entries (cur.step c) rest
    else
      match _ : entry cur c rest with
      | .error failure => .error failure
      | .ok taken =>
        match entries taken.cursor taken.rest with
        | .error failure => .error failure
        | .ok (params, last) => .ok (taken.value :: params, last)
termination_by text.length
decreasing_by
  · simp
  · simp only [List.length_cons]
    exact Nat.lt_succ_of_le (entry_shorter (by assumption))

/-- The parameter list at the front of a text that starts with `[`. -/
def paramList (cur : Cursor) (text : List Char) : Except Failure (Taken Node) :=
  readForm cur '[' ']' .unmatchedBracket entries
    (fun found rest => ⟨.paramList ⟨cur.line, found.1⟩, (found.2.step ']').leave, rest⟩) text

/-! ## Calls -/

/-- A call whose head has been read. -/
structure OpenCall where
  /-- The line of the opening parenthesis. -/
  line : Nat
  head : Head
  /-- The place behind the head. -/
  cursor : Cursor
  /-- The text of the arguments. -/
  inner : List Char
  /-- The text behind the call. -/
  rest : List Char

/-- The place behind a call whose arguments end at `last`. -/
def Cursor.closeCall (last : Cursor) : Cursor := (last.step ')').leave

/-- Open the call at the front of a text that starts with `(`, and read its head. -/
def openCall (cur : Cursor) (text : List Char) : Except Failure OpenCall :=
  readForm cur '(' ')' .unmatchedParenthesis (head (some ')'))
    (fun taken rest => ⟨cur.line, taken.value, taken.cursor, taken.rest, rest⟩) text

/-! ## Nodes -/

/-- What stands at the front of a text: a node that is complete, or a call still to be filled. -/
inductive Piece where
  | node (taken : Taken Node)
  | call (form : OpenCall)

/-- Read the front of `c :: rest`, where `c` is not a blank. A closing delimiter can start
    nothing, as it is neither operator nor letter. -/
def next (cur : Cursor) (c : Char) (rest : List Char) : Except Failure Piece :=
  if c.isDigit then
    match number cur (c :: rest) with
    | .error failure => .error failure
    | .ok taken => .ok (.node taken)
  else if c = '(' then
    match openCall cur (c :: rest) with
    | .error failure => .error failure
    | .ok form => .ok (.call form)
  else if c = '[' then
    match paramList cur (c :: rest) with
    | .error failure => .error failure
    | .ok taken => .ok (.node taken)
  else
    match head none cur (c :: rest) with
    | .error failure => .error failure
    | .ok taken => .ok (.node ⟨taken.value.toNode, taken.cursor, taken.rest⟩)

theorem paramList_shorter {cur : Cursor} {c : Char} {rest : List Char} {taken : Taken Node}
    (h : paramList cur (c :: rest) = .ok taken) : taken.rest.length ≤ rest.length := by
  obtain ⟨-, form, found, hform, -, rfl⟩ := readForm_eq_ok_iff.1 h
  exact (enclosed_shorter hform).2

theorem openCall_shorter {cur : Cursor} {c : Char} {rest : List Char} {form : OpenCall}
    (h : openCall cur (c :: rest) = .ok form) :
    form.inner.length < rest.length ∧ form.rest.length ≤ rest.length := by
  obtain ⟨-, form, taken, hform, htaken, rfl⟩ := readForm_eq_ok_iff.1 h
  obtain ⟨hinner, hrest⟩ := enclosed_shorter hform
  exact ⟨Nat.lt_of_lt_of_le (head_length_le htaken) hinner, hrest⟩

theorem next_node_shorter {cur : Cursor} {c : Char} {rest : List Char} {taken : Taken Node}
    (h : next cur c rest = .ok (.node taken)) : taken.rest.length ≤ rest.length := by
  unfold next at h
  split at h
  · next hc =>
      split at h
      · simp at h
      · next found hfound =>
          simp only [Except.ok.injEq, Piece.node.injEq] at h
          exact h ▸ number_shorter hc hfound
  · split at h
    · split at h <;> simp at h
    · split at h
      · split at h
        · simp at h
        · next found hfound =>
            simp only [Except.ok.injEq, Piece.node.injEq] at h
            exact h ▸ paramList_shorter hfound
      · split at h
        · simp at h
        · next found hfound =>
            simp only [Except.ok.injEq, Piece.node.injEq] at h
            subst h
            exact Nat.le_of_lt_succ (head_length_le hfound)

/-- A call at the front of a text is one that is opened there. -/
theorem next_call_cases {cur : Cursor} {c : Char} {rest : List Char} {form : OpenCall}
    (h : next cur c rest = .ok (.call form)) :
    c = '(' ∧ openCall cur ('(' :: rest) = .ok form := by
  unfold next at h
  split at h
  · split at h <;> simp at h
  · split at h
    · next hparen =>
        subst hparen
        split at h
        · simp at h
        · next found hfound =>
            simp only [Except.ok.injEq, Piece.call.injEq] at h
            exact ⟨rfl, h ▸ hfound⟩
    · split at h
      · split at h <;> simp at h
      · split at h <;> simp at h

theorem next_call_shorter {cur : Cursor} {c : Char} {rest : List Char} {form : OpenCall}
    (h : next cur c rest = .ok (.call form)) :
    form.inner.length < rest.length ∧ form.rest.length ≤ rest.length :=
  openCall_shorter (next_call_cases h).2

/-- The nodes that make up a span, with the place where it ends. -/
def nodes (cur : Cursor) (text : List Char) : Except Failure (List Node × Cursor) :=
  match text with
  | [] => .ok ([], cur)
  | c :: rest =>
    if isBlank c then nodes (cur.step c) rest
    else
      match _ : next cur c rest with
      | .error failure => .error failure
      | .ok (.node taken) =>
        match nodes taken.cursor taken.rest with
        | .error failure => .error failure
        | .ok (more, last) => .ok (taken.value :: more, last)
      | .ok (.call form) =>
        match nodes form.cursor form.inner with
        | .error failure => .error failure
        | .ok (args, close) =>
          match nodes close.closeCall form.rest with
          | .error failure => .error failure
          | .ok (more, last) => .ok (.call form.line form.head args :: more, last)
termination_by text.length
decreasing_by
  · simp
  · simp only [List.length_cons]
    exact Nat.lt_succ_of_le (next_node_shorter (by assumption))
  · simp only [List.length_cons]
    exact Nat.lt_succ_of_lt (next_call_shorter (by assumption)).1
  · simp only [List.length_cons]
    exact Nat.lt_succ_of_le (next_call_shorter (by assumption)).2

/-- The nodes of a whole text. -/
def program (text : List Char) : Except Failure (List Node) :=
  match nodes .start text with
  | .error failure => .error failure
  | .ok (found, _) => .ok found

end DefForms.Reader
