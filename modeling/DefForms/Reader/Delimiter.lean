set_option autoImplicit false

/-! # Matching delimiters

A form that starts with an opening delimiter ends at the delimiter that closes it. The search looks
at one kind of delimiter only and stops at the first place where as many of this kind have been
closed as were opened. Whatever else stands between is judged when the enclosed text is read. -/

namespace DefForms.Reader

/-- Look for the closing delimiter, with `depth` delimiters open at position `index`. -/
def closeFrom (opener closer : Char) (index depth : Nat) : List Char → Option Nat
  | [] => none
  | c :: rest =>
    if c = opener then closeFrom opener closer (index + 1) (depth + 1) rest
    else if c = closer then
      if depth = 1 then some index else closeFrom opener closer (index + 1) (depth - 1) rest
    else closeFrom opener closer (index + 1) depth rest

/-- The position in `text` of the delimiter that closes the one at its front. -/
def closeIndex (opener closer : Char) (text : List Char) : Option Nat :=
  closeFrom opener closer 0 0 text

/-- A form split into the text between its delimiters and the text behind it. -/
structure Enclosed where
  inner : List Char
  rest : List Char
deriving DecidableEq

/-- Split `text` at the delimiter that closes the one at its front. -/
def enclosed (opener closer : Char) (text : List Char) : Option Enclosed :=
  match closeIndex opener closer text with
  | none => none
  | some index => some ⟨(text.take index).drop 1, text.drop (index + 1)⟩

/-- Both parts of a form are shorter than the text that starts with it. -/
theorem enclosed_shorter {opener closer c : Char} {text : List Char} {form : Enclosed}
    (h : enclosed opener closer (c :: text) = some form) :
    form.inner.length ≤ text.length ∧ form.rest.length ≤ text.length := by
  unfold enclosed at h
  split at h
  · simp at h
  · next index _ =>
      simp only [Option.some.injEq] at h
      subst h
      simp only [List.length_drop, List.length_take, List.length_cons]
      omega

end DefForms.Reader
