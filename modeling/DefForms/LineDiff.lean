set_option autoImplicit false

/-! # Line differences

Two texts are compared line by line. First a longest common subsequence of the lines is sought with
the usual table; then both texts are merged along it. Before each common line come the lines that
only the first text has, then those that only the second has.

Whatever lines are taken as common, the result can be read as either text: the lines that are kept
or removed make up the first one, those kept or added the second. -/

namespace DefForms.LineDiff

/-- What happens to a line. -/
inductive Mark where
  | keep
  | remove
  | add
deriving DecidableEq

/-- The character that shows a mark at the start of a line. -/
def Mark.symbol : Mark → Char
  | .keep => ' '
  | .remove => '-'
  | .add => '+'

variable {α : Type}

/-! ## Reading either text off -/

/-- The lines with any mark but `other`. The first text lacks the lines that are added, the second
    those that are removed. -/
def linesWithout (other : Mark) (changes : List (Mark × α)) : List α :=
  (changes.filter fun change => change.1 ≠ other).map Prod.snd

theorem linesWithout_cons (other mark : Mark) (line : α) (rest : List (Mark × α)) :
    linesWithout other ((mark, line) :: rest) =
      if mark = other then linesWithout other rest else line :: linesWithout other rest := by
  by_cases h : mark = other <;> simp [linesWithout, h]

theorem mem_linesWithout {other : Mark} {change : Mark × α} {changes : List (Mark × α)}
    (h : change ∈ changes) (hmark : change.1 ≠ other) : change.2 ∈ linesWithout other changes :=
  List.mem_map_of_mem (List.mem_filter.2 ⟨h, by simpa using hmark⟩)

/-! ## Common lines -/

variable [DecidableEq α]

/-- The next row of the table, for `line` against the lines of the second text. `left` is the cell
    before the row goes on, `corner` the cell above that, and the last argument the rest of the row
    above. A cell holds the length of a longest common subsequence of the lines up to it. -/
def nextRow (line : α) (corner left : Nat) : List α → List Nat → List Nat
  | other :: others, up :: ups =>
    let cell := if line = other then corner + 1 else max left up
    cell :: nextRow line up cell others ups
  | _, _ => []

/-- The rows of the table below `above`, one for each line of the first text. -/
def rows (after : List α) : List Nat → List α → List (List Nat)
  | _, [] => []
  | above, line :: rest =>
    let row := nextRow line 0 0 after above
    row :: rows after row rest

/-- The cells of the table, row by row. -/
def table (before after : List α) : Array Nat :=
  (rows after (after.map fun _ => 0) before).flatten.toArray

/-- Walk from the end of both texts to their front and collect equal lines. The numbers count the
    lines that are left of each text. Where the lines differ, the text whose last line is not needed
    for the better cell is shortened. The cell to the left is taken as the one stored before the
    current one; at the first line of the second text that is the last cell of the row above, so
    the walk may end there with fewer lines than possible, but never with a line that is not
    common. -/
def walk (before after : Array α) (cells : Array Nat) (i j : Nat) (taken : List α) : List α :=
  match i, j with
  | i + 1, j + 1 =>
    match before[i]?, after[j]? with
    | some line, some other =>
      if line = other then walk before after cells i j (line :: taken)
      else if i = 0 ∧ j = 0 then taken
      else if i = 0 ∨ cells.getD (i * after.size + j - 1) 0 > cells.getD ((i - 1) * after.size + j) 0
      then walk before after cells (i + 1) j taken
      else walk before after cells i (j + 1) taken
    | _, _ => taken
  | _, _ => taken
termination_by i + j

/-- Common lines of two texts, in order. -/
def commonLines (before after : List α) : List α :=
  walk before.toArray after.toArray (table before after) before.length after.length []

/-! ## Merging -/

/-- Merge two texts along common lines. -/
def merge (before after common : List α) : List (Mark × α) :=
  match before, after, common with
  | line :: rest, other :: others, shared :: more =>
    if line ≠ shared then (.remove, line) :: merge rest (other :: others) (shared :: more)
    else if other ≠ shared then (.add, other) :: merge (line :: rest) others (shared :: more)
    else (.keep, line) :: merge rest others more
  | line :: rest, after, common => (.remove, line) :: merge rest after common
  | [], other :: others, common => (.add, other) :: merge [] others common
  | [], [], _ => []
termination_by before.length + after.length

/-- What two texts are merged to can be read as either of them. -/
theorem linesWithout_merge (before after common : List α) :
    linesWithout .add (merge before after common) = before
      ∧ linesWithout .remove (merge before after common) = after := by
  fun_induction merge before after common with
  | case6 => exact ⟨rfl, rfl⟩
  | _ => simp_all [linesWithout_cons]

/-! ## Texts -/

/-- The lines of a text, without their line ends. There is at least one. -/
def splitLines (text : List Char) : List String :=
  (text.splitOn '\n').map String.ofList

/-- The lines of a text, where the empty text has none. -/
def linesOf (text : List Char) : List String :=
  if text.isEmpty then [] else splitLines text

/-- A single empty line is the empty text, which has no lines. -/
def withoutLoneBlank (lines : List String) : List String :=
  if lines = [""] then [] else lines

/-- The differences between two texts, line by line. -/
def lineDiff (before after : List Char) : List (Mark × String) :=
  merge (linesOf before) (linesOf after)
    (withoutLoneBlank (commonLines (splitLines before) (splitLines after)))

/-- The differences as text: each line behind the symbol of its mark. -/
def render (changes : List (Mark × String)) : List Char :=
  changes.flatMap fun (mark, line) => mark.symbol :: (line.toList ++ ['\n'])

end DefForms.LineDiff
