import DefForms.Proofs.LineDiff.Lines
import DefForms.Proofs.LineDiff.Rounds
import Mathlib.Data.List.Basic

set_option autoImplicit false

/-! # The printed differences

The differences of two texts are printed in rounds (`Unmerged.rounds`). The lines of a chunk are
joined to a text, which is split again, and each line is printed behind the symbol of the chunk. What
is printed is the text of `lineDiff` (`printed_eq_render`), and either text is read off it again by
the symbols that its lines begin with (`printed_reads_back`). -/

namespace DefForms.LineDiff

/-! ## Printing in rounds -/

/-- The lines of a chunk are joined, split again, and printed behind the symbol of the chunk. -/
def Chunk.render (chunk : Chunk String) : List Char :=
  (splitLines (joined chunk.lines)).flatMap fun line => chunk.mark.symbol :: (line.toList ++ ['\n'])

/-- The two texts before any round, with their common lines, which were joined and split again. -/
def unmerged (before after : List Char) : Unmerged String :=
  ⟨linesOf before, linesOf after,
    linesOf (joined (commonLines (splitLines before) (splitLines after)))⟩

/-- What is printed about two texts, or nothing if the rounds never end. -/
def printed (before after : List Char) : Option (List Char) :=
  (unmerged before after).rounds.map fun chunks => chunks.flatMap Chunk.render

/-! ## Reading a text back -/

/-- The lines of a printed text, each of which has a line end. -/
def endedLines (output : List Char) : List (List Char) := (output.splitOn '\n').dropLast

/-- The text of the lines that begin with one of the symbols, without these. -/
def textBehind (symbols output : List Char) : List Char :=
  ['\n'].intercalate
    (((endedLines output).filter fun line => line.head?.any (· ∈ symbols)).map List.tail)

theorem endedLines_flatMap {lines : List (List Char)} (h : ∀ line ∈ lines, '\n' ∉ line) :
    endedLines (lines.flatMap (· ++ ['\n'])) = lines := by
  induction lines with
  | nil => rfl
  | cons line rest ih =>
      have hrest := ih fun other hother => h other (List.mem_cons_of_mem line hother)
      have hnil := List.splitOn_ne_nil '\n' (rest.flatMap (· ++ ['\n']))
      rw [endedLines] at hrest
      rw [endedLines, List.flatMap_cons, List.append_assoc, List.singleton_append,
        List.splitOn_append_cons_self_of_not_mem (h line List.mem_cons_self),
        List.dropLast_cons_of_ne_nil hnil, hrest]

/-- A change as a printed line. -/
def lineOf (change : Mark × String) : List Char := change.1.symbol :: change.2.toList

theorem render_eq_flatMap (changes : List (Mark × String)) :
    render changes = (changes.map lineOf).flatMap (· ++ ['\n']) := by
  rw [List.flatMap_map]
  rfl

theorem endedLines_render {changes : List (Mark × String)}
    (h : ∀ change ∈ changes, '\n' ∉ change.2.toList) :
    endedLines (render changes) = changes.map lineOf := by
  rw [render_eq_flatMap]
  refine endedLines_flatMap fun line hline => ?_
  obtain ⟨⟨mark, text⟩, hchange, rfl⟩ := List.mem_map.1 hline
  have hsymbol : '\n' ≠ mark.symbol := by cases mark <;> decide
  simpa [lineOf, hsymbol] using h _ hchange

/-- The symbols of the marks but `other`. -/
def symbolsWithout (other : Mark) : List Char :=
  ([.keep, .remove, .add].filter (· ≠ other)).map Mark.symbol

theorem symbol_mem_symbolsWithout (mark other : Mark) :
    mark.symbol ∈ symbolsWithout other ↔ mark ≠ other := by
  cases mark <;> cases other <;> decide

/-- The text behind these symbols has the lines with their marks. -/
theorem textBehind_render (other : Mark) {changes : List (Mark × String)}
    (h : ∀ change ∈ changes, '\n' ∉ change.2.toList) :
    textBehind (symbolsWithout other) (render changes) = joined (linesWithout other changes) := by
  have hfilter : (fun line => line.head?.any (· ∈ symbolsWithout other)) ∘ lineOf
      = fun change => decide (change.1 ≠ other) := by
    funext change
    simp [lineOf, symbol_mem_symbolsWithout]
  rw [textBehind, endedLines_render h, List.filter_map, hfilter, joined, linesWithout, List.map_map,
    List.map_map]
  rfl

/-! ## What is printed -/

theorem mem_or_mem_of_mem_merge {α : Type} [DecidableEq α] {before after common : List α}
    {change : Mark × α} (h : change ∈ merge before after common) :
    change.2 ∈ before ∨ change.2 ∈ after := by
  obtain ⟨hbefore, hafter⟩ := linesWithout_merge before after common
  by_cases hmark : change.1 = .add
  · have hmem := mem_linesWithout h (by rw [hmark]; decide : change.1 ≠ .remove)
    rw [hafter] at hmem
    exact .inr hmem
  · have hmem := mem_linesWithout h hmark
    rw [hbefore] at hmem
    exact .inl hmem

theorem newline_notMem_of_mem_lineDiff {before after : List Char} {change : Mark × String}
    (h : change ∈ lineDiff before after) : '\n' ∉ change.2.toList := by
  rcases mem_or_mem_of_mem_merge h with hbefore | hafter
  · exact newline_notMem_of_mem_linesOf hbefore
  · exact newline_notMem_of_mem_linesOf hafter

theorem unmerged_common (before after : List Char) :
    (unmerged before after).common
      = withoutLoneBlank (commonLines (splitLines before) (splitLines after)) := by
  refine linesOf_joined fun line hline => ?_
  have hbefore := (commonLines_sublist (splitLines before) (splitLines after)).1.subset hline
  obtain ⟨chars, hchars, rfl⟩ := List.mem_map.1 hbefore
  rw [String.toList_ofList]
  exact newline_notMem_of_mem_splitOn hchars

theorem changes_unmerged (before after : List Char) :
    (unmerged before after).changes = lineDiff before after := by
  rw [Unmerged.changes, unmerged_common]
  rfl

/-- The empty text has no lines, and nothing is left of common lines that stand in its one blank
    line. -/
theorem withoutLoneBlank_sublist {lines : List String} {text : List Char}
    (h : lines.Sublist (splitLines text)) : (withoutLoneBlank lines).Sublist (linesOf text) := by
  cases text with
  | nil =>
      rcases List.sublist_singleton.1 h with rfl | rfl
      · exact List.nil_sublist _
      · exact List.nil_sublist _
  | cons c rest =>
      rw [withoutLoneBlank]
      split
      · exact List.nil_sublist _
      · exact h

theorem embedded_unmerged (before after : List Char) : (unmerged before after).Embedded := by
  obtain ⟨hbefore, hafter⟩ := commonLines_sublist (splitLines before) (splitLines after)
  constructor
  · rw [unmerged_common]
    exact withoutLoneBlank_sublist hbefore
  · rw [unmerged_common]
    exact withoutLoneBlank_sublist hafter

theorem Chunk.render_eq {chunk : Chunk String} (hne : chunk.lines ≠ [])
    (h : ∀ change ∈ chunk.changes, '\n' ∉ change.2.toList) :
    chunk.render = LineDiff.render chunk.changes := by
  have hlines : ∀ line ∈ chunk.lines, '\n' ∉ line.toList :=
    fun line hline => h _ (List.mem_map_of_mem hline)
  rw [Chunk.render, splitLines_joined hne hlines, LineDiff.render, Chunk.changes, List.flatMap_map]

/-- The rounds end, and they print the differences. -/
theorem printed_eq_render (before after : List Char) :
    printed before after = some (render (lineDiff before after)) := by
  obtain ⟨chunks, hrounds, hchanges, hne⟩ :=
    Unmerged.exists_rounds_eq_some (embedded_unmerged before after)
  rw [changes_unmerged] at hchanges
  have hrender : ∀ chunk ∈ chunks, chunk.render = render chunk.changes := by
    intro chunk hchunk
    refine Chunk.render_eq (hne chunk hchunk) fun change hchange => ?_
    have hmem : change ∈ lineDiff before after := by
      rw [← hchanges]
      exact List.mem_flatMap.2 ⟨chunk, hchunk, hchange⟩
    exact newline_notMem_of_mem_lineDiff hmem
  rw [printed, hrounds, Option.map_some, List.flatMap_congr hrender, ← hchanges, render,
    List.flatMap_assoc]
  rfl

/-- What is printed about two texts is a list of lines that begin with a blank, `-` or `+`. The
    lines behind a blank or `-` make up the first text, those behind a blank or `+` the second. If
    the texts are equal, all lines begin with a blank. -/
theorem printed_reads_back (before after : List Char) :
    ∃ output, printed before after = some output
      ∧ output = render (lineDiff before after)
      ∧ output = (endedLines output).flatMap (· ++ ['\n'])
      ∧ (∀ line ∈ endedLines output, ∃ symbol ∈ [' ', '-', '+'], line.head? = some symbol)
      ∧ textBehind [' ', '-'] output = before
      ∧ textBehind [' ', '+'] output = after
      ∧ (before = after → ∀ line ∈ endedLines output, line.head? = some ' ') := by
  have hlines : ∀ change ∈ lineDiff before after, '\n' ∉ change.2.toList :=
    fun _ h => newline_notMem_of_mem_lineDiff h
  have hended := endedLines_render hlines
  refine ⟨render (lineDiff before after), printed_eq_render before after, rfl, ?_, ?_, ?_, ?_, ?_⟩
  · rw [hended, render_eq_flatMap]
  · intro line hline
    rw [hended] at hline
    obtain ⟨⟨mark, text⟩, -, rfl⟩ := List.mem_map.1 hline
    cases mark <;> simp [lineOf, Mark.symbol]
  · calc textBehind [' ', '-'] (render (lineDiff before after))
        = joined (linesWithout .add (lineDiff before after)) := textBehind_render .add hlines
      _ = joined (linesOf before) := congrArg joined (linesWithout_merge _ _ _).1
      _ = before := joined_linesOf before
  · calc textBehind [' ', '+'] (render (lineDiff before after))
        = joined (linesWithout .remove (lineDiff before after)) := textBehind_render .remove hlines
      _ = joined (linesOf after) := congrArg joined (linesWithout_merge _ _ _).2
      _ = after := joined_linesOf after
  · intro heq line hline
    rw [hended, heq, lineDiff_self, List.map_map] at hline
    obtain ⟨text, -, rfl⟩ := List.mem_map.1 hline
    rfl

/-- Two texts with repeated and empty lines, and one of them against itself. -/
theorem printed_reads_back_of_repeated :
    printed "x\n\nx\ny".toList "x\ny\n".toList = some " x\n+y\n \n-x\n-y\n".toList
      ∧ textBehind [' ', '-'] " x\n+y\n \n-x\n-y\n".toList = "x\n\nx\ny".toList
      ∧ textBehind [' ', '+'] " x\n+y\n \n-x\n-y\n".toList = "x\ny\n".toList
      ∧ printed "x\n\nx\ny".toList "x\n\nx\ny".toList = some " x\n \n x\n y\n".toList
      ∧ ∀ line ∈ endedLines " x\n \n x\n y\n".toList, line.head? = some ' ' := by
  have hchanges : lineDiff "x\n\nx\ny".toList "x\ny\n".toList
      = [(.keep, "x"), (.add, "y"), (.keep, ""), (.remove, "x"), (.remove, "y")] := by
    cbv
  obtain ⟨output, hprinted, houtput, -, -, hold, hnew, -⟩ :=
    printed_reads_back "x\n\nx\ny".toList "x\ny\n".toList
  rw [hchanges] at houtput
  obtain ⟨same, hsame, hrender, -, -, -, -, hkept⟩ :=
    printed_reads_back "x\n\nx\ny".toList "x\n\nx\ny".toList
  rw [lineDiff_self] at hrender
  subst houtput hrender
  exact ⟨hprinted, hold, hnew, hsame, hkept rfl⟩

end DefForms.LineDiff
