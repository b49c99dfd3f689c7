import DefForms.LineDiff

set_option autoImplicit false

/-! # Lines and common lines

A text is its lines with a line end between two of them, so it can be put together again from them
(`joined_linesOf`) and lines without line ends are found again in it (`splitLines_joined`).

The lines that the walk through the table takes stand in both texts in this order, whatever the cells
of the table are (`commonLines_sublist`); only how many it takes depends on them. Of a text and itself
it takes all lines, so such a text has no differences (`lineDiff_self`). -/

namespace DefForms.LineDiff

/-! ## Lines of a text -/

/-- The text with these lines. -/
def joined (lines : List String) : List Char :=
  ['\n'].intercalate (lines.map String.toList)

theorem newline_notMem_of_mem_splitOn {text line : List Char} (h : line ∈ text.splitOn '\n') :
    '\n' ∉ line := by
  induction text generalizing line with
  | nil =>
      rw [List.splitOn_nil, List.mem_singleton] at h
      simp [h]
  | cons c rest ih =>
      rw [List.splitOn_cons_eq_if_modifyHead] at h
      obtain ⟨first, more, hrest⟩ := List.exists_cons_of_ne_nil (List.splitOn_ne_nil '\n' rest)
      rw [hrest] at ih h
      split at h
      · rcases List.mem_cons.1 h with rfl | hline
        · simp
        · exact ih hline
      · next hc =>
          rcases List.mem_cons.1 h with rfl | hline
          · have hfirst := ih List.mem_cons_self
            have hne : '\n' ≠ c := fun heq => hc (beq_iff_eq.2 heq.symm)
            simp [hne, hfirst]
          · exact ih (List.mem_cons_of_mem first hline)

/-- No line of a text holds a line end. -/
theorem newline_notMem_of_mem_linesOf {text : List Char} {line : String} (h : line ∈ linesOf text) :
    '\n' ∉ line.toList := by
  rw [linesOf] at h
  split at h
  · simp at h
  · obtain ⟨chars, hchars, rfl⟩ := List.mem_map.1 h
    rw [String.toList_ofList]
    exact newline_notMem_of_mem_splitOn hchars

theorem map_toList_splitLines (text : List Char) :
    (splitLines text).map String.toList = text.splitOn '\n' := by
  rw [splitLines, List.map_map]
  exact List.map_id'' (fun _ => String.toList_ofList) _

theorem joined_splitLines (text : List Char) : joined (splitLines text) = text := by
  rw [joined, map_toList_splitLines, List.intercalate_splitOn]

theorem joined_linesOf (text : List Char) : joined (linesOf text) = text := by
  cases text with
  | nil => rfl
  | cons c rest => exact joined_splitLines (c :: rest)

/-- Lines without line ends are found again in their text. -/
theorem splitLines_joined {lines : List String} (hne : lines ≠ [])
    (h : ∀ line ∈ lines, '\n' ∉ line.toList) : splitLines (joined lines) = lines := by
  have hchars : ∀ chars ∈ lines.map String.toList, '\n' ∉ chars := by
    intro chars hchars
    obtain ⟨line, hline, rfl⟩ := List.mem_map.1 hchars
    exact h line hline
  rw [splitLines, joined, List.splitOn_intercalate '\n' hchars (by simpa using hne), List.map_map]
  exact List.map_id'' (fun _ => String.ofList_toList) _

theorem splitLines_ne_lone_blank {text : List Char} (h : text ≠ []) : splitLines text ≠ [""] := by
  intro hlines
  have htext := joined_splitLines text
  rw [hlines] at htext
  exact h htext.symm

/-- Common lines that were joined and split again: a single empty line is lost. -/
theorem linesOf_joined {lines : List String} (h : ∀ line ∈ lines, '\n' ∉ line.toList) :
    linesOf (joined lines) = withoutLoneBlank lines := by
  cases htext : joined lines with
  | nil =>
      by_cases hne : lines = []
      · rw [hne]
        rfl
      · have hlines := splitLines_joined hne h
        rw [htext] at hlines
        rw [← hlines]
        rfl
  | cons c rest =>
      have hne : lines ≠ [] := by
        intro hnil
        rw [hnil] at htext
        exact List.cons_ne_nil c rest htext.symm
      have hlines := splitLines_joined hne h
      rw [htext] at hlines
      have hblank := splitLines_ne_lone_blank (List.cons_ne_nil c rest)
      rw [hlines] at hblank
      rw [withoutLoneBlank, if_neg hblank, ← hlines]
      rfl

/-! ## Common lines -/

section Common

variable {α : Type} [DecidableEq α]

omit [DecidableEq α] in
theorem cons_sublist_drop {lines : Array α} {i : Nat} {line : α} {taken : List α}
    (hline : lines[i]? = some line) (h : taken.Sublist (lines.toList.drop (i + 1))) :
    (line :: taken).Sublist (lines.toList.drop i) := by
  obtain ⟨hi, rfl⟩ := Array.getElem?_eq_some_iff.1 hline
  rw [List.drop_eq_getElem_cons hi]
  exact h.cons_cons _

/-- The lines that were taken stand behind the place that the walk has come to, in both texts. -/
theorem walk_sublist {before after : Array α} {cells : Array Nat} {i j : Nat} {taken : List α}
    (hbefore : taken.Sublist (before.toList.drop i)) (hafter : taken.Sublist (after.toList.drop j)) :
    (walk before after cells i j taken).Sublist before.toList
      ∧ (walk before after cells i j taken).Sublist after.toList := by
  have hback : ∀ {lines : List α} {n : Nat} {found : List α},
      found.Sublist (lines.drop (n + 1)) → found.Sublist (lines.drop n) :=
    fun h => h.trans (List.drop_sublist_drop_left _ (Nat.le_succ _))
  fun_induction walk before after cells i j taken with
  | case1 taken i j line hother hline ih =>
      exact ih (cons_sublist_drop hline hbefore) (cons_sublist_drop hother hafter)
  | case2 | case5 | case6 =>
      exact ⟨hbefore.trans (List.drop_sublist _ _), hafter.trans (List.drop_sublist _ _)⟩
  | case3 taken i j line other _ _ _ _ _ ih => exact ih hbefore (hback hafter)
  | case4 taken i j line other _ _ _ _ _ ih => exact ih (hback hbefore) hafter

theorem commonLines_sublist (before after : List α) :
    (commonLines before after).Sublist before ∧ (commonLines before after).Sublist after :=
  walk_sublist (List.nil_sublist _) (List.nil_sublist _)

/-- The walk from the end of a text and itself takes every line, whatever the cells of the table
    say: they are asked for only where the lines differ. -/
theorem walk_self (lines : List α) (cells : Array Nat) (count : Nat) (taken : List α)
    (h : count ≤ lines.length) :
    walk lines.toArray lines.toArray cells count count taken = lines.take count ++ taken := by
  induction count generalizing taken with
  | zero => simp [walk]
  | succ count ih =>
      have hline : lines.toArray[count]? = some lines[count] := by simp
      rw [walk, hline]
      simp only [if_true]
      rw [ih _ (Nat.le_of_succ_le h), List.take_succ_eq_append_getElem h, List.append_assoc]
      rfl

theorem commonLines_self (lines : List α) : commonLines lines lines = lines := by
  rw [commonLines, walk_self lines _ _ _ (Nat.le_refl _), List.take_length, List.append_nil]

theorem merge_self (lines : List α) :
    merge lines lines lines = lines.map fun line => (Mark.keep, line) := by
  induction lines with
  | nil => rw [merge]; rfl
  | cons line rest ih => simp [merge, ih]

end Common

/-- All lines of a text are kept when it is compared with itself. -/
theorem lineDiff_self (text : List Char) :
    lineDiff text text = (linesOf text).map fun line => (Mark.keep, line) := by
  rw [lineDiff, commonLines_self]
  cases text with
  | nil => simp [linesOf, merge]
  | cons c rest =>
      have hlines : linesOf (c :: rest) = splitLines (c :: rest) := rfl
      rw [withoutLoneBlank, if_neg (splitLines_ne_lone_blank (List.cons_ne_nil c rest)), hlines,
        merge_self]

end DefForms.LineDiff
