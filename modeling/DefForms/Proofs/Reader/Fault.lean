import DefForms.Proofs.Reader.Reading

set_option autoImplicit false

/-! # The place of a failure

A failure is reported about a part `bad` of the text that stands behind `before` (`Located`). This
module holds what the place of a failure means for the words in front of it and for the form around
it, and finds the places of the failures among the entries of a parameter list (`entriesFault`). The
nodes follow in `Proofs/Reader/FirstFault`. -/

namespace DefForms.Reader

/-- What stands behind the place cannot repair the problem. -/
def Problem.isFinal : Problem → Bool
  | .unexpected _ | .unexpectedEnd | .secondPoint | .tooDeep => true
  | .unmatchedParenthesis | .unmatchedBracket | .missingColon _ | .tooManyColons | .missingSide _
  | .badType _ => false

/-! ## Places -/

/-- The failure is about `bad`, which stands in the text between `before` and `after`. -/
structure Located (cur : Cursor) (text : List Char) (failure : Failure)
    (before bad after : List Char) : Prop where
  text_eq : text = before ++ (bad ++ after)
  bad_ne : bad ≠ []
  newline_notMem : '\n' ∉ bad
  failure_eq : failure = .on (cur.past before) bad failure.problem

section Located

variable {cur : Cursor} {text before bad after : List Char} {failure : Failure}

theorem located_start (bad after : List Char) (problem : Problem) (hne : bad ≠ [])
    (hnewline : '\n' ∉ bad) : Located cur (bad ++ after) (.on cur bad problem) [] bad after :=
  ⟨rfl, hne, hnewline, rfl⟩

theorem Located.behind (front : List Char)
    (h : Located (cur.past front) text failure before bad after) :
    Located cur (front ++ text) failure (front ++ before) bad after := by
  refine ⟨?_, h.bad_ne, h.newline_notMem, ?_⟩
  · rw [h.text_eq, List.append_assoc]
  · rw [Cursor.past_append]
    exact h.failure_eq

/-- Places inside a form are places in the text that starts with the form. -/
theorem Located.inside {opener : Char} (front back : List Char)
    (h : Located ((cur.enter.step opener).past front) text failure before bad after) :
    Located cur (opener :: (front ++ text ++ back)) failure (opener :: (front ++ before)) bad
      (after ++ back) := by
  refine ⟨?_, h.bad_ne, h.newline_notMem, ?_⟩
  · simp [h.text_eq]
  · have heq := h.failure_eq
    have hstep : cur.enter.step opener = (cur.step opener).enter := rfl
    -- the depth has no part in the place
    rw [hstep, Cursor.enter_past, Cursor.enter_past, ← Cursor.past_append] at heq
    exact heq

end Located

theorem newline_notMem_of_isBlank {c : Char} (hc : isBlank c = false) : '\n' ∉ [c] := by
  simpa using (ne_of_isBlank (by decide : isBlank '\n' = true) hc)

/-! ## Words in front of the place -/

section Words

variable {word before bad after more : List Char}

/-- A word that ends in front of the place of a failure ends there whatever is behind the place. -/
theorem Ends.swap (h : Ends word (before ++ (bad ++ after))) (hne : bad ≠ []) :
    Ends word (before ++ (bad ++ more)) := by
  rw [← List.append_assoc] at h ⊢
  exact ends_congr h (by simp [hne])

theorem Ends.swap_place (h : Ends word (before ++ (bad ++ after))) (hmore : before = [] → more = []) :
    Ends word (before ++ more) := by
  cases before with
  | nil => rw [hmore rfl]; simp [Ends]
  | cons c before => exact h

theorem EntryEnds.swap (h : EntryEnds (before ++ (bad ++ after))) (hne : bad ≠ []) :
    EntryEnds (before ++ (bad ++ more)) := by
  rw [← List.append_assoc] at h ⊢
  have hfront := List.append_ne_nil_of_right_ne_nil before hne
  obtain ⟨c, rest, hrest⟩ := List.exists_cons_of_ne_nil hfront
  rw [hrest] at h ⊢
  exact h

theorem EntryEnds.swap_place (h : EntryEnds (before ++ (bad ++ after)))
    (hmore : before = [] → more = []) : EntryEnds (before ++ more) := by
  cases before with
  | nil => rw [hmore rfl]; simp [EntryEnds]
  | cons c before => exact h

end Words

/-! ## Entries -/

/-- The failure in a span of entries: some entries start with `before`, and if the problem is final,
    none start with `before ++ bad`. -/
structure EntriesFault (cur : Cursor) (text : List Char) (failure : Failure)
    (before bad after : List Char) : Prop where
  located : Located cur text failure before bad after
  viable : ∃ more params, SpellsEntries cur.line (before ++ more) params
    ∧ (before = [] → more = [])
  final : failure.problem.isFinal = true → ∀ more, ∃ failure',
    entries cur (before ++ (bad ++ more)) = .error failure'

/-- The word of an entry that is none. -/
theorem entriesFault_of_word {cur : Cursor} {c : Char} {word : List Char} {failure : Failure}
    (back : List Char) (hstart : isEntryStart c = true) (hword : ∀ x ∈ word, isEntryChar x = true)
    (h : entryOfWord cur (c :: word) = .error failure) :
    ∃ before bad after, EntriesFault cur (c :: word ++ back) failure before bad after := by
  have hnewline : '\n' ∉ c :: word := by
    intro hmem
    rcases List.mem_cons.1 hmem with heq | hmem
    · rw [← heq] at hstart
      exact absurd hstart (by decide)
    · exact absurd (hword _ hmem) (by decide)
  rcases entryOfWord_error hstart hword h with ⟨problem, hproblem, rfl⟩ | ⟨name, type, sides, rfl⟩
  · refine ⟨[], c :: word, back, located_start (c :: word) back problem (by simp) hnewline,
      ⟨[], [], .nil _, fun _ => rfl⟩, ?_⟩
    intro hfinal
    simp only [List.mem_cons, List.not_mem_nil, or_false] at hproblem
    rcases hproblem with rfl | rfl | rfl <;> simp [Failure.on, Problem.isFinal] at hfinal
  · have hplace : cur.past (name ++ [':']) = (cur.past name).step ':' := Cursor.past_append ..
    refine ⟨name ++ [':'], type, back, ⟨?_, sides.type_ne, ?_, ?_⟩, ?_, ?_⟩
    · rw [sides.eq]
      simp
    · intro hmem
      apply hnewline
      rw [sides.eq]
      simp [hmem]
    · rw [hplace]
      rfl
    · -- any letter will do for the type
      have hletter : IsName ['T'] := ⟨'T', [], by decide, by simp, rfl⟩
      have hentry := SpellsEntries.entry (.intro sides.name hletter) (by simp [EntryEnds])
        (.nil cur.line)
      exact ⟨['T'], _, by simpa using hentry, by simp⟩
    · intro hfinal
      simp [Failure.on, Problem.isFinal] at hfinal

/-- The front of a span of entries that is no entry. -/
theorem entriesFault_of_entry {cur : Cursor} {c : Char} {rest : List Char} {failure : Failure}
    (hc : isBlank c = false) (h : entry cur c rest = .error failure) :
    ∃ before bad after, EntriesFault cur (c :: rest) failure before bad after := by
  by_cases hstart : isEntryStart c = true
  · rw [entry, if_pos hstart] at h
    split at h
    · next hword =>
        cases h
        have hfault := entriesFault_of_word (rest.dropWhile isEntryChar) hstart
          (fun x hx => mem_takeWhile hx) hword
        rwa [List.cons_append, List.takeWhile_append_dropWhile] at hfault
    · simp at h
  · rw [entry, if_neg hstart] at h
    cases h
    have hnewline := newline_notMem_of_isBlank hc
    refine ⟨[], [c], rest, located_start [c] rest (.unexpected c) (by simp) hnewline,
      ⟨[], [], .nil _, fun _ => rfl⟩, fun _ more => ⟨.unexpected cur (some c), ?_⟩⟩
    exact entries_error_of_entry hc (if_neg hstart)

/-- Every failure in a span of entries has its place. -/
theorem entriesFault {cur : Cursor} {text : List Char} {failure : Failure}
    (h : entries cur text = .error failure) :
    ∃ before bad after, EntriesFault cur text failure before bad after := by
  fun_induction entries cur text with
  | case1 => simp at h
  | case2 cur c rest hc ih =>
      obtain ⟨before, bad, after, hfault⟩ := ih h
      obtain ⟨more, params, hspells, -⟩ := hfault.viable
      refine ⟨c :: before, bad, after, hfault.located.behind [c], ?_, ?_⟩
      · exact ⟨more, params, .blank hc (Cursor.step_line cur c ▸ hspells), by simp⟩
      · intro hfinal more
        rw [List.cons_append, entries, if_pos hc]
        exact hfault.final hfinal more
  | case3 cur c rest hc failure' hentry =>
      cases h
      exact entriesFault_of_entry (Bool.eq_false_iff.2 hc) hentry
  | case4 cur c rest hc taken hentry failure' hrest ih =>
      cases h
      obtain ⟨before, bad, after, hfault⟩ := ih hrest
      obtain ⟨word, rfl, hword, hends, hcursor⟩ := entryWord_of_entry hentry
      rw [hcursor] at hfault
      have hplace := hfault.located
      rw [hplace.text_eq] at hends
      refine ⟨c :: word ++ before, bad, after, hplace.behind (c :: word), ?_, ?_⟩
      · obtain ⟨more, params, hspells, hmore⟩ := hfault.viable
        rw [Cursor.past_line, count_newline_of_plain (entryWord_plain hword)] at hspells
        refine ⟨more, taken.value :: params, ?_, by simp⟩
        rw [List.append_assoc]
        exact .entry hword (hends.swap_place hmore) hspells
      · intro hfinal more
        obtain ⟨failure', herror⟩ := hfault.final hfinal more
        have hread : entry cur c (word ++ (before ++ (bad ++ more))) = .ok ⟨_, _, _⟩ :=
          entry_of_entryWord hword (hends.swap hplace.bad_ne)
        rw [List.append_assoc, List.cons_append, entries_entry (Bool.eq_false_iff.2 hc) hread, herror]
        exact ⟨_, rfl⟩
  | case5 => simp at h

/-! ## Forms that cannot be read -/

/-- A form with `bad` inside has it inside whatever stands behind `bad`. -/
theorem enclosed_swap {opener closer : Char} {text before bad after more : List Char}
    {form form' : Enclosed} (h : enclosed opener closer (opener :: text) = some form)
    (hinner : form.inner = before ++ (bad ++ after))
    (h' : enclosed opener closer (opener :: (before ++ (bad ++ more))) = some form') :
    ∃ more', form'.inner = before ++ (bad ++ more') := by
  have htext := eq_of_enclosed h
  rw [hinner, ← List.append_assoc before, List.append_assoc (before ++ bad)] at htext
  rw [← List.append_assoc] at hinner h'
  obtain ⟨more', hmore⟩ := enclosed_inner_extends (htext ▸ h) hinner h'
  exact ⟨more', by rw [hmore, List.append_assoc]⟩

/-- What cannot be read at the front of a text is a number, a form or a head. -/
theorem next_error_cases {cur : Cursor} {c : Char} {rest : List Char} {failure : Failure}
    (h : next cur c rest = .error failure) :
    (c.isDigit = true ∧ number cur (c :: rest) = .error failure)
      ∨ (c = '(' ∧ openCall cur ('(' :: rest) = .error failure)
      ∨ (c = '[' ∧ paramList cur ('[' :: rest) = .error failure)
      ∨ ¬ c.isDigit = true ∧ c ≠ '(' ∧ c ≠ '[' ∧ head none cur (c :: rest) = .error failure := by
  unfold next at h
  split at h
  · next hdigit =>
      split at h
      · next hnumber =>
          cases h
          exact .inl ⟨hdigit, hnumber⟩
      · simp at h
  · next hdigit =>
      split at h
      · next hparen =>
          subst hparen
          split at h
          · next hcall =>
              cases h
              exact .inr (.inl ⟨rfl, hcall⟩)
          · simp at h
      · next hparen =>
          split at h
          · next hbracket =>
              subst hbracket
              split at h
              · next hlist =>
                  cases h
                  exact .inr (.inr (.inl ⟨rfl, hlist⟩))
              · simp at h
          · next hbracket =>
              split at h
              · next hhead =>
                  cases h
                  exact .inr (.inr (.inr ⟨hdigit, hparen, hbracket, hhead⟩))
              · simp at h

/-- A form cannot be read if what it encloses cannot, wherever it ends. -/
theorem readForm_error_of_read {α β : Type} {cur : Cursor} {opener closer : Char} {text : List Char}
    {read : Cursor → List Char → Except Failure α} (unmatched : Problem)
    (finish : α → List Char → β)
    (h : ∀ form, enclosed opener closer text = some form →
      ∃ failure, read (cur.enter.step opener) form.inner = .error failure) :
    ∃ failure, readForm cur opener closer unmatched read finish text = .error failure := by
  by_cases hdepth : cur.depth = maxDepth
  · exact ⟨_, readForm_eq_error_iff.2 (.inl ⟨hdepth, rfl⟩)⟩
  · cases hform : enclosed opener closer text with
    | none => exact ⟨_, readForm_eq_error_iff.2 (.inr (.inl ⟨hdepth, hform, rfl⟩))⟩
    | some form =>
        obtain ⟨failure, herror⟩ := h form hform
        exact ⟨failure, readForm_eq_error_iff.2 (.inr (.inr ⟨hdepth, form, hform, herror⟩))⟩

theorem nodes_error_of_paramList {cur : Cursor} {rest : List Char}
    (h : ∃ failure, paramList cur ('[' :: rest) = .error failure) :
    ∃ failure, nodes cur ('[' :: rest) = .error failure := by
  obtain ⟨failure, herror⟩ := h
  exact ⟨failure, nodes_error_of_next (by decide) (by simp [next, herror])⟩

theorem nodes_error_of_openCall {cur : Cursor} {rest : List Char}
    (h : ∃ failure, openCall cur ('(' :: rest) = .error failure) :
    ∃ failure, nodes cur ('(' :: rest) = .error failure := by
  obtain ⟨failure, herror⟩ := h
  exact ⟨failure, nodes_error_of_next (by decide) (by simp [next, herror])⟩

/-! ## The problems of entries -/

/-- The problem can be one of the entries of a parameter list. -/
def Problem.isOfEntries : Problem → Bool
  | .unexpected _ | .missingColon _ | .tooManyColons | .missingSide _ | .badType _ => true
  | .unexpectedEnd | .secondPoint | .tooDeep | .unmatchedParenthesis | .unmatchedBracket => false

theorem entry_isOfEntries {cur : Cursor} {c : Char} {rest : List Char} {failure : Failure}
    (h : entry cur c rest = .error failure) : failure.problem.isOfEntries = true := by
  rw [entry] at h
  split at h
  · next hstart =>
      split at h
      · next hword =>
          obtain rfl := Except.error.inj h
          rcases entryOfWord_error hstart (fun x hx => mem_takeWhile hx) hword with
            ⟨problem, hproblem, rfl⟩ | ⟨name, type, -, rfl⟩
          · simp only [List.mem_cons, List.not_mem_nil, or_false] at hproblem
            rcases hproblem with rfl | rfl | rfl <;> rfl
          · rfl
      · simp at h
  · exact Except.error.inj h ▸ rfl

theorem entries_isOfEntries {cur : Cursor} {text : List Char} {failure : Failure}
    (h : entries cur text = .error failure) : failure.problem.isOfEntries = true := by
  fun_induction entries cur text with
  | case1 => simp at h
  | case2 _ _ _ _ ih => exact ih h
  | case3 cur c rest hc failure' hentry => exact Except.error.inj h ▸ entry_isOfEntries hentry
  | case4 cur c rest hc taken hentry failure' hmore ih => exact ih (Except.error.inj h ▸ hmore)
  | case5 => simp at h

/-! ## The end of the text

Where a character is asked for there is one: a span that is too short is closed by a delimiter. -/

section EndOfText

variable {cur : Cursor} {c : Char} {text rest : List Char} {failure : Failure}

theorem unexpected_ne_unexpectedEnd (cur : Cursor) (c : Char) :
    (Failure.unexpected cur (some c)).problem ≠ .unexpectedEnd := by
  simp [Failure.unexpected, Failure.on]

theorem next_ne_unexpectedEnd (hc : isBlank c = false) (h : next cur c rest = .error failure) :
    failure.problem ≠ .unexpectedEnd := by
  rcases next_error_cases h with
    ⟨hdigit, hnumber⟩ | ⟨rfl, hcall⟩ | ⟨rfl, hlist⟩ | ⟨-, -, -, hhead⟩
  · obtain ⟨word, back, -, -, rfl⟩ := number_error hdigit hnumber
    simp [Failure.on]
  · rcases readForm_eq_error_iff.1 hcall with ⟨-, rfl⟩ | ⟨-, -, rfl⟩ | ⟨-, form, -, hhead⟩
    · simp [Failure.on]
    · simp [Failure.on]
    · obtain ⟨blanks, back, -, -, -, rfl⟩ := head_error hhead
      cases back <;> exact unexpected_ne_unexpectedEnd _ _
  · rcases readForm_eq_error_iff.1 hlist with ⟨-, rfl⟩ | ⟨-, -, rfl⟩ | ⟨-, form, -, hentries⟩
    · simp [Failure.on]
    · simp [Failure.on]
    · intro hend
      have hproblem := entries_isOfEntries hentries
      simp [hend, Problem.isOfEntries] at hproblem
  · obtain ⟨blanks, back, htext, hblanks, -, rfl⟩ := head_error hhead
    cases blanks with
    | nil =>
        obtain rfl : c :: rest = back := htext
        exact unexpected_ne_unexpectedEnd _ _
    | cons b blanks =>
        obtain ⟨rfl, -⟩ := List.cons.inj htext
        simp [hblanks c (by simp)] at hc

theorem nodes_ne_unexpectedEnd (h : nodes cur text = .error failure) :
    failure.problem ≠ .unexpectedEnd := by
  fun_induction nodes cur text with
  | case1 => simp at h
  | case2 _ _ _ _ ih => exact ih h
  | case3 cur c rest hc failure' hnext =>
      exact Except.error.inj h ▸ next_ne_unexpectedEnd (by simpa using hc) hnext
  | case4 _ _ _ _ _ _ failure' hmore ih => exact ih (Except.error.inj h ▸ hmore)
  | case5 => simp at h
  | case6 _ _ _ _ _ _ failure' hargs ih => exact ih (Except.error.inj h ▸ hargs)
  | case7 _ _ _ _ _ _ _ _ _ failure' hmore _ ih => exact ih (Except.error.inj h ▸ hmore)
  | case8 => simp at h

end EndOfText

end DefForms.Reader
