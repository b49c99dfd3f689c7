import DefForms.Proofs.Reader.Reading

set_option autoImplicit false

/-! # Texts in a row

Reading does not depend on where it starts: from a cursor that is some bytes and lines further, the
same text gives the same nodes and the same failure, with every place that much further
(`nodes_shift`). Since nodes that are read leave nothing behind but the cursor (`nodes_append`), two
texts with a blank in between are read one after the other. -/

namespace DefForms

/-- The span that many bytes further. -/
def Span.shift (bytes : Nat) (span : Span) : Span := ⟨span.start + bytes, span.stop + bytes⟩

namespace Reader

/-! ## Places further behind -/

section Shift

variable (bytes lines : Nat)

/-- The place that many bytes and lines further, with as many forms open. -/
def Cursor.shift (cur : Cursor) : Cursor := ⟨cur.offset + bytes, cur.line + lines, cur.depth⟩

def Failure.shift (failure : Failure) : Failure :=
  ⟨failure.problem, failure.line + lines, failure.span.shift bytes⟩

/-- What was taken, with its lines changed by `move`. -/
def Taken.shift {α : Type} (move : α → α) (taken : Taken α) : Taken α :=
  ⟨move taken.value, taken.cursor.shift bytes lines, taken.rest⟩

/-- The result of reading from a place further behind. -/
def shiftResult {α β : Type} (move : α → β) : Except Failure α → Except Failure β
  | .error failure => .error (failure.shift bytes lines)
  | .ok found => .ok (move found)

theorem step_shift (cur : Cursor) (c : Char) :
    (cur.shift bytes lines).step c = (cur.step c).shift bytes lines := by
  simp only [Cursor.step, Cursor.shift, Cursor.mk.injEq, and_true]
  constructor
  · omega
  · split <;> omega

theorem past_shift (cur : Cursor) (text : List Char) :
    (cur.shift bytes lines).past text = (cur.past text).shift bytes lines := by
  induction text generalizing cur with
  | nil => rfl
  | cons c rest ih => rw [Cursor.past_cons, step_shift, ih, Cursor.past_cons]

theorem on_shift (cur : Cursor) (text : List Char) (problem : Problem) :
    Failure.on (cur.shift bytes lines) text problem
      = (Failure.on cur text problem).shift bytes lines := by
  simp only [Failure.on, Failure.shift, Cursor.span, Cursor.shift, Span.shift, Failure.mk.injEq,
    Span.mk.injEq, true_and]
  omega

theorem unexpected_shift (cur : Cursor) (c : Option Char) :
    Failure.unexpected (cur.shift bytes lines) c
      = (Failure.unexpected cur c).shift bytes lines := by
  cases c <;> exact on_shift ..

/-! ## Reading further behind -/

theorem number_shift (cur : Cursor) (text : List Char) :
    number (cur.shift bytes lines) text
      = shiftResult bytes lines (Taken.shift bytes lines (Node.relined (· + lines)))
        (number cur text) := by
  unfold number
  split
  · split
    · simp only [past_shift, on_shift, shiftResult]
    · simp only [past_shift, shiftResult]
      rfl
  · simp only [past_shift, shiftResult]
    rfl

theorem skipBlanks_shift (cur : Cursor) (text : List Char) :
    skipBlanks (cur.shift bytes lines) text
      = ((skipBlanks cur text).1.shift bytes lines, (skipBlanks cur text).2) := by
  induction text generalizing cur with
  | nil => rfl
  | cons c rest ih =>
      rw [skipBlanks, skipBlanks]
      split
      · rw [step_shift, ih]
      · rfl

theorem head_shift (beyond : Option Char) (cur : Cursor) (text : List Char) :
    head beyond (cur.shift bytes lines) text
      = shiftResult bytes lines (Taken.shift bytes lines (Head.relined (· + lines)))
        (head beyond cur text) := by
  obtain ⟨blanks, rest, rfl, hblanks, hrest, hskip⟩ := exists_skipBlanks cur text
  rw [head, head, skipBlanks_shift, hskip]
  cases rest with
  | nil => simp only [unexpected_shift, shiftResult]
  | cons c rest =>
      simp only
      split
      · simp only [step_shift, shiftResult]
        rfl
      · split
        · simp only [past_shift, shiftResult]
          rfl
        · simp only [unexpected_shift, shiftResult]

theorem entryOfWord_shift (cur : Cursor) (word : List Char) :
    entryOfWord (cur.shift bytes lines) word
      = shiftResult bytes lines (Param.relined (· + lines)) (entryOfWord cur word) := by
  unfold entryOfWord
  split
  · split
    · simp only [on_shift, shiftResult]
    · split
      · rfl
      · simp only [past_shift, step_shift, on_shift, shiftResult]
  · simp only [on_shift, shiftResult]
  · simp only [on_shift, shiftResult]

theorem entry_shift (cur : Cursor) (c : Char) (rest : List Char) :
    entry (cur.shift bytes lines) c rest
      = shiftResult bytes lines (Taken.shift bytes lines (Param.relined (· + lines)))
        (entry cur c rest) := by
  unfold entry
  split
  · rw [entryOfWord_shift]
    cases entryOfWord cur (c :: rest.takeWhile isEntryChar) with
    | error failure => rfl
    | ok param =>
        simp only [past_shift, shiftResult]
        rfl
  · simp only [unexpected_shift, shiftResult]

/-- What is found in a span, with its lines changed by `move`. -/
def shiftFound {α : Type} (move : α → α) (found : List α × Cursor) : List α × Cursor :=
  (found.1.map move, found.2.shift bytes lines)

theorem entries_shift (cur : Cursor) (text : List Char) :
    entries (cur.shift bytes lines) text
      = shiftResult bytes lines (shiftFound bytes lines (Param.relined (· + lines)))
        (entries cur text) := by
  fun_induction entries cur text with
  | case1 cur =>
      rw [entries]
      rfl
  | case2 cur c rest hc ih => rw [entries, if_pos hc, step_shift, ih]
  | case3 cur c rest hc failure hentry =>
      have hread := hentry ▸ entry_shift bytes lines cur c rest
      exact entries_error_of_entry (Bool.eq_false_iff.2 hc) hread
  | case4 cur c rest hc taken hentry failure hrest ih =>
      have hread := hentry ▸ entry_shift bytes lines cur c rest
      rw [entries_entry (Bool.eq_false_iff.2 hc) hread]
      rw [hrest] at ih
      simp only [Taken.shift, ih, shiftResult]
  | case5 cur c rest hc taken hentry params last hrest ih =>
      have hread := hentry ▸ entry_shift bytes lines cur c rest
      rw [entries_entry (Bool.eq_false_iff.2 hc) hread]
      rw [hrest] at ih
      simp only [Taken.shift, ih, shiftResult, shiftFound, List.map_cons]

/-- A form is read further behind if what it encloses is. -/
theorem readForm_shift {α β : Type} {opener closer : Char} {unmatched : Problem}
    {read : Cursor → List Char → Except Failure α} {finish finish' : α → List Char → β}
    {move : α → α} {move' : β → β}
    (hread : ∀ cur text,
      read (cur.shift bytes lines) text = shiftResult bytes lines move (read cur text))
    (hfinish : ∀ found rest, finish' (move found) rest = move' (finish found rest))
    (cur : Cursor) (text : List Char) :
    readForm (cur.shift bytes lines) opener closer unmatched read finish' text
      = shiftResult bytes lines move' (readForm cur opener closer unmatched read finish text) := by
  have henter : (cur.shift bytes lines).enter.step opener
      = (cur.enter.step opener).shift bytes lines := step_shift bytes lines cur.enter opener
  have hsame : (cur.shift bytes lines).depth = cur.depth := rfl
  rw [readForm, readForm, henter, hsame]
  by_cases hdepth : cur.depth = maxDepth
  · rw [if_pos hdepth, if_pos hdepth, on_shift]
    rfl
  · rw [if_neg hdepth, if_neg hdepth]
    cases enclosed opener closer text with
    | none => simp only [on_shift, shiftResult]
    | some form =>
        simp only [hread]
        cases read (cur.enter.step opener) form.inner with
        | error failure => rfl
        | ok found => simp only [shiftResult, hfinish]

theorem paramList_shift (cur : Cursor) (text : List Char) :
    paramList (cur.shift bytes lines) text
      = shiftResult bytes lines (Taken.shift bytes lines (Node.relined (· + lines)))
        (paramList cur text) := by
  refine readForm_shift bytes lines (entries_shift bytes lines) ?_ cur text
  intro found rest
  simp only [shiftFound, step_shift]
  rfl

/-- The call whose head was read further behind. -/
def OpenCall.shift (form : OpenCall) : OpenCall :=
  ⟨form.line + lines, form.head.relined (· + lines), form.cursor.shift bytes lines, form.inner,
    form.rest⟩

theorem openCall_shift (cur : Cursor) (text : List Char) :
    openCall (cur.shift bytes lines) text
      = shiftResult bytes lines (OpenCall.shift bytes lines) (openCall cur text) :=
  readForm_shift bytes lines (head_shift bytes lines (some ')')) (fun _ _ => rfl) cur text

def Piece.shift : Piece → Piece
  | .node taken => .node (taken.shift bytes lines (Node.relined (· + lines)))
  | .call form => .call (form.shift bytes lines)

theorem next_shift (cur : Cursor) (c : Char) (rest : List Char) :
    next (cur.shift bytes lines) c rest
      = shiftResult bytes lines (Piece.shift bytes lines) (next cur c rest) := by
  unfold next
  split
  · rw [number_shift]
    cases number cur (c :: rest) <;> rfl
  · split
    · rw [openCall_shift]
      cases openCall cur (c :: rest) <;> rfl
    · split
      · rw [paramList_shift]
        cases paramList cur (c :: rest) <;> rfl
      · rw [head_shift]
        cases head none cur (c :: rest) with
        | error failure => rfl
        | ok taken => simp only [shiftResult, Taken.shift, Head.relined_toNode, Piece.shift]

theorem closeCall_shift (last : Cursor) :
    (last.shift bytes lines).closeCall = last.closeCall.shift bytes lines := by
  rw [Cursor.closeCall, step_shift]
  rfl

/-- Further behind, a text is read as the same nodes or fails in the same way, only further
    behind. -/
theorem nodes_shift (cur : Cursor) (text : List Char) :
    nodes (cur.shift bytes lines) text
      = shiftResult bytes lines (shiftFound bytes lines (Node.relined (· + lines)))
        (nodes cur text) := by
  fun_induction nodes cur text with
  | case1 cur =>
      rw [nodes]
      rfl
  | case2 cur c rest hc ih => rw [nodes_blank hc, step_shift, ih]
  | case3 cur c rest hc failure hnext =>
      have hread := hnext ▸ next_shift bytes lines cur c rest
      exact nodes_error_of_next (Bool.eq_false_iff.2 hc) hread
  | case4 cur c rest hc taken hnext failure hrest ih =>
      have hread := hnext ▸ next_shift bytes lines cur c rest
      rw [nodes_node (Bool.eq_false_iff.2 hc) hread]
      rw [hrest] at ih
      simp only [Taken.shift, ih]
      rfl
  | case5 cur c rest hc taken hnext more last hrest ih =>
      have hread := hnext ▸ next_shift bytes lines cur c rest
      rw [nodes_node (Bool.eq_false_iff.2 hc) hread]
      rw [hrest] at ih
      simp only [Taken.shift, ih]
      rfl
  | case6 cur c rest hc form hnext failure hargs ih =>
      have hread := hnext ▸ next_shift bytes lines cur c rest
      rw [nodes_call (Bool.eq_false_iff.2 hc) hread]
      rw [hargs] at ih
      simp only [OpenCall.shift, ih]
      rfl
  | case7 cur c rest hc form hnext args close hargs failure hrest ihargs ih =>
      have hread := hnext ▸ next_shift bytes lines cur c rest
      rw [nodes_call (Bool.eq_false_iff.2 hc) hread]
      rw [hargs] at ihargs
      rw [hrest] at ih
      simp only [OpenCall.shift, ihargs, shiftResult, shiftFound, closeCall_shift, ih]
      rfl
  | case8 cur c rest hc form hnext args close hargs more last hrest ihargs ih =>
      have hread := hnext ▸ next_shift bytes lines cur c rest
      rw [nodes_call (Bool.eq_false_iff.2 hc) hread]
      rw [hargs] at ihargs
      rw [hrest] at ih
      simp only [OpenCall.shift, ihargs, shiftResult, shiftFound, closeCall_shift, ih, prepend,
        List.map_cons, Node.relined, Node.relinedAll_eq_map]
      rfl

/-! ## Two texts -/

theorem past_eq_shift (cur : Cursor) (text : List Char) :
    cur.past text = cur.shift (byteSize text) (text.count '\n') := by
  rw [Cursor.shift, ← Cursor.past_offset, ← Cursor.past_line]
  exact congrArg (Cursor.mk _ _) (Cursor.past_depth cur text)

end Shift

/-- Behind a program and a blank, a text is read as it is alone, only further behind. -/
theorem program_append_blank {front : List Char} (back : List Char) {c : Char} {found : List Node}
    (hc : isBlank c = true) (h : program front = .ok found) :
    program (front ++ c :: back)
      = shiftResult (byteSize (front ++ [c])) ((front ++ [c]).count '\n')
        (fun more => found ++ more.map (Node.relined (· + (front ++ [c]).count '\n')))
        (program back) := by
  obtain ⟨hspells, hfits⟩ := program_eq_ok_iff.1 h
  -- the blank ends the last word of the program
  have hloose := loose_of_isStructural back (isStructural_of_isBlank hc)
  have hdepth : Cursor.start.depth + Node.nestingAll found ≤ maxDepth := by
    simpa [Cursor.start] using hfits
  have hread := nodes_append .start (c :: back) hspells hdepth hloose
  have hpast : (Cursor.start.past front).step c = Cursor.start.past (front ++ [c]) :=
    (Cursor.past_append .start front [c]).symm
  rw [nodes_blank hc, hpast, past_eq_shift, nodes_shift] at hread
  rw [program, hread, program]
  cases nodes .start back <;> rfl

end Reader

open Reader

/-- A text that is read, a blank and a second text are read as the nodes of the first and those of the
    second, whose lines are counted on; or they fail as the second text does, at a place that is
    counted on as well. -/
theorem Source.nodes_append_blank (name a b : String) (c : Char) (hc : c = ' ' ∨ c = '\n')
    {front : List Node} (h : Source.nodes ⟨name, a⟩ = .ok front) :
    (∀ back, Source.nodes ⟨name, b⟩ = .ok back →
      Source.nodes ⟨name, a ++ String.singleton c ++ b⟩
        = .ok (front ++ back.map (Node.relined (· + (a ++ String.singleton c).toList.count '\n'))))
      ∧ ∀ diagnostic, Source.nodes ⟨name, b⟩ = .error diagnostic →
        ∃ line span, diagnostic.line = some line ∧ diagnostic.span = some span
          ∧ Source.nodes ⟨name, a ++ String.singleton c ++ b⟩
            = .error { diagnostic with
                line := some (line + (a ++ String.singleton c).toList.count '\n')
                source := some ⟨name, a ++ String.singleton c ++ b⟩
                span := some (span.shift (a ++ String.singleton c).utf8ByteSize) } := by
  have hblank : isBlank c = true := by
    rcases hc with rfl | rfl <;> decide
  have hfront : program a.toList = .ok front := program_eq_ok_iff.2 (nodes_eq_ok_iff.1 h)
  have hread := program_append_blank b.toList hblank hfront
  have htext : (a ++ String.singleton c ++ b).toList = a.toList ++ c :: b.toList := by
    simp
  have hcut : a.toList ++ [c] = (a ++ String.singleton c).toList := by
    simp
  rw [← htext, hcut, byteSize_eq_utf8ByteSize, String.ofList_toList] at hread
  constructor
  · intro back hback
    have hback : program b.toList = .ok back := program_eq_ok_iff.2 (nodes_eq_ok_iff.1 hback)
    rw [Source.nodes, hread, hback]
    rfl
  · intro diagnostic hdiagnostic
    obtain ⟨failure, herror, rfl⟩ := nodes_eq_error_iff.1 hdiagnostic
    refine ⟨failure.line, failure.span, rfl, rfl, ?_⟩
    rw [Source.nodes, hread, herror]
    rfl

theorem Source.nodes_append_blank_of_call :
    Source.nodes ⟨"s", "(f\n1)" ++ String.singleton '\n' ++ "x"⟩
        = .ok ([.call 1 (.term ⟨1, "f"⟩) [.int ⟨2, "1"⟩]] ++ [.term ⟨1, "x"⟩].map
          (Node.relined (· + ("(f\n1)" ++ String.singleton '\n').toList.count '\n')))
      ∧ ∃ line span, some 1 = some line ∧ some (Span.mk 1 2) = some span
        ∧ Source.nodes ⟨"s", "(f\n1)" ++ String.singleton '\n' ++ "x)"⟩
          = .error ⟨.parse, "unexpected `)`",
            some (line + ("(f\n1)" ++ String.singleton '\n').toList.count '\n'),
            some ⟨"s", "(f\n1)" ++ String.singleton '\n' ++ "x)"⟩,
            some (span.shift ("(f\n1)" ++ String.singleton '\n').utf8ByteSize), none⟩ := by
  have hfront : Source.nodes ⟨"s", "(f\n1)"⟩
      = .ok [.call 1 (.term ⟨1, "f"⟩) [.int ⟨2, "1"⟩]] := by decide +kernel
  have hback : Source.nodes ⟨"s", "x"⟩ = .ok [.term ⟨1, "x"⟩] := by decide +kernel
  have herror : Source.nodes ⟨"s", "x)"⟩ = .error ⟨.parse, "unexpected `)`", some 1,
      some ⟨"s", "x)"⟩, some ⟨1, 2⟩, none⟩ := by decide +kernel
  exact ⟨(nodes_append_blank "s" _ _ '\n' (Or.inr rfl) hfront).1 _ hback,
    (nodes_append_blank "s" _ _ '\n' (Or.inr rfl) hfront).2 _ herror⟩

end DefForms
