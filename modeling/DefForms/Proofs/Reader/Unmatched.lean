import DefForms.Proofs.Bytes.Search
import DefForms.Proofs.Reader.Depth
import DefForms.Proofs.Reader.FirstFault

set_option autoImplicit false

/-! # Delimiters that are never closed

The search for a closing delimiter is made where a form starts, in the rest of the span, before anything
in there has been read. Inside a call it cannot fail for a parenthesis: the call holds as many closing
as opening parentheses, what has been read of it holds as many as well, and so does the rest
(`enclosed_of_reached`). A parenthesis without a partner is therefore outside of all forms, and a bracket
without one is searched up to the end of the innermost call (`nodes_unmatched`).

`Reached` are the places to which reading comes, and `Placed` is what holds at each of them. -/

namespace DefForms.Reader

/-! ## Closed texts -/

/-- The text closes all delimiters that it opens and no others. -/
def Closed (text : List Char) : Prop := ∀ depth, openBehind depth text = depth

theorem closed_nil : Closed [] := fun _ => rfl

theorem closed_append {front back : List Char} (hfront : Closed front) (hback : Closed back) :
    Closed (front ++ back) := by
  intro depth
  rw [openBehind_append, hfront, hback]

/-! ## Where a span ends

The span of the text that is left at a place can be told from what stands in front of the place. -/

/-- The span with `text`, behind `before`, ends in front of `after`: with the source if no form is open
    in front of it, and otherwise at the parenthesis that closes the innermost open call. -/
inductive SpanEnds : List Char → List Char → List Char → Prop where
  | source {before text : List Char} (hbefore : Closed before) : SpanEnds before text []
  | call {front inner text rest : List Char} (hinner : Closed inner)
      (henclosed : enclosed '(' ')' ('(' :: (inner ++ text ++ ')' :: rest))
        = some ⟨inner ++ text, rest⟩) :
      SpanEnds (front ++ '(' :: inner) text (')' :: rest)

theorem SpanEnds.behind {before front text after : List Char}
    (h : SpanEnds before (front ++ text) after) (hfront : Closed front) :
    SpanEnds (before ++ front) text after := by
  cases h with
  | source hbefore => exact .source (closed_append hbefore hfront)
  | @call outer inner _ rest hinner henclosed =>
      rw [List.append_assoc, List.cons_append]
      exact .call (closed_append hinner hfront) (by simpa using henclosed)

/-! ## The places to which reading comes -/

/-- Reading `whole` comes to a place where `text` is left of the span that is read. Each case is one
    of the ways in which `nodes` goes on. -/
inductive Reached (whole : List Char) : Cursor → List Char → Prop where
  | start : Reached whole .start whole
  | blank {cur : Cursor} {c : Char} {rest : List Char} (h : Reached whole cur (c :: rest))
      (hc : isBlank c = true) : Reached whole (cur.step c) rest
  | node {cur : Cursor} {c : Char} {rest : List Char} {taken : Taken Node}
      (h : Reached whole cur (c :: rest)) (hc : isBlank c = false)
      (hnext : next cur c rest = .ok (.node taken)) : Reached whole taken.cursor taken.rest
  | inside {cur : Cursor} {c : Char} {rest : List Char} {form : OpenCall}
      (h : Reached whole cur (c :: rest)) (hc : isBlank c = false)
      (hnext : next cur c rest = .ok (.call form)) : Reached whole form.cursor form.inner
  | behind {cur close : Cursor} {c : Char} {rest : List Char} {form : OpenCall} {args : List Node}
      (h : Reached whole cur (c :: rest)) (hc : isBlank c = false)
      (hnext : next cur c rest = .ok (.call form))
      (hargs : nodes form.cursor form.inner = .ok (args, close)) :
      Reached whole close.closeCall form.rest

/-- Reading fails at a place to which it comes. -/
theorem exists_reached_of_error {whole text : List Char} {cur : Cursor} {failure : Failure}
    (hreached : Reached whole cur text) (h : nodes cur text = .error failure) :
    ∃ cur' c rest, Reached whole cur' (c :: rest) ∧ isBlank c = false
      ∧ next cur' c rest = .error failure := by
  fun_induction nodes cur text with
  | case1 => simp at h
  | case2 cur c rest hc ih => exact ih (hreached.blank hc) h
  | case3 cur c rest hc failure' hnext =>
      cases h
      exact ⟨cur, c, rest, hreached, by simpa using hc, hnext⟩
  | case4 cur c rest hc taken hnext failure' hmore ih =>
      cases h
      exact ih (hreached.node (by simpa using hc) hnext) hmore
  | case5 => simp at h
  | case6 cur c rest hc form hnext failure' hargs ih =>
      cases h
      exact ih (hreached.inside (by simpa using hc) hnext) hargs
  | case7 cur c rest hc form hnext args close hargs failure' hmore _ ih =>
      cases h
      exact ih (hreached.behind (by simpa using hc) hnext hargs) hmore
  | case8 => simp at h

/-- What holds at a place to which reading comes: `before` stands in front of it and `after` behind the
    span, and what is left of a call has as many opening as closing parentheses. -/
structure Placed (whole : List Char) (cur : Cursor) (text before after : List Char) : Prop where
  text_eq : whole = before ++ (text ++ after)
  offset_eq : cur.offset = byteSize before
  depth_le : cur.depth ≤ maxDepth
  ends : SpanEnds before text after
  depth_eq : after = [] → cur.depth = 0
  count_eq : after ≠ [] → text.count '(' = text.count ')'

theorem placed_start (whole : List Char) : Placed whole .start whole [] [] :=
  ⟨by simp, rfl, Nat.zero_le _, .source closed_nil, fun _ => rfl, fun h => absurd rfl h⟩

section Placed

variable {whole text rest before after : List Char} {cur : Cursor}

/-- The place behind nodes that are read. -/
theorem Placed.behind {front : List Char} {found : List Node}
    (h : Placed whole cur (front ++ rest) before after) (hfront : Spells cur.line front found) :
    Placed whole (cur.past front) rest (before ++ front) after where
  text_eq := by simp [h.text_eq]
  offset_eq := by rw [Cursor.past_offset, h.offset_eq, byteSize_append]
  depth_le := by rw [Cursor.past_depth]; exact h.depth_le
  ends := h.ends.behind (openBehind_of_spells hfront)
  depth_eq := by rw [Cursor.past_depth]; exact h.depth_eq
  count_eq hafter := by
    have hcount := h.count_eq hafter
    have hbalanced := (spells_balanced hfront).count_eq (by decide)
    rw [List.count_append, List.count_append] at hcount
    omega

/-- The place behind the head of a call. -/
theorem Placed.inside {blanks word : List Char} {form : OpenCall}
    (h : Placed whole cur ('(' :: rest) before after) (hopens : Opens cur rest blanks word form) :
    Placed whole form.cursor form.inner (before ++ '(' :: (blanks ++ word))
      (')' :: (form.rest ++ after)) where
  text_eq := by rw [h.text_eq, eq_of_enclosed hopens.enclosed_eq]; simp
  offset_eq := by
    have hstep : (cur.enter.step '(').offset = cur.offset + byteSize ['('] :=
      Cursor.past_offset cur.enter ['(']
    rw [hopens.cursor_eq, Cursor.past_offset, hstep, h.offset_eq, Nat.add_assoc, ← byteSize_append,
      ← byteSize_append]
    rfl
  depth_le := hopens.depth_le h.depth_le
  ends := by
    have hplain := undelimited_of_plain (leaf_plain hopens.leaf)
    have hfront := undelimited_append (undelimited_of_blanks hopens.isBlank) hplain
    refine .call hfront.openBehind ?_
    have henclosed := enclosed_append after hopens.enclosed_eq
    rw [eq_of_enclosed hopens.enclosed_eq] at henclosed
    simpa using henclosed
  depth_eq hafter := by simp at hafter
  count_eq _ := by
    have hcount := count_eq_of_enclosed (by decide) hopens.enclosed_eq
    have hblanks := (balanced_of_blanks hopens.isBlank).count_eq (by decide)
    have hword := (balanced_of_plain (leaf_plain hopens.leaf)).count_eq (by decide)
    simp only [List.count_append] at hcount
    omega

/-- Reading comes to such places only. -/
theorem placed_of_reached (h : Reached whole cur text) :
    ∃ before after, Placed whole cur text before after := by
  induction h with
  | start => exact ⟨[], [], placed_start whole⟩
  | @blank cur c rest _ hc ih =>
      obtain ⟨before, after, hplaced⟩ := ih
      have hfront : Placed whole cur ([c] ++ rest) before after := hplaced
      exact ⟨_, after, hfront.behind (.blank hc (.nil _))⟩
  | @node cur c rest taken _ hc hnext ih =>
      obtain ⟨before, after, hplaced⟩ := ih
      rcases next_node_cases hc hnext with ⟨word, rfl, hleaf, -, hcursor⟩ | ⟨rfl, hlist⟩
      · have hfront : Placed whole cur (c :: word ++ taken.rest) before after := hplaced
        rw [hcursor]
        exact ⟨_, after, hfront.behind (spells_leaf hleaf)⟩
      · obtain ⟨inner, params, -, rfl, hinner, -, hcursor⟩ := spells_of_paramList hlist
        have hfront : Placed whole cur ('[' :: (inner ++ [']']) ++ taken.rest) before after := by
          simpa using hplaced
        rw [hcursor]
        exact ⟨_, after, hfront.behind (.list hinner (.nil _))⟩
  | @inside cur c rest form _ hc hnext ih =>
      obtain ⟨before, after, hplaced⟩ := ih
      obtain ⟨rfl, hopen⟩ := next_call_cases hnext
      obtain ⟨blanks, word, hopens⟩ := opens_of_openCall hopen
      exact ⟨_, _, hplaced.inside hopens⟩
  | @behind cur close c rest form args _ hc hnext hargs ih =>
      obtain ⟨before, after, hplaced⟩ := ih
      obtain ⟨rfl, hopen⟩ := next_call_cases hnext
      obtain ⟨blanks, word, hopens⟩ := opens_of_openCall hopen
      have hplain := leaf_plain hopens.leaf
      obtain ⟨hinner, -, rfl⟩ := spells_of_nodes (hopens.depth_le hplaced.depth_le) hargs
      rw [hopens.cursor_eq, Cursor.head_line cur blanks hplain] at hinner
      have hcall := Spells.call hopens.isBlank hopens.leaf hopens.ends hinner (.nil _)
      have hfront : Placed whole cur
          ('(' :: (blanks ++ (word ++ form.inner) ++ ')' :: []) ++ form.rest) before after := by
        rw [eq_of_enclosed hopens.enclosed_eq] at hplaced
        simpa using hplaced
      rw [hopens.closeCall, List.append_assoc blanks]
      exact ⟨_, after, hfront.behind hcall⟩

/-- Reading fails at such a place. -/
theorem exists_placed_of_error {failure : Failure} (h : program whole = .error failure) :
    ∃ cur c rest before after, Placed whole cur (c :: rest) before after
      ∧ next cur c rest = .error failure := by
  obtain ⟨cur, c, rest, hreached, -, hnext⟩ :=
    exists_reached_of_error .start (program_eq_error_iff.1 h)
  obtain ⟨before, after, hplaced⟩ := placed_of_reached hreached
  exact ⟨cur, c, rest, before, after, hplaced, hnext⟩

theorem Placed.enclosed (h : Placed whole cur ('(' :: rest) before after) (hafter : after ≠ []) :
    ∃ form, enclosed '(' ')' ('(' :: rest) = some form := by
  refine Option.ne_none_iff_exists'.1 fun hnone => ?_
  have hlt := count_lt_of_enclosed (by decide) hnone (by simp) (List.prefix_refl _)
  have hcount := h.count_eq hafter
  omega

/-- Inside a call, every call that starts is closed. -/
theorem enclosed_of_reached (h : Reached whole cur ('(' :: rest)) (hdepth : 0 < cur.depth) :
    ∃ form, enclosed '(' ')' ('(' :: rest) = some form := by
  obtain ⟨before, after, hplaced⟩ := placed_of_reached h
  exact hplaced.enclosed fun hafter => Nat.ne_of_gt hdepth (hplaced.depth_eq hafter)

end Placed

/-! ## The two failures -/

/-- The problem is that a delimiter is never closed. -/
def Problem.isUnmatched : Problem → Bool
  | .unmatchedParenthesis | .unmatchedBracket => true
  | .unexpected _ | .unexpectedEnd | .secondPoint | .tooDeep | .missingColon _ | .tooManyColons
  | .missingSide _ | .badType _ => false

section Failures

variable {cur : Cursor} {c : Char} {rest : List Char} {failure : Failure}

theorem head_isUnmatched {beyond : Option Char} {text : List Char}
    (h : head beyond cur text = .error failure) : failure.problem.isUnmatched = false := by
  obtain ⟨blanks, back, -, -, -, rfl⟩ := head_error h
  cases back.head?.or beyond <;> rfl

theorem isUnmatched_of_isOfEntries {problem : Problem} (h : problem.isOfEntries = true) :
    problem.isUnmatched = false := by
  cases problem with
  | unmatchedParenthesis | unmatchedBracket => simp [Problem.isOfEntries] at h
  | unexpected | unexpectedEnd | secondPoint | tooDeep | missingColon | tooManyColons | missingSide
  | badType => rfl

/-- A delimiter is reported as never closed where the search for its partner fails. -/
theorem next_unmatched (h : next cur c rest = .error failure)
    (hproblem : failure.problem.isUnmatched = true) :
    (c = '(' ∧ enclosed '(' ')' ('(' :: rest) = none
        ∧ failure = .on cur ['('] .unmatchedParenthesis)
      ∨ c = '[' ∧ enclosed '[' ']' ('[' :: rest) = none
        ∧ failure = .on cur ['['] .unmatchedBracket := by
  rcases next_error_cases h with
    ⟨hdigit, hnumber⟩ | ⟨rfl, hcall⟩ | ⟨rfl, hlist⟩ | ⟨-, -, -, hhead⟩
  · obtain ⟨word, back, -, -, rfl⟩ := number_error hdigit hnumber
    simp [Failure.on, Problem.isUnmatched] at hproblem
  · rcases readForm_eq_error_iff.1 hcall with ⟨-, rfl⟩ | ⟨-, hnone, rfl⟩ | ⟨-, form, -, hhead⟩
    · simp [Failure.on, Problem.isUnmatched] at hproblem
    · exact .inl ⟨rfl, hnone, rfl⟩
    · simp [head_isUnmatched hhead] at hproblem
  · rcases readForm_eq_error_iff.1 hlist with ⟨-, rfl⟩ | ⟨-, hnone, rfl⟩ | ⟨-, form, -, hentries⟩
    · simp [Failure.on, Problem.isUnmatched] at hproblem
    · exact .inr ⟨rfl, hnone, rfl⟩
    · simp [isUnmatched_of_isOfEntries (entries_isOfEntries hentries)] at hproblem
  · simp [head_isUnmatched hhead] at hproblem

theorem isUnmatched_iff {problem : Problem} :
    problem.isUnmatched = true ↔ problem.messageStart = "unmatched" := by
  cases problem <;> simp [Problem.isUnmatched, Problem.messageStart]

/-- The message of an unmatched delimiter belongs to no other problem. -/
theorem eq_of_message {problem other : Problem} (hother : other.isUnmatched = true)
    (h : problem.message = other.message) : problem = other := by
  have hstart : problem.messageStart = other.messageStart := by
    rw [← String.toList_inj, ← take_message, ← take_message, h]
  have hproblem : problem.isUnmatched = true :=
    isUnmatched_iff.2 (hstart.trans (isUnmatched_iff.1 hother))
  cases problem with
  | unmatchedParenthesis =>
      cases other with
      | unmatchedParenthesis => rfl
      | unmatchedBracket => exact absurd h (by decide)
      | _ => simp [Problem.isUnmatched] at hother
  | unmatchedBracket =>
      cases other with
      | unmatchedBracket => rfl
      | unmatchedParenthesis => exact absurd h (by decide)
      | _ => simp [Problem.isUnmatched] at hother
  | _ => simp [Problem.isUnmatched] at hproblem

theorem Placed.span_eq {whole text before after : List Char} {opener : Char} (problem : Problem)
    (h : Placed whole cur text before after) (hsize : opener.utf8Size = 1) :
    (Failure.on cur [opener] problem).span = ⟨byteSize before, byteSize before + 1⟩ := by
  rw [Failure.on, Cursor.span, h.offset_eq, byteSize, byteSize, hsize]

/-- A parenthesis that is never closed stands outside of all forms. -/
theorem program_unmatchedParenthesis {whole : List Char} (h : program whole = .error failure)
    (hproblem : failure.problem = .unmatchedParenthesis) :
    ∃ before rest, whole = before ++ '(' :: rest
      ∧ failure.span = ⟨byteSize before, byteSize before + 1⟩ ∧ Closed before
      ∧ ∀ part, part ≠ [] → part <+: '(' :: rest → part.count ')' < part.count '(' := by
  obtain ⟨cur, c, rest, before, after, hplaced, hnext⟩ := exists_placed_of_error h
  rcases next_unmatched hnext (by rw [hproblem]; rfl) with ⟨rfl, hnone, rfl⟩ | ⟨-, -, rfl⟩
  · have hafter : after = [] := by
      refine Decidable.not_not.1 fun hafter => ?_
      obtain ⟨form, hform⟩ := hplaced.enclosed hafter
      simp [hnone] at hform
    subst hafter
    have hends := hplaced.ends
    refine ⟨before, rest, by simpa using hplaced.text_eq, hplaced.span_eq _ rfl, ?_, ?_⟩
    · cases hends with
      | source hbefore => exact hbefore
    · exact fun part => count_lt_of_enclosed (by decide) hnone
  · simp [Failure.on] at hproblem

/-- A bracket that is never closed is not closed in its span. -/
theorem program_unmatchedBracket {whole : List Char} (h : program whole = .error failure)
    (hproblem : failure.problem = .unmatchedBracket) :
    ∃ before rest after, whole = before ++ ('[' :: rest ++ after)
      ∧ failure.span = ⟨byteSize before, byteSize before + 1⟩ ∧ SpanEnds before ('[' :: rest) after
      ∧ ∀ part, part ≠ [] → part <+: '[' :: rest → part.count ']' < part.count '[' := by
  obtain ⟨cur, c, rest, before, after, hplaced, hnext⟩ := exists_placed_of_error h
  rcases next_unmatched hnext (by rw [hproblem]; rfl) with ⟨-, -, rfl⟩ | ⟨rfl, hnone, rfl⟩
  · simp [Failure.on] at hproblem
  · exact ⟨before, rest, after, hplaced.text_eq, hplaced.span_eq _ rfl, hplaced.ends,
      fun part => count_lt_of_enclosed (by decide) hnone⟩

end Failures

end DefForms.Reader

namespace DefForms.Source

open Reader

/-- The search for a closing delimiter stops at the first place up to which as many delimiters are
    closed as opened, among bytes and among characters. Inside a call it finds the partner of every
    parenthesis that starts a call. A parenthesis is reported as never closed only if no form is open
    around it, and then more parentheses are opened than closed from there up to any later place. From
    a bracket that is reported as never closed, more brackets are opened than closed up to any later
    place of the innermost call around it, or of the source if there is none. -/
theorem nodes_unmatched (source : Source) :
    (∀ (o c : UInt8) (start stop : Nat), o ≠ c → (utf8Bytes source.text)[start]? = some o →
        start < stop → stop ≤ source.text.utf8ByteSize →
        ∃ found, Bytewise.closeByte o c start 0 (bytesIn source.text ⟨start, stop⟩) = .ok found
          ∧ IsFirst (fun index => start ≤ index ∧ index < stop
            ∧ (bytesIn source.text ⟨start, index + 1⟩).count o
              = (bytesIn source.text ⟨start, index + 1⟩).count c) found)
      ∧ (∀ (opener closer : Char) (rest : List Char), opener ≠ closer →
        IsFirst (EvenAt opener closer 0 (opener :: rest))
          (closeIndex opener closer (opener :: rest)))
      ∧ (∀ cur rest, Reached source.text.toList cur ('(' :: rest) → 0 < cur.depth →
        ∃ form, enclosed '(' ')' ('(' :: rest) = some form)
      ∧ ∀ diagnostic, source.nodes = .error diagnostic →
        (diagnostic.message = "unmatched parentheses" →
          ∃ before rest, source.text.toList = before ++ '(' :: rest
            ∧ diagnostic.span = some ⟨byteSize before, byteSize before + 1⟩ ∧ Closed before
            ∧ ∀ part, part ≠ [] → part <+: '(' :: rest → part.count ')' < part.count '(')
        ∧ (diagnostic.message = "unmatched square brackets" →
          ∃ before rest after, source.text.toList = before ++ ('[' :: rest ++ after)
            ∧ diagnostic.span = some ⟨byteSize before, byteSize before + 1⟩
            ∧ SpanEnds before ('[' :: rest) after
            ∧ ∀ part, part ≠ [] → part <+: '[' :: rest → part.count ']' < part.count '[') := by
  refine ⟨fun o c start stop => Bytewise.closeByte_isFirst,
    fun opener closer rest hne => closeIndex_isFirst hne rest, fun cur rest => enclosed_of_reached, ?_⟩
  intro diagnostic h
  obtain ⟨failure, herror, rfl⟩ := nodes_eq_error_iff.1 h
  refine ⟨fun hmessage => ?_, fun hmessage => ?_⟩
  · obtain ⟨before, rest, htext, hspan, hrest⟩ :=
      program_unmatchedParenthesis herror (eq_of_message rfl hmessage)
    exact ⟨before, rest, htext, congrArg some hspan, hrest⟩
  · obtain ⟨before, rest, after, htext, hspan, hrest⟩ :=
      program_unmatchedBracket herror (eq_of_message rfl hmessage)
    exact ⟨before, rest, after, htext, congrArg some hspan, hrest⟩

/-- The place in front of the call inside the other one. -/
theorem reached_inside : Reached "(f (g) [x:A)]".toList ⟨3, 1, 1⟩ "(g) [x:A".toList := by
  have hnext : next .start '(' "f (g) [x:A)]".toList
      = .ok (.call ⟨1, .term ⟨1, "f"⟩, ⟨2, 1, 1⟩, " (g) [x:A".toList, "]".toList⟩) := rfl
  exact .blank (.inside .start rfl hnext) rfl

theorem nodes_unmatched_of_call :
    (∃ found, Bytewise.closeByte 40 41 3 0 (bytesIn "(f (g) [x:A)]" ⟨3, 11⟩) = .ok found
        ∧ IsFirst (fun index => 3 ≤ index ∧ index < 11
          ∧ (bytesIn "(f (g) [x:A)]" ⟨3, index + 1⟩).count 40
            = (bytesIn "(f (g) [x:A)]" ⟨3, index + 1⟩).count 41) found)
      ∧ IsFirst (EvenAt '(' ')' 0 "(g) [x:A".toList) (closeIndex '(' ')' "(g) [x:A".toList)
      ∧ (∃ form, enclosed '(' ')' "(g) [x:A".toList = some form)
      ∧ Source.nodes ⟨"s", "(f (g) [x:A)]"⟩ = .error ⟨.parse, "unmatched square brackets", some 1,
        some ⟨"s", "(f (g) [x:A)]"⟩, some ⟨7, 8⟩, none⟩
      ∧ (∃ before rest after, "(f (g) [x:A)]".toList = before ++ ('[' :: rest ++ after)
        ∧ some (Span.mk 7 8) = some ⟨byteSize before, byteSize before + 1⟩
        ∧ SpanEnds before ('[' :: rest) after
        ∧ ∀ part, part ≠ [] → part <+: '[' :: rest → part.count ']' < part.count '[')
      ∧ Source.nodes ⟨"s", "a (b (c)"⟩ = .error ⟨.parse, "unmatched parentheses", some 1,
        some ⟨"s", "a (b (c)"⟩, some ⟨2, 3⟩, none⟩
      ∧ ∃ before rest, "a (b (c)".toList = before ++ '(' :: rest
        ∧ some (Span.mk 2 3) = some ⟨byteSize before, byteSize before + 1⟩ ∧ Closed before
        ∧ ∀ part, part ≠ [] → part <+: '(' :: rest → part.count ')' < part.count '(' := by
  obtain ⟨hbytes, hchars, hcalls, hfailures⟩ := nodes_unmatched ⟨"s", "(f (g) [x:A)]"⟩
  obtain ⟨-, -, -, hfailures'⟩ := nodes_unmatched ⟨"s", "a (b (c)"⟩
  have hbracket : Source.nodes ⟨"s", "(f (g) [x:A)]"⟩ = .error ⟨.parse,
      "unmatched square brackets", some 1, some ⟨"s", "(f (g) [x:A)]"⟩, some ⟨7, 8⟩, none⟩ := by
    decide +kernel
  have hparenthesis : Source.nodes ⟨"s", "a (b (c)"⟩ = .error ⟨.parse, "unmatched parentheses",
      some 1, some ⟨"s", "a (b (c)"⟩, some ⟨2, 3⟩, none⟩ := by
    decide +kernel
  exact ⟨hbytes 40 41 3 11 (by decide) (by decide +kernel) (by decide) (by decide +kernel),
    hchars '(' ')' _ (by decide), hcalls _ _ reached_inside (by decide), hbracket,
    (hfailures _ hbracket).2 rfl, hparenthesis, (hfailures' _ hparenthesis).1 rfl⟩

end DefForms.Source
