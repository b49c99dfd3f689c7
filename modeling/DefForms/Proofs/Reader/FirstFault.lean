import DefForms.Proofs.Reader.Fault

set_option autoImplicit false

/-! # Reading fails at the first fault

The part of the text that a failure is about is the first one that can be blamed: some text that
starts with what stands in front of it is read without trouble. If the problem is one that nothing
can repair (`Problem.isFinal`), no text is read that goes up to this part and contains it
(`nodesFault`).

The reader does not meet the parts of a text in order, as it looks for the end of a form first. In a
text that goes on differently behind the part, the form around it may end elsewhere or not at all. If
it ends at all, it does not end before the part (`enclosed_swap`), so the reader gets there again. -/

namespace DefForms.Reader

/-! ## Nodes -/

/-- The failure in a span of nodes: some nodes that are not nested too deep start with `before`, and
    if the problem is final, none start with `before ++ bad`. -/
structure NodesFault (cur : Cursor) (text : List Char) (failure : Failure)
    (before bad after : List Char) : Prop where
  located : Located cur text failure before bad after
  viable : ∃ more found, Spells cur.line (before ++ more) found
    ∧ cur.depth + Node.nestingAll found ≤ maxDepth ∧ (before = [] → more = [])
  final : failure.problem.isFinal = true → ∀ more, ∃ failure',
    nodes cur (before ++ (bad ++ more)) = .error failure'

section NodesFault

variable {cur : Cursor} {text before bad after : List Char} {failure : Failure}

/-- A failure at the front of a text. -/
theorem nodesFault_start (bad after : List Char) (problem : Problem) (hdepth : cur.depth ≤ maxDepth)
    (hne : bad ≠ []) (hnewline : '\n' ∉ bad)
    (hfinal : problem.isFinal = true → ∀ more, ∃ failure',
      nodes cur (bad ++ more) = .error failure') :
    ∃ before' bad' after',
      NodesFault cur (bad ++ after) (.on cur bad problem) before' bad' after' :=
  ⟨[], bad, after, located_start bad after problem hne hnewline,
    ⟨[], [], .nil _, by simpa [Node.nestingAll] using hdepth, fun _ => rfl⟩, hfinal⟩

/-- A failure behind a node that is read. -/
theorem NodesFault.behind {rest : List Char} (front : List Char) (node : Node)
    (h : NodesFault (cur.past front) rest failure before bad after) (hfront : front ≠ [])
    (hfits : cur.depth + node.nesting ≤ maxDepth)
    (hspells : ∀ more found, (before = [] → more = []) →
      Spells (cur.past front).line (before ++ more) found →
      Spells cur.line (front ++ (before ++ more)) (node :: found))
    (hnodes : ∀ more, nodes cur (front ++ (before ++ (bad ++ more)))
      = prepend [node] (nodes (cur.past front) (before ++ (bad ++ more)))) :
    NodesFault cur (front ++ rest) failure (front ++ before) bad after := by
  refine ⟨h.located.behind front, ?_, ?_⟩
  · obtain ⟨more, found, hmore, hdepth, hempty⟩ := h.viable
    refine ⟨more, node :: found, ?_, ?_, by simp [hfront]⟩
    · rw [List.append_assoc]
      exact hspells more found hempty hmore
    · rw [Cursor.past_depth] at hdepth
      rw [Node.nestingAll]
      omega
  · intro hfinal more
    obtain ⟨failure', herror⟩ := h.final hfinal more
    rw [List.append_assoc, hnodes more, herror]
    exact ⟨_, rfl⟩

theorem nodesFault_of_number {c : Char} {rest : List Char} (hdepth : cur.depth ≤ maxDepth)
    (hc : c.isDigit = true) (h : number cur (c :: rest) = .error failure) :
    ∃ before bad after, NodesFault cur (c :: rest) failure before bad after := by
  obtain ⟨word, back, htext, hdecimal, rfl⟩ := number_error hc h
  obtain ⟨tail, rfl⟩ : ∃ tail, word = c :: tail := by
    cases word with
    | nil =>
        obtain ⟨whole, fraction, -, -, hword⟩ := hdecimal
        simp at hword
    | cons d tail => exact ⟨tail, by rw [(List.cons.inj htext).1]⟩
  rw [htext]
  refine ⟨c :: tail, ['.'], back, ⟨rfl, by simp, by simp, rfl⟩, ?_, ?_⟩
  · have hspells := spells_leaf (.float hdecimal : Leaf cur.line _ _)
    refine ⟨[], _, by simpa using hspells, ?_, fun _ => rfl⟩
    simpa [Node.nestingAll, Node.nesting] using hdepth
  · intro _ more
    have hblank := isBlank_of_isStructural (isStructural_of_isNameChar (isNameChar_of_isDigit hc))
    have hread : number cur (c :: tail ++ '.' :: more) = .error _ := number_secondPoint more hdecimal
    have hnext : next cur c (tail ++ '.' :: more)
        = .error (.on (cur.past (c :: tail)) ['.'] .secondPoint) := by
      rw [next, if_pos hc, ← List.cons_append, hread]
    exact ⟨_, nodes_error_of_next hblank hnext⟩

theorem nodesFault_of_head {c : Char} {rest : List Char} (hdepth : cur.depth ≤ maxDepth)
    (hc : isBlank c = false) (hdigit : ¬ c.isDigit = true) (hparen : c ≠ '(') (hbracket : c ≠ '[')
    (h : head none cur (c :: rest) = .error failure) :
    ∃ before bad after, NodesFault cur (c :: rest) failure before bad after := by
  obtain ⟨blanks, back, htext, hblanks, hback, rfl⟩ := head_error h
  cases blanks with
  | cons b blanks =>
      obtain ⟨rfl, -⟩ := List.cons.inj htext
      simp [hblanks c (by simp)] at hc
  | nil =>
      obtain rfl : c :: rest = back := htext
      have hnewline := newline_notMem_of_isBlank hc
      refine nodesFault_start [c] rest (.unexpected c) hdepth (by simp) hnewline ?_
      intro _ more
      have hread : head none cur ([] ++ c :: more) = .error (.unexpected cur (some c)) :=
        head_unexpected (by simp) (by simpa using hback)
      rw [List.nil_append] at hread
      have hnext : next cur c more = .error (.unexpected cur (some c)) := by
        rw [next, if_neg hdigit, if_neg hparen, if_neg hbracket, hread]
      exact ⟨_, nodes_error_of_next hc hnext⟩

theorem nodesFault_of_paramList {rest : List Char} (hdepth : cur.depth ≤ maxDepth)
    (h : paramList cur ('[' :: rest) = .error failure) :
    ∃ before bad after, NodesFault cur ('[' :: rest) failure before bad after := by
  rcases readForm_eq_error_iff.1 h with ⟨hdeep, rfl⟩ | ⟨-, -, rfl⟩ | ⟨hne, form, hform, herror⟩
  · refine nodesFault_start ['['] rest .tooDeep hdepth (by simp) (by simp) ?_
    intro _ more
    exact nodes_error_of_paramList ⟨_, if_pos hdeep⟩
  · exact nodesFault_start ['['] rest .unmatchedBracket hdepth (by simp) (by simp)
      (by simp [Problem.isFinal])
  · obtain ⟨before, bad, after, hfault⟩ := entriesFault herror
    have hplace := hfault.located.inside [] (']' :: form.rest)
    rw [eq_of_enclosed hform]
    refine ⟨'[' :: before, bad, after ++ ']' :: form.rest, hplace, ?_, ?_⟩
    · obtain ⟨more, params, hentries, -⟩ := hfault.viable
      have hspells : Spells cur.line ('[' :: (before ++ more ++ [']']))
          [.paramList ⟨cur.line, params⟩] := .list hentries (.nil _)
      refine ⟨more ++ [']'], _, by simpa using hspells, ?_, by simp⟩
      rw [Node.nestingAll, Node.nestingAll, Node.nesting]
      omega
    · intro hfinal more
      apply nodes_error_of_paramList
      apply readForm_error_of_read
      intro form' hform'
      obtain ⟨more', hinner⟩ := enclosed_swap hform hfault.located.text_eq hform'
      rw [hinner]
      exact hfault.final hfinal more'

/-- A character that is no head stands where the head of a call must be. -/
theorem nodesFault_of_badHead {c : Char} {blanks back : List Char} (hdepth : cur.depth < maxDepth)
    (hblanks : ∀ x ∈ blanks, isBlank x = true) (hc : c ≠ '\n')
    (hfinal : ∀ more form, enclosed '(' ')' ('(' :: (blanks ++ c :: more)) = some form →
      ∃ failure', head (some ')') (cur.enter.step '(') form.inner = .error failure') :
    NodesFault cur ('(' :: (blanks ++ c :: back))
      (.unexpected ((cur.enter.step '(').past blanks) (some c)) ('(' :: blanks) [c] back := by
  refine ⟨⟨by simp, by simp, by simpa using hc.symm, ?_⟩, ?_, ?_⟩
  · have hstep : cur.enter.step '(' = (cur.step '(').enter := rfl
    rw [hstep, Cursor.enter_past]
    rfl
  · -- any letter will do for the head
    have hletter : IsName ['T'] := ⟨'T', [], by decide, by simp, rfl⟩
    have hspells : Spells cur.line ('(' :: (blanks ++ (['T'] ++ []) ++ [')']))
        [.call cur.line (.term ⟨cur.line + blanks.count '\n', "T"⟩) []] :=
      .call hblanks (.term hletter) (ends_of_loose loose_nil) (.nil _) (.nil _)
    refine ⟨['T', ')'], _, by simpa using hspells, ?_, by simp⟩
    simp only [Node.nestingAll, Node.nesting]
    omega
  · intro _ more
    have herror : ∃ failure', openCall cur ('(' :: (blanks ++ c :: more)) = .error failure' :=
      readForm_error_of_read _ _ (hfinal more)
    simpa using nodes_error_of_openCall herror

theorem nodesFault_of_openCall {rest : List Char} (hdepth : cur.depth ≤ maxDepth)
    (h : openCall cur ('(' :: rest) = .error failure) :
    ∃ before bad after, NodesFault cur ('(' :: rest) failure before bad after := by
  rcases readForm_eq_error_iff.1 h with ⟨hdeep, rfl⟩ | ⟨-, -, rfl⟩ | ⟨hne, form, hform, herror⟩
  · refine nodesFault_start ['('] rest .tooDeep hdepth (by simp) (by simp) ?_
    intro _ more
    exact nodes_error_of_openCall ⟨_, if_pos hdeep⟩
  · exact nodesFault_start ['('] rest .unmatchedParenthesis hdepth (by simp) (by simp)
      (by simp [Problem.isFinal])
  · obtain ⟨blanks, back, hinner, hblanks, hback, rfl⟩ := head_error herror
    have htext := eq_of_enclosed hform
    cases back with
    | nil =>
        -- the form ends where its head should be
        rw [List.append_nil] at hinner
        rw [htext, hinner]
        refine ⟨_, _, _, nodesFault_of_badHead (by omega) hblanks (by decide) ?_⟩
        intro more form' hform'
        have hbalanced := enclosed_of_balanced more (by decide) (balanced_of_blanks hblanks)
        rw [hbalanced] at hform'
        cases hform'
        exact ⟨_, List.append_nil blanks ▸ head_unexpected hblanks (by simp)⟩
    | cons c back =>
        have hc := hback c rfl
        rw [htext, hinner, List.append_assoc, List.cons_append]
        refine ⟨_, _, _, nodesFault_of_badHead (by omega) hblanks
          (ne_of_isBlank (by decide) hc.1).symm ?_⟩
        intro more form' hform'
        have hplace : form.inner = blanks ++ ([c] ++ back) := hinner
        obtain ⟨more', hinner'⟩ := enclosed_swap hform hplace hform'
        rw [hinner']
        exact ⟨_, head_unexpected hblanks (by simpa using hback)⟩

/-- What cannot be read at the front of a text. -/
theorem nodesFault_of_next {c : Char} {rest : List Char} (hdepth : cur.depth ≤ maxDepth)
    (hc : isBlank c = false) (h : next cur c rest = .error failure) :
    ∃ before bad after, NodesFault cur (c :: rest) failure before bad after := by
  rcases next_error_cases h with
    ⟨hdigit, hnumber⟩ | ⟨rfl, hcall⟩ | ⟨rfl, hlist⟩ | ⟨hdigit, hparen, hbracket, hhead⟩
  · exact nodesFault_of_number hdepth hdigit hnumber
  · exact nodesFault_of_openCall hdepth hcall
  · exact nodesFault_of_paramList hdepth hlist
  · exact nodesFault_of_head hdepth hc hdigit hparen hbracket hhead

/-- A failure among the arguments of a call. -/
theorem nodesFault_of_args {rest blanks word : List Char} {form : OpenCall}
    (hopens : Opens cur rest blanks word form)
    (h : NodesFault form.cursor form.inner failure before bad after) :
    ∃ before' bad' after', NodesFault cur ('(' :: rest) failure before' bad' after' := by
  have hplace := h.located
  rw [hopens.cursor_eq] at hplace
  have hends := hopens.ends
  rw [hplace.text_eq] at hends
  refine ⟨'(' :: (blanks ++ word ++ before), bad, after ++ ')' :: form.rest, ?_, ?_, ?_⟩
  · have hinside := hplace.inside (blanks ++ word) (')' :: form.rest)
    rwa [List.append_assoc blanks, ← eq_of_enclosed hopens.enclosed_eq] at hinside
  · obtain ⟨more, found, hspells, hfits, hmore⟩ := h.viable
    rw [hopens.cursor_eq, Cursor.inside_line cur _ (by decide), List.count_append,
      count_newline_of_plain (leaf_plain hopens.leaf), Nat.add_zero] at hspells
    rw [hopens.cursor_eq, Cursor.inside_depth] at hfits
    have hcall : Spells cur.line ('(' :: (blanks ++ (word ++ (before ++ more)) ++ [')']))
        [.call cur.line form.head found] :=
      .call hopens.isBlank hopens.leaf (hends.swap_place hmore) hspells (.nil _)
    refine ⟨more ++ [')'], _, by simpa using hcall, ?_, by simp⟩
    rw [Node.nestingAll, Node.nestingAll, Node.nesting]
    omega
  · -- in another text, the call is not closed at all or holds the place as well
    intro hfinal more
    cases hform : enclosed '(' ')' ('(' :: (blanks ++ word ++ before ++ (bad ++ more))) with
    | none =>
        apply nodes_error_of_openCall
        apply readForm_error_of_read
        intro form' hform'
        exact absurd (hform.symm.trans hform') (by simp)
    | some form' =>
        obtain ⟨inner', back⟩ := form'
        have hinner : blanks ++ (word ++ form.inner)
            = blanks ++ word ++ before ++ (bad ++ after) := by
          simp [hplace.text_eq]
        obtain ⟨more', rfl⟩ := enclosed_swap hopens.enclosed_eq hinner hform
        obtain ⟨failure', herror⟩ := h.final hfinal more'
        simp only [List.append_assoc] at hform
        have hopens' := hopens.swap hform (hends.swap hplace.bad_ne)
        have hread := nodes_call (by decide) (next_openCall (openCall_of_opens hopens'))
        rw [herror] at hread
        rw [List.cons_append, List.append_assoc, List.append_assoc]
        exact ⟨failure', hread⟩

theorem NodesFault.behind_leaf {word rest : List Char} {node : Node} (hdepth : cur.depth ≤ maxDepth)
    (hleaf : Leaf cur.line word node) (hends : Ends word rest)
    (h : NodesFault (cur.past word) rest failure before bad after) :
    NodesFault cur (word ++ rest) failure (word ++ before) bad after := by
  rw [h.located.text_eq] at hends
  have hplain := leaf_plain hleaf
  obtain ⟨c, tail, rfl, hc, -⟩ := leaf_start hleaf
  refine h.behind (c :: tail) node (by simp) ?_ ?_ ?_
  · rwa [nesting_leaf hleaf]
  · intro more found hmore hspells
    rw [Cursor.past_plain_line cur hplain] at hspells
    exact .leaf hleaf (hends.swap_place hmore) hspells
  · intro more
    have hends' : Ends (c :: tail) (before ++ (bad ++ more)) := hends.swap h.located.bad_ne
    exact nodes_node (isBlank_of_isStructural hc) (next_of_leaf hleaf hends')

theorem NodesFault.behind_list {inner rest : List Char} {params : List Param}
    (hdepth : cur.depth ≤ maxDepth) (hne : cur.depth ≠ maxDepth)
    (hinner : SpellsEntries cur.line inner params)
    (h : NodesFault (cur.past ('[' :: (inner ++ [']']))) rest failure before bad after) :
    NodesFault cur ('[' :: (inner ++ ']' :: rest)) failure ('[' :: (inner ++ [']']) ++ before) bad
      after := by
  have hwhole : '[' :: (inner ++ ']' :: rest) = '[' :: (inner ++ [']']) ++ rest := by simp
  rw [hwhole]
  refine h.behind ('[' :: (inner ++ [']'])) (.paramList ⟨cur.line, params⟩) (by simp) ?_ ?_ ?_
  · rw [Node.nesting]
    omega
  · intro more found _ hspells
    rw [Cursor.past_list_line] at hspells
    simpa using Spells.list hinner hspells
  · intro more
    have hread := paramList_of_spells (before ++ (bad ++ more)) hne hinner
    simpa using nodes_node (by decide) (next_paramList hread)

theorem NodesFault.behind_call {rest blanks word : List Char} {form : OpenCall} {args : List Node}
    {close : Cursor} (hdepth : cur.depth ≤ maxDepth) (hopens : Opens cur rest blanks word form)
    (hargs : nodes form.cursor form.inner = .ok (args, close))
    (h : NodesFault close.closeCall form.rest failure before bad after) :
    NodesFault cur ('(' :: rest) failure ('(' :: (blanks ++ word ++ form.inner ++ [')']) ++ before) bad
      after := by
  have hplain := leaf_plain hopens.leaf
  obtain ⟨hinner, hfits, rfl⟩ := spells_of_nodes (hopens.depth_le hdepth) hargs
  rw [hopens.closeCall] at h
  rw [hopens.cursor_eq, Cursor.head_line cur blanks hplain] at hinner
  rw [hopens.cursor_eq, Cursor.inside_depth] at hfits
  have hwhole : '(' :: rest = '(' :: (blanks ++ word ++ form.inner ++ [')']) ++ form.rest := by
    rw [eq_of_enclosed hopens.enclosed_eq]
    simp
  rw [hwhole]
  refine h.behind _ (.call form.line form.head args) (by simp) ?_ ?_ ?_
  · rw [Node.nesting]
    omega
  · intro more found _ hspells
    rw [Cursor.past_call_line cur blanks form.inner hplain] at hspells
    rw [hopens.line_eq]
    simpa using Spells.call hopens.isBlank hopens.leaf hopens.ends hinner hspells
  · -- the call is closed in front of the place, so it is closed there in every other text as well
    intro more
    have hbalanced := balanced_append (balanced_of_blanks hopens.isBlank)
      (balanced_append (balanced_of_plain hplain) (spells_balanced hinner))
    have hopens' := hopens.swap (enclosed_of_balanced (before ++ (bad ++ more)) (by decide) hbalanced)
      hopens.ends
    have hread := nodes_call (by decide) (next_openCall (openCall_of_opens hopens'))
    rw [hargs] at hread
    simp only [hopens.closeCall] at hread
    simpa using hread

/-- Every failure in a span of nodes has its place. -/
theorem nodesFault (hdepth : cur.depth ≤ maxDepth) (h : nodes cur text = .error failure) :
    ∃ before bad after, NodesFault cur text failure before bad after := by
  fun_induction nodes cur text with
  | case1 => simp at h
  | case2 cur c rest hc ih =>
      obtain ⟨before, bad, after, hfault⟩ := ih hdepth h
      obtain ⟨more, found, hspells, hfits, -⟩ := hfault.viable
      refine ⟨c :: before, bad, after, hfault.located.behind [c], ?_, ?_⟩
      · exact ⟨more, found, .blank hc (Cursor.step_line cur c ▸ hspells), hfits, by simp⟩
      · intro hfinal more
        rw [List.cons_append, nodes_blank hc]
        exact hfault.final hfinal more
  | case3 cur c rest hc failure' hnext =>
      cases h
      exact nodesFault_of_next hdepth (Bool.eq_false_iff.2 hc) hnext
  | case4 cur c rest hc taken hnext failure' hrest ih =>
      cases h
      rcases next_node_cases (Bool.eq_false_iff.2 hc) hnext with
        ⟨word, rfl, hleaf, hends, hcursor⟩ | ⟨rfl, hlist⟩
      · rw [hcursor] at ih hrest
        obtain ⟨before, bad, after, hfault⟩ := ih (by rwa [Cursor.past_depth]) hrest
        exact ⟨_, bad, after, hfault.behind_leaf hdepth hleaf hends⟩
      · obtain ⟨inner, params, hne, rfl, hinner, hvalue, hcursor⟩ := spells_of_paramList hlist
        rw [hcursor] at ih hrest
        obtain ⟨before, bad, after, hfault⟩ := ih (by rwa [Cursor.past_depth]) hrest
        exact ⟨_, bad, after, hfault.behind_list hdepth hne hinner⟩
  | case5 => simp at h
  | case6 cur c rest hc form hnext failure' hargs ih =>
      cases h
      obtain ⟨rfl, hopen⟩ := next_call_cases hnext
      obtain ⟨blanks, word, hopens⟩ := opens_of_openCall hopen
      obtain ⟨before, bad, after, hfault⟩ := ih (hopens.depth_le hdepth) hargs
      exact nodesFault_of_args hopens hfault
  | case7 cur c rest hc form hnext args close hargs failure' hrest ihargs ih =>
      cases h
      obtain ⟨rfl, hopen⟩ := next_call_cases hnext
      obtain ⟨blanks, word, hopens⟩ := opens_of_openCall hopen
      obtain ⟨-, -, hclose⟩ := spells_of_nodes (hopens.depth_le hdepth) hargs
      have hdepth' : close.closeCall.depth ≤ maxDepth := by
        rwa [hclose, hopens.closeCall, Cursor.past_depth]
      obtain ⟨before, bad, after, hfault⟩ := ih hdepth' hrest
      exact ⟨_, bad, after, hfault.behind_call hdepth hopens hargs⟩
  | case8 => simp at h

end NodesFault

/-! ## Messages -/

/-- The message says that something is wrong that nothing behind it can make right. -/
def FinalMessage (message : String) : Prop :=
  "unexpected ".toList <+: message.toList ∨ message = "invalid `.`; expected digit"
    ∨ "nesting too deep".toList <+: message.toList

/-- The first characters of such a message. -/
theorem take_of_finalMessage {message : String} (h : FinalMessage message) :
    message.toList.take 9 ∈ ["unexpecte".toList, "invalid `".toList, "nesting t".toList] := by
  rcases h with ⟨rest, hrest⟩ | rfl | ⟨rest, hrest⟩
  · rw [← hrest, List.take_append_of_le_length (by decide)]
    decide
  · decide
  · rw [← hrest, List.take_append_of_le_length (by decide)]
    decide

theorem take_append_append {front middle back : String} {n : Nat} (h : n ≤ front.toList.length) :
    (front ++ middle ++ back).toList.take n = front.toList.take n := by
  rw [String.append_assoc, String.toList_append, List.take_append_of_le_length h]

/-- How the message of the problem starts, in front of anything that it quotes. -/
def Problem.messageStart : Problem → String
  | .unexpected _ | .unexpectedEnd => "unexpecte"
  | .secondPoint => "invalid `"
  | .tooDeep => "nesting t"
  | .unmatchedParenthesis | .unmatchedBracket => "unmatched"
  | .missingColon _ => "expected "
  | .tooManyColons => "too many "
  | .missingSide _ => "argument "
  | .badType _ => "invalid t"

theorem take_message (problem : Problem) :
    problem.message.toList.take 9 = problem.messageStart.toList := by
  cases problem with
  | unexpectedEnd | secondPoint | unmatchedParenthesis | unmatchedBracket | tooManyColons =>
      decide +kernel
  | unexpected | tooDeep | missingColon | missingSide | badType =>
      refine (take_append_append ?_).trans ?_ <;> simp [Problem.messageStart]

/-- The other problems have messages that start otherwise. -/
theorem isFinal_of_finalMessage {problem : Problem} (h : FinalMessage problem.message) :
    problem.isFinal = true := by
  have hstart := take_of_finalMessage h
  rw [take_message] at hstart
  cases problem with
  | unexpected | unexpectedEnd | secondPoint | tooDeep => rfl
  | unmatchedParenthesis | unmatchedBracket | missingColon | tooManyColons | missingSide
  | badType => simp [Problem.messageStart] at hstart

end DefForms.Reader

namespace DefForms.Source

open Reader

/-- A failure is reported about the first part of the text that can be blamed: what stands in front of
    this part is the front of a text that is read, and if the message is final, no text is read that
    starts with the front and the part. -/
theorem nodes_error_first {source : Source} {diagnostic : Diagnostic}
    (h : source.nodes = .error diagnostic) :
    ∃ before bad after : String, source.text = before ++ bad ++ after
      ∧ diagnostic.span = some ⟨before.utf8ByteSize, (before ++ bad).utf8ByteSize⟩
      ∧ (∃ more found, Source.nodes ⟨source.name, before ++ more⟩ = .ok found)
      ∧ (FinalMessage diagnostic.message → ∀ more, ∃ diagnostic',
        Source.nodes ⟨source.name, before ++ bad ++ more⟩ = .error diagnostic') := by
  obtain ⟨failure, herror, rfl⟩ := nodes_eq_error_iff.1 h
  obtain ⟨before, bad, after, hfault⟩ := nodesFault (Nat.zero_le _) (program_eq_error_iff.1 herror)
  have hplace := hfault.located
  refine ⟨String.ofList before, String.ofList bad, String.ofList after, ?_, ?_, ?_, ?_⟩
  · rw [String.append_assoc, ← String.ofList_append, ← String.ofList_append, ← hplace.text_eq,
      String.ofList_toList]
  · rw [← String.ofList_append, ← byteSize_eq_utf8ByteSize, ← byteSize_eq_utf8ByteSize,
      byteSize_append]
    have hspan : failure.span = (Cursor.start.past before).span bad :=
      congrArg Failure.span hplace.failure_eq
    rw [Cursor.span, Cursor.past_offset] at hspan
    simpa [Failure.diagnostic, Cursor.start] using hspan
  · obtain ⟨more, found, hspells, hfits, -⟩ := hfault.viable
    refine ⟨String.ofList more, found, nodes_eq_ok_iff.2 ⟨?_, ?_⟩⟩
    · rw [← String.ofList_append, String.toList_ofList]
      exact hspells
    · simpa [Cursor.start] using hfits
  · intro hmessage more
    obtain ⟨failure', herror'⟩ := hfault.final (isFinal_of_finalMessage hmessage) more.toList
    refine ⟨_, nodes_eq_error_iff.2 ⟨failure', program_eq_error_iff.2 ?_, rfl⟩⟩
    rw [← String.ofList_append, String.toList_append, String.toList_ofList, List.append_assoc]
    exact herror'

theorem nodes_error_first_of_call :
    ∃ before bad after : String, "(a $) b" = before ++ bad ++ after
      ∧ some (Span.mk 3 4) = some ⟨before.utf8ByteSize, (before ++ bad).utf8ByteSize⟩
      ∧ (∃ more found, Source.nodes ⟨"s", before ++ more⟩ = .ok found)
      ∧ ∀ more, ∃ diagnostic', Source.nodes ⟨"s", before ++ bad ++ more⟩ = .error diagnostic' := by
  have herror : Source.nodes ⟨"s", "(a $) b"⟩ = .error ⟨.parse, "unexpected `$`", some 1,
      some ⟨"s", "(a $) b"⟩, some ⟨3, 4⟩, none⟩ := by decide +kernel
  obtain ⟨before, bad, after, htext, hspan, hviable, hfinal⟩ := nodes_error_first herror
  exact ⟨before, bad, after, htext, hspan, hviable, hfinal (Or.inl (by decide))⟩

end DefForms.Source
