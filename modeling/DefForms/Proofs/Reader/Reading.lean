import DefForms.Program
import DefForms.Proofs.Reader.Spelling

set_option autoImplicit false

/-! # What is read is what is spelled

`nodes` finds the end of each form before it looks at the contents, and reads the contents as a text
of their own. A text that is spelled is read as the nodes that it spells, whatever comes behind it, as
long as they are not nested too deep (`nodes_append`); what is read is spelled and not nested too deep
(`spells_of_nodes`). So reading succeeds exactly on what is spelled (`nodes_eq_ok_iff`), and the
search has no say in it. -/

namespace DefForms.Reader

/-! ## Cursors around a form -/

@[simp]
theorem Cursor.enter_past (cur : Cursor) (text : List Char) :
    cur.enter.past text = (cur.past text).enter := by
  induction text generalizing cur with
  | nil => rfl
  | cons c rest ih => exact ih (cur.step c)

/-- Behind a form the depth is the same as in front of it. -/
theorem Cursor.past_form (cur : Cursor) (opener closer : Char) (inner : List Char) :
    (((cur.enter.step opener).past inner).step closer).leave
      = cur.past (opener :: (inner ++ [closer])) := by
  have hstep : cur.enter.step opener = (cur.step opener).enter := rfl
  rw [hstep, Cursor.enter_past, Cursor.past_cons, Cursor.past_append]
  rfl

theorem Cursor.inside_line (cur : Cursor) {opener : Char} (text : List Char)
    (h : opener ≠ '\n') :
    ((cur.enter.step opener).past text).line = cur.line + text.count '\n' := by
  rw [Cursor.past_line, Cursor.step, if_neg h]
  rfl

theorem Cursor.inside_depth (cur : Cursor) (opener : Char) (text : List Char) :
    ((cur.enter.step opener).past text).depth = cur.depth + 1 := by
  rw [Cursor.past_depth]
  rfl

theorem Cursor.step_line (cur : Cursor) (c : Char) :
    (cur.step c).line = cur.line + [c].count '\n' :=
  Cursor.past_line cur [c]

theorem Cursor.past_plain_line (cur : Cursor) {word : List Char}
    (h : ∀ c ∈ word, isStructural c = false) : (cur.past word).line = cur.line := by
  rw [Cursor.past_line, count_newline_of_plain h, Nat.add_zero]

theorem Cursor.past_list_line (cur : Cursor) (inner : List Char) :
    (cur.past ('[' :: (inner ++ [']']))).line = cur.line + inner.count '\n' := by
  rw [Cursor.past_line]
  simp

theorem Cursor.past_call_line (cur : Cursor) (blanks inner : List Char) {word : List Char}
    (h : ∀ c ∈ word, isStructural c = false) :
    (cur.past ('(' :: (blanks ++ word ++ inner ++ [')']))).line
      = cur.line + (blanks ++ inner).count '\n' := by
  rw [Cursor.past_line]
  simp [count_newline_of_plain h]

theorem Cursor.head_line (cur : Cursor) (blanks : List Char) {word : List Char}
    (h : ∀ c ∈ word, isStructural c = false) :
    ((cur.enter.step '(').past (blanks ++ word)).line = cur.line + blanks.count '\n' := by
  rw [Cursor.inside_line cur _ (by decide), List.count_append, count_newline_of_plain h, Nat.add_zero]

/-! ## One step of reading -/

/-- The result of reading, with nodes that stand in front of what was read. -/
def prepend (front : List Node) :
    Except Failure (List Node × Cursor) → Except Failure (List Node × Cursor)
  | .error failure => .error failure
  | .ok (more, last) => .ok (front ++ more, last)

theorem prepend_prepend (front front' : List Node) (result : Except Failure (List Node × Cursor)) :
    prepend front (prepend front' result) = prepend (front ++ front') result := by
  cases result with
  | error failure => rfl
  | ok found => simp [prepend]

theorem nodes_blank {cur : Cursor} {c : Char} {rest : List Char} (hc : isBlank c = true) :
    nodes cur (c :: rest) = nodes (cur.step c) rest := by
  rw [nodes, if_pos hc]

theorem nodes_node {cur : Cursor} {c : Char} {rest : List Char} {taken : Taken Node}
    (hc : isBlank c = false) (h : next cur c rest = .ok (.node taken)) :
    nodes cur (c :: rest) = prepend [taken.value] (nodes taken.cursor taken.rest) := by
  rw [nodes, if_neg (by simp [hc])]
  split
  · next heq => simp [h] at heq
  · next found heq =>
      rw [h] at heq
      simp only [Except.ok.injEq, Piece.node.injEq] at heq
      subst heq
      cases nodes taken.cursor taken.rest <;> rfl
  · next heq => simp [h] at heq

theorem nodes_call {cur : Cursor} {c : Char} {rest : List Char} {form : OpenCall}
    (hc : isBlank c = false) (h : next cur c rest = .ok (.call form)) :
    nodes cur (c :: rest) =
      match nodes form.cursor form.inner with
      | .error failure => .error failure
      | .ok (args, close) =>
        prepend [.call form.line form.head args] (nodes close.closeCall form.rest) := by
  rw [nodes, if_neg (by simp [hc])]
  split
  · next heq => simp [h] at heq
  · next heq => simp [h] at heq
  · next found heq =>
      rw [h] at heq
      simp only [Except.ok.injEq, Piece.call.injEq] at heq
      subst heq
      cases nodes form.cursor form.inner with
      | error failure => rfl
      | ok found => cases nodes found.2.closeCall form.rest <;> rfl

theorem nodes_error_of_next {cur : Cursor} {c : Char} {rest : List Char} {failure : Failure}
    (hc : isBlank c = false) (h : next cur c rest = .error failure) :
    nodes cur (c :: rest) = .error failure := by
  rw [nodes, if_neg (by simp [hc])]
  split
  · next heq =>
      rw [h, Except.error.injEq] at heq
      rw [heq]
  · next heq => simp [h] at heq
  · next heq => simp [h] at heq

/-! ## Entries -/

theorem entries_entry {cur : Cursor} {c : Char} {rest : List Char} {taken : Taken Param}
    (hc : isBlank c = false) (h : entry cur c rest = .ok taken) :
    entries cur (c :: rest) =
      match entries taken.cursor taken.rest with
      | .error failure => .error failure
      | .ok (params, last) => .ok (taken.value :: params, last) := by
  rw [entries, if_neg (by simp [hc])]
  split
  · next heq => simp [h] at heq
  · next found heq =>
      rw [h] at heq
      simp only [Except.ok.injEq] at heq
      subst heq
      rfl

theorem entries_error_of_entry {cur : Cursor} {c : Char} {rest : List Char} {failure : Failure}
    (hc : isBlank c = false) (h : entry cur c rest = .error failure) :
    entries cur (c :: rest) = .error failure := by
  rw [entries, if_neg (by simp [hc])]
  split
  · next heq =>
      rw [h, Except.error.injEq] at heq
      rw [heq]
  · next heq => simp [h] at heq

/-- Entries that are spelled are read. -/
theorem entries_of_spells {cur : Cursor} {text : List Char} {params : List Param}
    (h : SpellsEntries cur.line text params) : entries cur text = .ok (params, cur.past text) := by
  generalize hline : cur.line = line at h
  induction h generalizing cur with
  | nil => rw [entries]; rfl
  | @blank line c rest params hc _ ih =>
      rw [entries, if_pos hc, ih (hline ▸ Cursor.step_line cur c)]
      rfl
  | @entry line word rest param params hword hends _ ih =>
      obtain ⟨c, tail, rfl, -⟩ := entryWord_chars hword
      have hplain := entryWord_plain hword
      have hread : entry cur c (tail ++ rest) = .ok ⟨param, cur.past (c :: tail), rest⟩ :=
        entry_of_entryWord (hline ▸ hword) hends
      rw [List.cons_append,
        entries_entry (isBlank_of_isStructural (hplain c (by simp))) hread,
        ih (by rw [Cursor.past_line, count_newline_of_plain hplain, hline, Nat.add_zero]),
        ← List.cons_append, Cursor.past_append]

/-- Entries that are read are spelled. -/
theorem spells_of_entries {cur last : Cursor} {text : List Char} {params : List Param}
    (h : entries cur text = .ok (params, last)) :
    SpellsEntries cur.line text params ∧ last = cur.past text := by
  fun_induction entries cur text generalizing params last with
  | case1 cur =>
      simp only [Except.ok.injEq, Prod.mk.injEq] at h
      obtain ⟨rfl, rfl⟩ := h
      exact ⟨.nil _, rfl⟩
  | case2 cur c rest hc ih =>
      obtain ⟨hspells, rfl⟩ := ih h
      exact ⟨.blank hc (Cursor.step_line cur c ▸ hspells), rfl⟩
  | case3 => simp at h
  | case4 => simp at h
  | case5 cur c rest _ taken hentry more last' _ ih =>
      simp only [Except.ok.injEq, Prod.mk.injEq] at h
      obtain ⟨rfl, rfl⟩ := h
      obtain ⟨word, rfl, hword, hends, hcursor⟩ := entryWord_of_entry hentry
      obtain ⟨hspells, rfl⟩ := ih ‹_›
      rw [hcursor, Cursor.past_line, count_newline_of_plain (entryWord_plain hword)] at hspells
      rw [hcursor, ← Cursor.past_append, ← List.cons_append]
      exact ⟨.entry hword hends hspells, rfl⟩

/-! ## Parameter lists -/

/-- A parameter list that is spelled is read. -/
theorem paramList_of_spells {cur : Cursor} {inner : List Char} {params : List Param}
    (rest : List Char) (hdepth : cur.depth ≠ maxDepth) (h : SpellsEntries cur.line inner params) :
    paramList cur ('[' :: (inner ++ ']' :: rest))
      = .ok ⟨.paramList ⟨cur.line, params⟩, cur.past ('[' :: (inner ++ [']'])), rest⟩ := by
  have hbalanced : Balanced '[' ']' inner := entries_balanced (by decide) (by decide) h
  have hentries : entries (cur.enter.step '[') inner
      = .ok (params, (cur.enter.step '[').past inner) := entries_of_spells h
  refine readForm_eq_ok_iff.2 ⟨hdepth, _, _, enclosed_of_balanced rest (by decide) hbalanced,
    hentries, ?_⟩
  rw [Cursor.past_form]

/-- A parameter list that is read is spelled. -/
theorem spells_of_paramList {cur : Cursor} {text : List Char} {taken : Taken Node}
    (h : paramList cur ('[' :: text) = .ok taken) :
    ∃ inner params, cur.depth ≠ maxDepth ∧ text = inner ++ ']' :: taken.rest
      ∧ SpellsEntries cur.line inner params ∧ taken.value = .paramList ⟨cur.line, params⟩
      ∧ taken.cursor = cur.past ('[' :: (inner ++ [']'])) := by
  obtain ⟨hdepth, form, ⟨params, last⟩, hform, hentries, rfl⟩ := readForm_eq_ok_iff.1 h
  obtain ⟨hspells, rfl⟩ := spells_of_entries hentries
  exact ⟨form.inner, params, hdepth, eq_of_enclosed hform, hspells, rfl, Cursor.past_form ..⟩

/-! ## The start of a call -/

/-- The call at the front of `'(' :: text` is opened as `form`, its head being `word`. -/
structure Opens (cur : Cursor) (text blanks word : List Char) (form : OpenCall) : Prop where
  depth_ne : cur.depth ≠ maxDepth
  enclosed_eq : enclosed '(' ')' ('(' :: text) = some ⟨blanks ++ (word ++ form.inner), form.rest⟩
  isBlank : ∀ c ∈ blanks, isBlank c = true
  leaf : Leaf (cur.line + blanks.count '\n') word form.head.toNode
  ends : Ends word form.inner
  line_eq : form.line = cur.line
  cursor_eq : form.cursor = (cur.enter.step '(').past (blanks ++ word)

theorem opens_of_openCall {cur : Cursor} {text : List Char} {form : OpenCall}
    (h : openCall cur ('(' :: text) = .ok form) : ∃ blanks word, Opens cur text blanks word form := by
  obtain ⟨hdepth, found, taken, hfound, htaken, rfl⟩ := readForm_eq_ok_iff.1 h
  obtain ⟨blanks, word, hinner, hblanks, hleaf, hends, hcursor⟩ := leaf_of_head htaken
  rw [Cursor.past_line] at hleaf
  exact ⟨blanks, word, hdepth, by rw [hfound, ← hinner], hblanks, hleaf, hends, rfl, hcursor⟩

theorem openCall_of_opens {cur : Cursor} {text blanks word : List Char} {form : OpenCall}
    (h : Opens cur text blanks word form) : openCall cur ('(' :: text) = .ok form := by
  have hleaf : Leaf ((cur.enter.step '(').past blanks).line word form.head.toNode := by
    rw [Cursor.past_line]
    exact h.leaf
  refine readForm_eq_ok_iff.2 ⟨h.depth_ne, _, _, h.enclosed_eq,
    head_of_leaf h.isBlank hleaf h.ends, ?_⟩
  rw [← h.line_eq, ← h.cursor_eq]

/-- The head of a call is read as it is whatever the form holds behind it. -/
theorem Opens.swap {cur : Cursor} {text text' blanks word inner rest : List Char} {form : OpenCall}
    (h : Opens cur text blanks word form)
    (henclosed : enclosed '(' ')' ('(' :: text') = some ⟨blanks ++ (word ++ inner), rest⟩)
    (hends : Ends word inner) :
    Opens cur text' blanks word ⟨form.line, form.head, form.cursor, inner, rest⟩ :=
  ⟨h.depth_ne, henclosed, h.isBlank, h.leaf, hends, h.line_eq, h.cursor_eq⟩

/-- Inside the call, the depth is within the bound. -/
theorem Opens.depth_le {cur : Cursor} {text blanks word : List Char} {form : OpenCall}
    (h : Opens cur text blanks word form) (hdepth : cur.depth ≤ maxDepth) :
    form.cursor.depth ≤ maxDepth := by
  have hne := h.depth_ne
  rw [h.cursor_eq, Cursor.inside_depth]
  omega

/-- The place behind a call. -/
theorem Opens.closeCall {cur : Cursor} {text blanks word : List Char} {form : OpenCall}
    (h : Opens cur text blanks word form) :
    (form.cursor.past form.inner).closeCall
      = cur.past ('(' :: (blanks ++ word ++ form.inner ++ [')'])) := by
  rw [h.cursor_eq, ← Cursor.past_append]
  exact Cursor.past_form ..

/-! ## The front of a text -/

/-- A leaf that ends is the front of a text. -/
theorem next_of_leaf {cur : Cursor} {c : Char} {word rest : List Char} {node : Node}
    (h : Leaf cur.line (c :: word) node) (hends : Ends (c :: word) rest) :
    next cur c (word ++ rest) = .ok (.node ⟨node, cur.past (c :: word), rest⟩) := by
  obtain ⟨first, tail, heq, hplain, -⟩ := leaf_start h
  obtain ⟨rfl, rfl⟩ := List.cons.inj heq
  by_cases hc : c.isDigit = true
  · have hread := number_of_leaf h hc hends
    rw [List.cons_append] at hread
    simp only [next, if_pos hc, hread]
  · have hparen : c ≠ '(' := ne_of_isStructural hplain (by decide)
    have hbracket : c ≠ '[' := ne_of_isStructural hplain (by decide)
    obtain ⟨found, rfl⟩ : ∃ found : Head, found.toNode = node := by
      cases h with
      | int h => exact absurd (h.2 c (by simp)) hc
      | float h =>
          obtain ⟨whole, fraction, hwhole, -, hword⟩ := h
          obtain ⟨d, digits, rfl⟩ := List.exists_cons_of_ne_nil hwhole.1
          obtain ⟨rfl, -⟩ := List.cons.inj hword
          exact absurd (hwhole.2 c (by simp)) hc
      | operator h => exact ⟨.operator _, rfl⟩
      | term h => exact ⟨.term _, rfl⟩
    have hread : head none cur ([] ++ (c :: word ++ rest))
        = .ok ⟨found, cur.past (c :: word), rest⟩ := head_of_leaf (by simp) h hends
    rw [List.nil_append, List.cons_append] at hread
    simp only [next, if_neg hc, if_neg hparen, if_neg hbracket, hread]

theorem next_paramList {cur : Cursor} {rest : List Char} {taken : Taken Node}
    (h : paramList cur ('[' :: rest) = .ok taken) : next cur '[' rest = .ok (.node taken) := by
  simp [next, h]

theorem next_openCall {cur : Cursor} {rest : List Char} {form : OpenCall}
    (h : openCall cur ('(' :: rest) = .ok form) : next cur '(' rest = .ok (.call form) := by
  simp [next, h]

/-- A node at the front of a text is a leaf or a parameter list. -/
theorem next_node_cases {cur : Cursor} {c : Char} {rest : List Char} {taken : Taken Node}
    (hc : isBlank c = false) (h : next cur c rest = .ok (.node taken)) :
    (∃ word, rest = word ++ taken.rest ∧ Leaf cur.line (c :: word) taken.value
        ∧ Ends (c :: word) taken.rest ∧ taken.cursor = cur.past (c :: word))
      ∨ c = '[' ∧ paramList cur ('[' :: rest) = .ok taken := by
  have front : ∀ {word}, c :: rest = word ++ taken.rest → Leaf cur.line word taken.value →
      Ends word taken.rest → taken.cursor = cur.past word →
      ∃ word, rest = word ++ taken.rest ∧ Leaf cur.line (c :: word) taken.value
        ∧ Ends (c :: word) taken.rest ∧ taken.cursor = cur.past (c :: word) := by
    intro word htext hleaf hends hcursor
    obtain ⟨first, tail, rfl, -⟩ := leaf_start hleaf
    obtain ⟨rfl, rfl⟩ := List.cons.inj htext
    exact ⟨tail, rfl, hleaf, hends, hcursor⟩
  unfold next at h
  split at h
  · next hdigit =>
      split at h
      · simp at h
      · next found hfound =>
          simp only [Except.ok.injEq, Piece.node.injEq] at h
          subst h
          obtain ⟨word, htext, hleaf, hends, hcursor⟩ := leaf_of_number hdigit hfound
          exact Or.inl (front htext hleaf hends hcursor)
  · split at h
    · split at h <;> simp at h
    · split at h
      · next hbracket =>
          subst hbracket
          split at h
          · simp at h
          · next found hfound =>
              simp only [Except.ok.injEq, Piece.node.injEq] at h
              exact Or.inr ⟨rfl, h ▸ hfound⟩
      · split at h
        · simp at h
        · next found hfound =>
            simp only [Except.ok.injEq, Piece.node.injEq] at h
            subst h
            obtain ⟨blanks, word, htext, hblanks, hleaf, hends, hcursor⟩ := leaf_of_head hfound
            cases blanks with
            | nil => exact Or.inl (front htext hleaf hends hcursor)
            | cons b blanks =>
                obtain ⟨rfl, -⟩ := List.cons.inj htext
                simp [hblanks c (by simp)] at hc

/-! ## Nodes -/

theorem nesting_leaf {line : Nat} {word : List Char} {node : Node} (h : Leaf line word node) :
    node.nesting = 0 := by
  cases h <;> rfl

/-- Nodes that are spelled and fit below the bound on the depth are read, and what stands behind
    them is read from where they end. -/
theorem nodes_append (cur : Cursor) {front : List Char} (back : List Char) {found : List Node}
    (h : Spells cur.line front found) (hfits : cur.depth + Node.nestingAll found ≤ maxDepth)
    (hback : Loose back) :
    nodes cur (front ++ back) = prepend found (nodes (cur.past front) back) := by
  -- the induction is on the spelling; inside a call, the cursor and what stands behind are others
  generalize hline : cur.line = line at h
  induction h generalizing cur back with
  | nil =>
      rw [List.nil_append, Cursor.past_nil]
      cases nodes cur back <;> rfl
  | @blank line c rest found hc _ ih =>
      have hstep : (cur.step c).line = line + [c].count '\n' := hline ▸ Cursor.step_line cur c
      rw [List.cons_append, nodes_blank hc, ih (cur.step c) back hfits hback hstep, Cursor.past_cons]
  | @leaf line word rest node found hword hends _ ih =>
      obtain ⟨c, tail, rfl, hc, -⟩ := leaf_start hword
      have hread : next cur c (tail ++ (rest ++ back))
          = .ok (.node ⟨node, cur.past (c :: tail), rest ++ back⟩) :=
        next_of_leaf (hline ▸ hword) (ends_append hends hback)
      have hpast := (Cursor.past_plain_line cur (leaf_plain hword)).trans hline
      have hfits' : (cur.past (c :: tail)).depth + Node.nestingAll found ≤ maxDepth := by
        rw [Node.nestingAll] at hfits
        rw [Cursor.past_depth]
        omega
      rw [List.append_assoc, List.cons_append, nodes_node (isBlank_of_isStructural hc) hread,
        ih _ back hfits' hback hpast, prepend_prepend, Cursor.past_append]
      rfl
  | @list line inner rest params found hinner _ ih =>
      subst hline
      rw [Node.nestingAll, Node.nesting] at hfits
      have hread := next_paramList (paramList_of_spells (rest ++ back) (by omega) hinner)
      have hpast := Cursor.past_list_line cur inner
      have hfits' : (cur.past ('[' :: (inner ++ [']']))).depth + Node.nestingAll found
          ≤ maxDepth := by
        rw [Cursor.past_depth]
        omega
      have htext : '[' :: (inner ++ ']' :: rest) ++ back
          = '[' :: (inner ++ ']' :: (rest ++ back)) := by
        simp
      have hwhole : '[' :: (inner ++ ']' :: rest) = '[' :: (inner ++ [']']) ++ rest := by simp
      rw [htext, nodes_node (by decide) hread, ih _ back hfits' hback hpast, prepend_prepend, hwhole,
        Cursor.past_append]
      rfl
  | @call line blanks word inner rest hd args found hblanks hhead hends hinner _ ihinner ihrest =>
      subst hline
      rw [Node.nestingAll, Node.nesting] at hfits
      -- the search passes the contents, as they are spelled and so balanced
      have hbalanced : Balanced '(' ')' (blanks ++ (word ++ inner)) :=
        balanced_append (balanced_of_blanks hblanks)
          (balanced_append (balanced_of_plain (leaf_plain hhead)) (spells_balanced hinner))
      have hopens : Opens cur (blanks ++ (word ++ inner) ++ ')' :: (rest ++ back)) blanks word
          ⟨cur.line, hd, (cur.enter.step '(').past (blanks ++ word), inner, rest ++ back⟩ :=
        ⟨by omega, enclosed_of_balanced (rest ++ back) (by decide) hbalanced, hblanks, hhead, hends,
          rfl, rfl⟩
      have hread := next_openCall (openCall_of_opens hopens)
      -- the contents are read as a text of their own
      have hinside := ihinner ((cur.enter.step '(').past (blanks ++ word)) []
        (by rw [Cursor.inside_depth]; omega) loose_nil
        (Cursor.head_line cur blanks (leaf_plain hhead))
      rw [List.append_nil, nodes, prepend, List.append_nil] at hinside
      have hclose := hopens.closeCall
      have hpast := Cursor.past_call_line cur blanks inner (leaf_plain hhead)
      have hfits' : (cur.past ('(' :: (blanks ++ word ++ inner ++ [')']))).depth
          + Node.nestingAll found ≤ maxDepth := by
        rw [Cursor.past_depth]
        omega
      have htext : '(' :: (blanks ++ (word ++ inner) ++ ')' :: rest) ++ back
          = '(' :: (blanks ++ (word ++ inner) ++ ')' :: (rest ++ back)) := by
        simp
      have hwhole : '(' :: (blanks ++ (word ++ inner) ++ ')' :: rest)
          = '(' :: (blanks ++ word ++ inner ++ [')']) ++ rest := by
        simp
      rw [htext, nodes_call (by decide) hread]
      simp only [hinside, hclose]
      rw [ihrest _ back hfits' hback hpast, prepend_prepend, hwhole, Cursor.past_append]
      rfl

/-- Nodes that are read are spelled and fit below the bound on the depth. -/
theorem spells_of_nodes {cur last : Cursor} {text : List Char} {found : List Node}
    (hdepth : cur.depth ≤ maxDepth) (h : nodes cur text = .ok (found, last)) :
    Spells cur.line text found ∧ cur.depth + Node.nestingAll found ≤ maxDepth
      ∧ last = cur.past text := by
  fun_induction nodes cur text generalizing found last with
  | case1 cur =>
      simp only [Except.ok.injEq, Prod.mk.injEq] at h
      obtain ⟨rfl, rfl⟩ := h
      exact ⟨.nil _, by simpa [Node.nestingAll] using hdepth, rfl⟩
  | case2 cur c rest hc ih =>
      obtain ⟨hspells, hfits, rfl⟩ := ih hdepth h
      exact ⟨.blank hc (Cursor.step_line cur c ▸ hspells), hfits, rfl⟩
  | case3 => simp at h
  | case4 => simp at h
  | case5 cur c rest hc taken hnext more last' hmore ih =>
      simp only [Except.ok.injEq, Prod.mk.injEq] at h
      obtain ⟨rfl, rfl⟩ := h
      rcases next_node_cases (Bool.eq_false_iff.2 hc) hnext with
        ⟨word, rfl, hleaf, hends, hcursor⟩ | ⟨rfl, hlist⟩
      · rw [hcursor] at ih
        obtain ⟨hspells, hfits, rfl⟩ := ih (by rw [Cursor.past_depth]; exact hdepth) (hcursor ▸ hmore)
        rw [Cursor.past_plain_line cur (leaf_plain hleaf)] at hspells
        rw [← Cursor.past_append, ← List.cons_append]
        refine ⟨.leaf hleaf hends hspells, ?_, rfl⟩
        rw [Cursor.past_depth] at hfits
        rw [Node.nestingAll, nesting_leaf hleaf]
        omega
      · obtain ⟨inner, params, hne, rfl, hinner, hvalue, hcursor⟩ := spells_of_paramList hlist
        rw [hcursor] at ih
        obtain ⟨hspells, hfits, rfl⟩ := ih (by rw [Cursor.past_depth]; exact hdepth) (hcursor ▸ hmore)
        rw [Cursor.past_list_line] at hspells
        rw [Cursor.past_depth] at hfits
        have hwhole : '[' :: (inner ++ ']' :: taken.rest)
            = '[' :: (inner ++ [']']) ++ taken.rest := by
          simp
        refine ⟨hvalue ▸ .list hinner hspells, ?_, by rw [← Cursor.past_append, hwhole]⟩
        rw [Node.nestingAll, hvalue, Node.nesting]
        omega
  | case6 => simp at h
  | case7 => simp at h
  | case8 cur c rest hc form hnext args close hargs more last' hmore ihargs ihmore =>
      simp only [Except.ok.injEq, Prod.mk.injEq] at h
      obtain ⟨rfl, rfl⟩ := h
      obtain ⟨rfl, hopen⟩ := next_call_cases hnext
      obtain ⟨blanks, word, hopens⟩ := opens_of_openCall hopen
      obtain rfl : rest = _ := eq_of_enclosed hopens.enclosed_eq
      have hplain := leaf_plain hopens.leaf
      obtain ⟨hinner, hfitsArgs, rfl⟩ := ihargs (hopens.depth_le hdepth) hargs
      rw [hopens.closeCall] at ihmore hmore
      obtain ⟨hspells, hfits, rfl⟩ := ihmore (by rw [Cursor.past_depth]; exact hdepth) hmore
      rw [Cursor.past_call_line cur blanks form.inner hplain] at hspells
      rw [Cursor.past_depth] at hfits
      rw [hopens.cursor_eq, Cursor.head_line cur blanks hplain] at hinner
      rw [hopens.cursor_eq, Cursor.inside_depth] at hfitsArgs
      have hwhole : '(' :: (blanks ++ (word ++ form.inner) ++ ')' :: form.rest)
          = '(' :: (blanks ++ word ++ form.inner ++ [')']) ++ form.rest := by
        simp
      rw [hopens.line_eq]
      refine ⟨.call hopens.isBlank hopens.leaf hopens.ends hinner hspells, ?_,
        by rw [← Cursor.past_append, hwhole]⟩
      rw [Node.nestingAll, Node.nesting]
      omega

/-- Reading succeeds exactly on what is spelled and fits below the bound on the depth. -/
theorem nodes_eq_ok_iff {cur last : Cursor} {text : List Char} {found : List Node}
    (hdepth : cur.depth ≤ maxDepth) :
    nodes cur text = .ok (found, last) ↔
      Spells cur.line text found ∧ cur.depth + Node.nestingAll found ≤ maxDepth
        ∧ last = cur.past text := by
  refine ⟨spells_of_nodes hdepth, ?_⟩
  rintro ⟨hspells, hfits, rfl⟩
  have hread := nodes_append cur [] hspells hfits loose_nil
  rw [List.append_nil, nodes, prepend, List.append_nil] at hread
  exact hread

/-- A whole program is read exactly when it is spelled and fits below the bound on the depth. -/
theorem program_eq_ok_iff {text : List Char} {found : List Node} :
    program text = .ok found ↔ Spells 1 text found ∧ Node.nestingAll found ≤ maxDepth := by
  have hread := @nodes_eq_ok_iff .start (Cursor.start.past text) text found (Nat.zero_le _)
  have hdepth : Cursor.start.depth + Node.nestingAll found = Node.nestingAll found := Nat.zero_add _
  rw [hdepth] at hread
  rw [program]
  constructor
  · intro h
    split at h
    · simp at h
    · next found' last hnodes =>
        simp only [Except.ok.injEq] at h
        subst h
        obtain ⟨hspells, hfits, -⟩ := spells_of_nodes (Nat.zero_le _) hnodes
        exact ⟨hspells, hdepth ▸ hfits⟩
  · rintro ⟨hspells, hfits⟩
    rw [hread.2 ⟨hspells, hfits, rfl⟩]

theorem program_eq_error_iff {text : List Char} {failure : Failure} :
    program text = .error failure ↔ nodes .start text = .error failure := by
  rw [program]
  cases nodes .start text <;> simp

end DefForms.Reader

namespace DefForms

/-- Results can be compared, so that a text can be read in a proof. -/
instance decidableEqExcept {ε α : Type} [DecidableEq ε] [DecidableEq α] : DecidableEq (Except ε α)
  | .ok a, .ok b => decidable_of_iff (a = b) (by simp)
  | .error a, .error b => decidable_of_iff (a = b) (by simp)
  | .ok _, .error _ => isFalse (by simp)
  | .error _, .ok _ => isFalse (by simp)

theorem byteSize_append (front back : List Char) :
    byteSize (front ++ back) = byteSize front + byteSize back := by
  induction front with
  | nil => simp [byteSize]
  | cons c rest ih => rw [List.cons_append, byteSize, byteSize, ih, Nat.add_assoc]

/-- Bytes are counted as the library counts them. -/
theorem byteSize_eq_utf8ByteSize (text : List Char) :
    byteSize text = (String.ofList text).utf8ByteSize := by
  induction text with
  | nil => rfl
  | cons c rest ih =>
      rw [String.ofList_cons, String.utf8ByteSize_append, String.utf8ByteSize_singleton, ← ih,
        byteSize]

namespace Source

theorem nodes_eq_ok_iff {source : Source} {found : List Node} :
    source.nodes = .ok found ↔
      Reader.Spells 1 source.text.toList found ∧ Node.nestingAll found ≤ Reader.maxDepth := by
  rw [← Reader.program_eq_ok_iff, nodes]
  cases Reader.program source.text.toList <;> simp

theorem nodes_eq_error_iff {source : Source} {diagnostic : Diagnostic} :
    source.nodes = .error diagnostic ↔
      ∃ failure, Reader.program source.text.toList = .error failure
        ∧ diagnostic = failure.diagnostic source := by
  rw [nodes]
  cases Reader.program source.text.toList <;> simp [eq_comm]

end Source

end DefForms
