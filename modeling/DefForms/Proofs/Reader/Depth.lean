import DefForms.Proofs.Reader.Reading

set_option autoImplicit false

/-! # The bound on the depth

A spelled text is read unless some delimiter in it is opened inside `maxDepth` open forms, and then
the first such delimiter is what is reported (`nodes_of_deep`). How many forms are open at a place is
counted from the text alone (`openBehind`): the reader is not asked. -/

namespace DefForms.Reader

/-! ## Open delimiters -/

/-- The character opens a call or a parameter list. -/
def isOpener (c : Char) : Bool := c == '(' || c == '['

theorem isOpener_iff {c : Char} : isOpener c = true ↔ c = '(' ∨ c = '[' := by simp [isOpener]

/-- The character closes a call or a parameter list. -/
def isCloser (c : Char) : Bool := c == ')' || c == ']'

/-- The number of open delimiters behind the text if `depth` are open in front of it. -/
def openBehind (depth : Nat) : List Char → Nat
  | [] => depth
  | c :: rest =>
    if isOpener c then openBehind (depth + 1) rest
    else if isCloser c then openBehind (depth - 1) rest
    else openBehind depth rest

/-- No delimiter of the text is opened where `maxDepth` are open. -/
def Shallow (depth : Nat) (text : List Char) : Prop :=
  ∀ front c back, text = front ++ c :: back → isOpener c = true → openBehind depth front ≠ maxDepth

/-- The character `c` behind `before` is the first delimiter of the text that is opened where
    `maxDepth` are open. -/
structure FirstDeep (depth : Nat) (text before : List Char) (c : Char) (after : List Char) :
    Prop where
  text_eq : text = before ++ c :: after
  isOpener : isOpener c = true
  openBehind_eq : openBehind depth before = maxDepth
  shallow : Shallow depth before

theorem openBehind_append (depth : Nat) (front back : List Char) :
    openBehind depth (front ++ back) = openBehind (openBehind depth front) back := by
  induction front generalizing depth with
  | nil => rfl
  | cons c front ih =>
      rw [List.cons_append, openBehind, openBehind]
      split
      · exact ih _
      · split
        · exact ih _
        · exact ih _

theorem shallow_nil (depth : Nat) : Shallow depth [] := by
  intro front c back h
  simp at h

theorem shallow_cons {depth : Nat} {c : Char} {rest : List Char}
    (hc : isOpener c = true → depth ≠ maxDepth) (h : Shallow (openBehind depth [c]) rest) :
    Shallow depth (c :: rest) := by
  intro front d back heq hd
  cases front with
  | nil =>
      obtain ⟨rfl, -⟩ := List.cons.inj heq
      exact hc hd
  | cons c' front =>
      obtain ⟨rfl, hrest⟩ := List.cons.inj heq
      rw [← List.singleton_append, openBehind_append]
      exact h front d back hrest hd

theorem shallow_append {depth : Nat} {front back : List Char} (hfront : Shallow depth front)
    (hback : Shallow (openBehind depth front) back) : Shallow depth (front ++ back) := by
  induction front generalizing depth with
  | nil => exact hback
  | cons c front ih =>
      rw [← List.singleton_append, openBehind_append] at hback
      refine shallow_cons (hfront [] c front rfl) (ih ?_ hback)
      intro front' d back' heq hd
      have hwhole := hfront (c :: front') d back' (by rw [heq]; rfl) hd
      rwa [← List.singleton_append, openBehind_append] at hwhole

section FirstDeep

variable {depth : Nat} {text before after : List Char} {c : Char}

theorem firstDeep_start (after : List Char) (hc : isOpener c = true) (hdepth : depth = maxDepth) :
    FirstDeep depth (c :: after) [] c after :=
  ⟨rfl, hc, hdepth, shallow_nil _⟩

theorem FirstDeep.behind {front : List Char} (hfront : Shallow depth front)
    (h : FirstDeep (openBehind depth front) text before c after) :
    FirstDeep depth (front ++ text) (front ++ before) c after where
  text_eq := by rw [h.text_eq, List.append_assoc]
  isOpener := h.isOpener
  openBehind_eq := by rw [openBehind_append, h.openBehind_eq]
  shallow := shallow_append hfront h.shallow

theorem FirstDeep.within (back : List Char) (h : FirstDeep depth text before c after) :
    FirstDeep depth (text ++ back) before c (after ++ back) :=
  ⟨by rw [h.text_eq, List.append_assoc, List.cons_append], h.isOpener, h.openBehind_eq, h.shallow⟩

end FirstDeep

/-! ## Spelled texts -/

/-- A text without delimiters. -/
structure Undelimited (text : List Char) : Prop where
  isOpener : ∀ c ∈ text, isOpener c = false
  isCloser : ∀ c ∈ text, isCloser c = false

section Undelimited

variable {text front back : List Char}

/-- A text is without delimiters if its characters have a property that no delimiter has. -/
theorem undelimited_of_forall {p : Char → Prop} (hcall : ¬ p '(' ∧ ¬ p ')')
    (hlist : ¬ p '[' ∧ ¬ p ']') (h : ∀ c ∈ text, p c) : Undelimited text := by
  have hne : ∀ c ∈ text, ∀ d, ¬ p d → c ≠ d := by
    rintro c hc d hd rfl
    exact hd (h c hc)
  constructor
  · intro c hc
    simp [Reader.isOpener, hne c hc '(' hcall.1, hne c hc '[' hlist.1]
  · intro c hc
    simp [Reader.isCloser, hne c hc ')' hcall.2, hne c hc ']' hlist.2]

theorem undelimited_of_plain (h : ∀ c ∈ text, isStructural c = false) : Undelimited text :=
  undelimited_of_forall (by decide) (by decide) h

theorem undelimited_of_blanks (h : ∀ c ∈ text, isBlank c = true) : Undelimited text :=
  undelimited_of_forall (by decide) (by decide) h

theorem undelimited_of_isBlank {c : Char} (hc : isBlank c = true) : Undelimited [c] :=
  undelimited_of_blanks (by simpa using hc)

theorem undelimited_append (hfront : Undelimited front) (hback : Undelimited back) :
    Undelimited (front ++ back) where
  isOpener c hc := (List.mem_append.1 hc).elim (hfront.isOpener c) (hback.isOpener c)
  isCloser c hc := (List.mem_append.1 hc).elim (hfront.isCloser c) (hback.isCloser c)

theorem Undelimited.openBehind (h : Undelimited text) (depth : Nat) :
    openBehind depth text = depth := by
  induction text with
  | nil => rfl
  | cons c rest ih =>
      obtain ⟨hopener, hrest⟩ := List.forall_mem_cons.1 h.isOpener
      obtain ⟨hcloser, hrest'⟩ := List.forall_mem_cons.1 h.isCloser
      rw [Reader.openBehind, hopener, hcloser]
      exact ih ⟨hrest, hrest'⟩

theorem Undelimited.shallow (h : Undelimited text) (depth : Nat) : Shallow depth text := by
  intro front c back heq hc
  rw [h.isOpener c (by simp [heq])] at hc
  exact absurd hc (by decide)

theorem undelimited_of_entries {line : Nat} {params : List Param}
    (h : SpellsEntries line text params) : Undelimited text := by
  induction h with
  | nil => exact ⟨by simp, by simp⟩
  | blank hc _ ih =>
      exact undelimited_append (undelimited_of_isBlank hc) ih
  | entry hword _ _ ih => exact undelimited_append (undelimited_of_plain (entryWord_plain hword)) ih

end Undelimited

/-- A form has as many open delimiters behind it as in front of it. -/
theorem openBehind_form {opener closer : Char} {depth : Nat} {inner : List Char}
    (hopener : isOpener opener = true) (hcloser : isCloser closer = true)
    (hne : isOpener closer = false) (hinner : openBehind (depth + 1) inner = depth + 1) :
    openBehind depth (opener :: (inner ++ [closer])) = depth := by
  rw [openBehind, if_pos hopener, openBehind_append, hinner, openBehind, hne, hcloser]
  rfl

/-- A form is shallow if it is not opened too deep and its contents are shallow. -/
theorem shallow_form {opener closer : Char} {depth : Nat} {inner : List Char}
    (hopener : isOpener opener = true) (hne : isOpener closer = false) (hdepth : depth ≠ maxDepth)
    (hinner : Shallow (depth + 1) inner) : Shallow depth (opener :: (inner ++ [closer])) := by
  have hinside : openBehind depth [opener] = depth + 1 := by rw [openBehind, if_pos hopener]; rfl
  have hcloser : Shallow (openBehind (depth + 1) inner) [closer] :=
    shallow_cons (by simp [hne]) (shallow_nil _)
  exact shallow_cons (fun _ => hdepth) (hinside ▸ shallow_append hinner hcloser)

/-- A spelled text closes what it opens. -/
theorem openBehind_of_spells {line : Nat} {text : List Char} {nodes : List Node}
    (h : Spells line text nodes) (depth : Nat) : openBehind depth text = depth := by
  induction h generalizing depth with
  | nil => rfl
  | blank hc _ ih =>
      rw [← List.singleton_append, openBehind_append, (undelimited_of_isBlank hc).openBehind, ih]
  | leaf hword _ _ ih =>
      rw [openBehind_append, (undelimited_of_plain (leaf_plain hword)).openBehind, ih]
  | @list line inner rest params nodes hinner _ ih =>
      have hform : openBehind depth ('[' :: (inner ++ [']'])) = depth :=
        openBehind_form (by decide) (by decide) (by decide)
          ((undelimited_of_entries hinner).openBehind _)
      have hwhole : '[' :: (inner ++ ']' :: rest) = '[' :: (inner ++ [']']) ++ rest := by simp
      rw [hwhole, openBehind_append, hform, ih]
  | @call line blanks word inner rest head args nodes hblanks hhead _ _ _ ihinner ih =>
      have hfront : Undelimited (blanks ++ word) :=
        undelimited_append (undelimited_of_blanks hblanks) (undelimited_of_plain (leaf_plain hhead))
      have hform : openBehind depth ('(' :: (blanks ++ word ++ inner ++ [')'])) = depth :=
        openBehind_form (by decide) (by decide) (by decide)
          (by rw [openBehind_append, hfront.openBehind, ihinner])
      have hwhole : '(' :: (blanks ++ (word ++ inner) ++ ')' :: rest)
          = '(' :: (blanks ++ word ++ inner ++ [')']) ++ rest := by
        simp
      rw [hwhole, openBehind_append, hform, ih]

/-- A spelled text whose nodes fit below the bound opens nothing too deep. -/
theorem shallow_of_spells {line depth : Nat} {text : List Char} {nodes : List Node}
    (h : Spells line text nodes) (hfits : depth + Node.nestingAll nodes ≤ maxDepth) :
    Shallow depth text := by
  induction h generalizing depth with
  | nil => exact shallow_nil _
  | @blank line c rest nodes hc _ ih =>
      have hblank := undelimited_of_isBlank hc
      rw [← List.singleton_append]
      refine shallow_append (hblank.shallow depth) ?_
      rw [hblank.openBehind]
      exact ih hfits
  | leaf hword _ _ ih =>
      rw [Node.nestingAll] at hfits
      have hplain := undelimited_of_plain (leaf_plain hword)
      refine shallow_append (hplain.shallow depth) ?_
      rw [hplain.openBehind]
      exact ih (by omega)
  | @list line inner rest params nodes hinner _ ih =>
      rw [Node.nestingAll, Node.nesting] at hfits
      have hentries := undelimited_of_entries hinner
      have hwhole : '[' :: (inner ++ ']' :: rest) = '[' :: (inner ++ [']']) ++ rest := by simp
      rw [hwhole]
      refine shallow_append ?_ ?_
      · exact shallow_form (by decide) (by decide) (by omega) (hentries.shallow _)
      · rw [openBehind_form (by decide) (by decide) (by decide) (hentries.openBehind _)]
        exact ih (by omega)
  | @call line blanks word inner rest head args nodes hblanks hhead _ hinner _ ihinner ih =>
      rw [Node.nestingAll, Node.nesting] at hfits
      have hfront : Undelimited (blanks ++ word) :=
        undelimited_append (undelimited_of_blanks hblanks) (undelimited_of_plain (leaf_plain hhead))
      have hinside : openBehind (depth + 1) (blanks ++ word) = depth + 1 := hfront.openBehind _
      have hwhole : '(' :: (blanks ++ (word ++ inner) ++ ')' :: rest)
          = '(' :: (blanks ++ word ++ inner ++ [')']) ++ rest := by
        simp
      rw [hwhole]
      refine shallow_append ?_ ?_
      · refine shallow_form (by decide) (by decide) (by omega) ?_
        exact shallow_append (hfront.shallow _) (hinside.symm ▸ ihinner (by omega))
      · rw [openBehind_form (by decide) (by decide) (by decide)
          (by rw [openBehind_append, hinside, openBehind_of_spells hinner])]
        exact ih (by omega)

/-! ## Forms around and in front of the place -/

section Forms

variable {depth : Nat} {front inner rest before after : List Char} {c : Char}

theorem FirstDeep.behind_list (hinner : Undelimited inner) (hdepth : depth ≠ maxDepth)
    (h : FirstDeep depth rest before c after) :
    FirstDeep depth ('[' :: (inner ++ ']' :: rest)) ('[' :: (inner ++ [']']) ++ before) c after := by
  have hwhole : '[' :: (inner ++ ']' :: rest) = '[' :: (inner ++ [']']) ++ rest := by simp
  rw [hwhole]
  refine .behind (shallow_form (by decide) (by decide) hdepth (hinner.shallow _)) ?_
  rwa [openBehind_form (by decide) (by decide) (by decide) (hinner.openBehind _)]

theorem FirstDeep.behind_call {line : Nat} {args : List Node} (hfront : Undelimited front)
    (hinner : Spells line inner args) (hfits : depth + 1 + Node.nestingAll args ≤ maxDepth)
    (h : FirstDeep depth rest before c after) :
    FirstDeep depth ('(' :: (front ++ inner ++ ')' :: rest))
      ('(' :: (front ++ inner ++ [')']) ++ before) c after := by
  have hinside : openBehind (depth + 1) front = depth + 1 := hfront.openBehind _
  have hwhole : '(' :: (front ++ inner ++ ')' :: rest) = '(' :: (front ++ inner ++ [')']) ++ rest := by
    simp
  rw [hwhole]
  refine .behind (shallow_form (by decide) (by decide) (by omega) ?_) ?_
  · exact shallow_append (hfront.shallow _) (hinside.symm ▸ shallow_of_spells hinner hfits)
  · rwa [openBehind_form (by decide) (by decide) (by decide)
      (by rw [openBehind_append, hinside, openBehind_of_spells hinner])]

theorem FirstDeep.inside_call (hfront : Undelimited front) (hdepth : depth ≠ maxDepth)
    (h : FirstDeep (depth + 1) inner before c after) :
    FirstDeep depth ('(' :: (front ++ inner ++ ')' :: rest)) ('(' :: (front ++ before)) c
      (after ++ ')' :: rest) := by
  have hinside : openBehind depth ('(' :: front) = depth + 1 := hfront.openBehind _
  have hshallow : Shallow depth ('(' :: front) :=
    shallow_cons (fun _ => hdepth) (hfront.shallow _)
  have hdeeper := (FirstDeep.behind hshallow (hinside.symm ▸ h)).within (')' :: rest)
  simpa using hdeeper

end Forms

/-! ## What is reported -/

theorem nodes_of_full {cur : Cursor} {c : Char} (rest : List Char) (hc : isOpener c = true)
    (h : cur.depth = maxDepth) : nodes cur (c :: rest) = .error (.on cur [c] .tooDeep) := by
  rcases isOpener_iff.1 hc with rfl | rfl
  · exact nodes_error_of_next (by decide) (by simp [next, openCall, readForm, h])
  · exact nodes_error_of_next (by decide) (by simp [next, paramList, readForm, h])

/-- A call that is spelled is opened, unless it is opened too deep. -/
theorem opens_of_spells {cur : Cursor} {blanks word inner : List Char} {head : Head}
    {args : List Node} (rest : List Char) (hdepth : cur.depth ≠ maxDepth)
    (hblanks : ∀ c ∈ blanks, isBlank c = true)
    (hhead : Leaf (cur.line + blanks.count '\n') word head.toNode) (hends : Ends word inner)
    (hinner : Spells (cur.line + blanks.count '\n') inner args) :
    Opens cur (blanks ++ word ++ inner ++ ')' :: rest) blanks word
      ⟨cur.line, head, (cur.enter.step '(').past (blanks ++ word), inner, rest⟩ := by
  have hbalanced : Balanced '(' ')' (blanks ++ (word ++ inner)) :=
    balanced_append (balanced_of_blanks hblanks)
      (balanced_append (balanced_of_plain (leaf_plain hhead)) (spells_balanced hinner))
  rw [List.append_assoc blanks]
  exact ⟨hdepth, enclosed_of_balanced rest (by decide) hbalanced, hblanks, hhead, hends, rfl, rfl⟩

/-- A place inside a form is a place of the text that starts with the form. -/
theorem on_inside (cur : Cursor) (opener : Char) (text bad : List Char) (problem : Problem) :
    Failure.on ((cur.enter.step opener).past text) bad problem
      = Failure.on (cur.past (opener :: text)) bad problem := by
  have hstep : cur.enter.step opener = (cur.step opener).enter := rfl
  rw [hstep, Cursor.enter_past]
  rfl

/-- A spelled text whose nodes do not fit below the bound fails at the first delimiter that is opened
    too deep. -/
theorem nodes_of_deep {cur : Cursor} {text : List Char} {found : List Node}
    (h : Spells cur.line text found) (hdepth : cur.depth ≤ maxDepth)
    (hdeep : maxDepth < cur.depth + Node.nestingAll found) :
    ∃ before c after, FirstDeep cur.depth text before c after
      ∧ nodes cur text = .error (.on (cur.past before) [c] .tooDeep) := by
  generalize hline : cur.line = line at h
  induction h generalizing cur with
  | nil =>
      rw [Node.nestingAll] at hdeep
      omega
  | @blank line c rest found hc _ ih =>
      have hblank := undelimited_of_isBlank hc
      obtain ⟨before, d, after, hfirst, hread⟩ :=
        @ih (cur.step c) hdepth hdeep (hline ▸ Cursor.step_line cur c)
      rw [← hblank.openBehind (cur.step c).depth] at hfirst
      refine ⟨c :: before, d, after, .behind (hblank.shallow cur.depth) hfirst, ?_⟩
      rw [nodes_blank hc, hread]
      rfl
  | @leaf line word rest node found hword hends _ ih =>
      subst hline
      rw [Node.nestingAll, nesting_leaf hword] at hdeep
      have hplain := leaf_plain hword
      have hfront := undelimited_of_plain hplain
      obtain ⟨before, d, after, hfirst, hread⟩ := @ih (cur.past word)
        (by rwa [Cursor.past_depth]) (by rw [Cursor.past_depth]; omega)
        (Cursor.past_plain_line cur hplain)
      rw [Cursor.past_depth] at hfirst
      refine ⟨word ++ before, d, after, .behind (hfront.shallow _) ?_, ?_⟩
      · rwa [hfront.openBehind]
      · obtain ⟨c, tail, rfl, hc, -⟩ := leaf_start hword
        rw [Cursor.past_append, List.cons_append,
          nodes_node (isBlank_of_isStructural hc) (next_of_leaf hword hends), hread]
        rfl
  | @list line inner rest params found hinner _ ih =>
      subst hline
      by_cases hfull : cur.depth = maxDepth
      · exact ⟨[], '[', _, firstDeep_start _ (by decide) hfull, nodes_of_full _ (by decide) hfull⟩
      · rw [Node.nestingAll, Node.nesting] at hdeep
        obtain ⟨before, d, after, hfirst, hread⟩ := @ih (cur.past ('[' :: (inner ++ [']'])))
          (by rwa [Cursor.past_depth]) (by rw [Cursor.past_depth]; omega)
          (Cursor.past_list_line cur inner)
        rw [Cursor.past_depth] at hfirst
        refine ⟨_, d, after, hfirst.behind_list (undelimited_of_entries hinner) hfull, ?_⟩
        rw [nodes_node (by decide) (next_paramList (paramList_of_spells rest hfull hinner)), hread,
          Cursor.past_append]
        rfl
  | @call line blanks word inner rest head args found hblanks hhead hends hinner _ ihinner ih =>
      subst hline
      rw [← List.append_assoc blanks]
      by_cases hfull : cur.depth = maxDepth
      · exact ⟨[], '(', _, firstDeep_start _ (by decide) hfull, nodes_of_full _ (by decide) hfull⟩
      · rw [Node.nestingAll, Node.nesting] at hdeep
        have hplain := leaf_plain hhead
        have hfront : Undelimited (blanks ++ word) :=
          undelimited_append (undelimited_of_blanks hblanks) (undelimited_of_plain hplain)
        have hopens := opens_of_spells rest hfull hblanks hhead hends hinner
        have hcall := nodes_call (by decide) (next_openCall (openCall_of_opens hopens))
        by_cases hfits : cur.depth + 1 + Node.nestingAll args ≤ maxDepth
        · -- the call itself fits, so what is too deep stands behind it
          have hread := (nodes_eq_ok_iff (by rw [Cursor.inside_depth]; omega)).2
            ⟨(Cursor.head_line cur blanks hplain).symm ▸ hinner, by rwa [Cursor.inside_depth], rfl⟩
          obtain ⟨before, d, after, hfirst, hmore⟩ :=
            @ih (cur.past ('(' :: (blanks ++ word ++ inner ++ [')'])))
              (by rwa [Cursor.past_depth]) (by rw [Cursor.past_depth]; omega)
              (Cursor.past_call_line cur blanks inner hplain)
          rw [Cursor.past_depth] at hfirst
          refine ⟨_, d, after, hfirst.behind_call hfront hinner hfits, ?_⟩
          rw [hcall, hread]
          simp only [hopens.closeCall]
          rw [hmore, Cursor.past_append]
          rfl
        · obtain ⟨before, d, after, hfirst, hread⟩ :=
            @ihinner ((cur.enter.step '(').past (blanks ++ word))
              (by rw [Cursor.inside_depth]; omega) (by rw [Cursor.inside_depth]; omega)
              (Cursor.head_line cur blanks hplain)
          rw [Cursor.inside_depth] at hfirst
          refine ⟨_, d, _, hfirst.inside_call hfront hfull, ?_⟩
          rw [hcall, hread, ← Cursor.past_append, ← on_inside]

theorem program_of_deep {text : List Char} {found : List Node} (h : Spells 1 text found)
    (hdeep : maxDepth < Node.nestingAll found) :
    ∃ before c after, FirstDeep 0 text before c after
      ∧ program text = .error (.on (Cursor.start.past before) [c] .tooDeep) := by
  have hdepth : Cursor.start.depth + Node.nestingAll found = Node.nestingAll found := Nat.zero_add _
  simp only [program_eq_error_iff]
  exact nodes_of_deep h (Nat.zero_le _) (hdepth.symm ▸ hdeep)

/-- A text that is read is spelled for the nodes that are read and for no others. -/
theorem eq_of_spells {text : List Char} {found found' : List Node} (h : program text = .ok found)
    (hspells : Spells 1 text found') : found' = found := by
  rcases Nat.lt_or_ge maxDepth (Node.nestingAll found') with hdeep | hfits
  · obtain ⟨before, c, after, -, herror⟩ := program_of_deep hspells hdeep
    simp [h] at herror
  · have hread := program_eq_ok_iff.2 ⟨hspells, hfits⟩
    rw [h] at hread
    exact (Except.ok.inj hread).symm

end DefForms.Reader
