import DefForms.Proofs.Bytes.Place

set_option autoImplicit false

/-! # Words among bytes and among characters

The parts of a program that hold no other parts are read alike from bytes and from characters: numbers
(`number_eq`), heads (`head_eq`) and the entries of a parameter list (`entries_eq`). -/

namespace DefForms.Bytewise

open Reader

/-- An outcome of reading characters, as one of reading bytes. -/
def report {α β : Type} (f : α → β) : Except Failure α → Except Stop β
  | .error failure => .error (.failure failure)
  | .ok found => .ok (f found)

/-! ## Words -/

section Words

variable {scope : Scope} {cur : Cursor} {text after : List Char} {p : Char → Bool}

theorem skipWhile_eq (hp : AsciiOnly p) (h : At scope cur text after) :
    skipWhile p scope cur = .ok (cur.past (text.takeWhile p)) := by
  induction text generalizing cur with
  | nil => exact skipWhile_none h.peek_nil
  | cons c rest ih =>
      obtain ⟨d, hpeek, halike⟩ := h.peek_cons
      rw [skipWhile_some hpeek, halike.apply hp]
      cases hc : p c with
      | false => rw [if_neg (by simp), List.takeWhile_cons_of_neg (by simp [hc])]; rfl
      | true =>
          obtain rfl := halike.eq (hp c hc)
          rw [if_pos rfl, List.takeWhile_cons_of_pos hc, Cursor.past_cons, h.advance (hp d hc)]
          exact ih h.step

end Words

/-! ## Numbers -/

section Numbers

variable {scope : Scope} {cur : Cursor} {run word rest after : List Char} {c : Char}
  {sawPoint : Bool}

theorem numberEnd_digits (hrun : ∀ c ∈ run, c.isDigit = true)
    (h : At scope cur (run ++ rest) after) :
    numberEnd scope cur sawPoint = numberEnd scope (cur.past run) sawPoint := by
  induction run generalizing cur with
  | nil => rfl
  | cons c run ih =>
      obtain ⟨hc, hdigits⟩ := List.forall_mem_cons.1 hrun
      obtain ⟨d, hpeek, halike⟩ := h.peek_cons
      obtain rfl := halike.eq (isAscii_of_isDigit c hc)
      rw [numberEnd_some hpeek, if_pos hc, h.advance (isAscii_of_isDigit d hc), Cursor.past_cons,
        ← ih hdigits h.step]

/-- A number ends where neither a digit nor a point follows. -/
theorem numberEnd_stop (hrest : ∀ c ∈ rest.head?, c.isDigit = false ∧ c ≠ '.')
    (h : At scope cur rest after) : numberEnd scope cur sawPoint = .ok (cur, sawPoint) := by
  cases rest with
  | nil => exact numberEnd_none h.peek_nil
  | cons c rest =>
      obtain ⟨hdigit, hpoint⟩ := hrest c rfl
      obtain ⟨d, hpeek, halike⟩ := h.peek_cons
      have hpoint' : d ≠ '.' := fun hd => hpoint ((halike.eq_iff (by decide)).1 hd)
      rw [numberEnd_some hpeek, halike.apply isAscii_of_isDigit, if_neg (by simp [hdigit]),
        if_neg hpoint']

theorem numberEnd_point (h : At scope cur ('.' :: rest) after) :
    numberEnd scope cur sawPoint
      = if sawPoint then .error (problemAt cur cur.offset 1 .secondPoint)
        else numberEnd scope (cur.step '.') true := by
  obtain ⟨d, hpeek, halike⟩ := h.peek_cons
  obtain rfl := halike.eq (by decide)
  rw [numberEnd_some hpeek, if_neg (by decide), if_pos rfl, h.advance (by decide)]

theorem numberEnd_decimal (hword : IsDecimal word) (h : At scope cur (word ++ rest) after) :
    numberEnd scope cur false = numberEnd scope (cur.past word) true := by
  obtain ⟨whole, fraction, hwhole, hfraction, rfl⟩ := hword
  rw [List.append_assoc, List.cons_append] at h
  rw [numberEnd_digits hwhole.2 h, numberEnd_point h.past, if_neg (by decide),
    numberEnd_digits hfraction h.past.step, Cursor.past_append, Cursor.past_cons]

theorem number_eq (hc : c.isDigit = true) (h : At scope cur (c :: rest) after) :
    number scope cur
      = report (fun taken => (taken.value, taken.cursor)) (Reader.number cur (c :: rest)) := by
  cases hread : Reader.number cur (c :: rest) with
  | error failure =>
      obtain ⟨word, behind, htext, hword, rfl⟩ := number_error hc hread
      rw [htext] at h
      rw [number, numberEnd_decimal hword h, numberEnd_point h.past, if_pos rfl]
      rfl
  | ok taken =>
      obtain ⟨word, htext, hleaf, hends, hcursor⟩ := leaf_of_number hc hread
      rw [htext] at h
      have hstop : ∀ x ∈ taken.rest.head?, x.isDigit = false ∧ x ≠ '.' := by
        obtain ⟨tail, rfl⟩ : ∃ tail, word = c :: tail := by
          obtain ⟨first, tail, rfl, -⟩ := leaf_start hleaf
          exact ⟨tail, by rw [(List.cons.inj htext).1]⟩
        exact (ends_cons_of_isDigit hc).1 hends
      have hslice := h.slice
      rw [number, report, hcursor]
      generalize taken.value = node at hleaf ⊢
      cases hleaf with
      | int hword =>
          simp only [numberEnd_digits hword.2 h, numberEnd_stop hstop h.past, hslice]
          rfl
      | float hword =>
          simp only [numberEnd_decimal hword h, numberEnd_stop hstop h.past, hslice]
          rfl
      | operator hword =>
          have hfirst := (List.cons.inj htext).1
          subst hfirst
          simp [isDigit_of_isNameChar (isNameChar_of_isOperator hword)] at hc
      | term hword =>
          obtain ⟨first, tail, hfirst, -, rfl⟩ := hword
          obtain ⟨rfl, -⟩ := List.cons.inj htext
          simp [isDigit_of_isAlpha hfirst] at hc

end Numbers

/-! ## Heads and entries -/

section Heads

variable {scope : Scope} {cur : Cursor} {text rest after : List Char} {c : Char}
  {first more : Char → Bool}

theorem word_eq (hfirst : AsciiOnly first) (hmore : AsciiOnly more)
    (h : At scope cur (c :: rest) after) (hc : first c = true) :
    word first more scope cur
      = .ok (String.ofList (c :: rest.takeWhile more), cur.past (c :: rest.takeWhile more)) := by
  obtain ⟨d, hpeek, halike⟩ := h.peek_cons
  obtain rfl := halike.eq (hfirst c hc)
  have hend : wordEnd first more scope cur = .ok (cur.past (d :: rest.takeWhile more)) := by
    simp only [wordEnd, hpeek, if_pos hc, h.advance (hfirst d hc), skipWhile_eq hmore h.step]
    rfl
  have hpart : At scope cur (d :: rest.takeWhile more ++ rest.dropWhile more) after := by
    rwa [List.cons_append, List.takeWhile_append_dropWhile]
  have hmoved : (cur.past (d :: rest.takeWhile more)).offset ≠ cur.offset := by
    have hsize := Char.utf8Size_pos d
    rw [Cursor.past_offset, byteSize]
    omega
  simp only [word, hend, if_neg hmoved, hpart.slice]

theorem word_unexpected (more : Char → Bool) (hfirst : AsciiOnly first) (h : At scope cur text after)
    (htext : ∀ c ∈ text.head?, first c = false) :
    word first more scope cur
      = .error (.failure (.unexpected cur (text ++ after).head?)) := by
  have hend : wordEnd first more scope cur = .ok cur := by
    cases text with
    | nil => simp only [wordEnd, h.peek_nil]
    | cons c rest =>
        obtain ⟨d, hpeek, halike⟩ := h.peek_cons
        have hd : first d = false := (halike.apply hfirst).trans (htext c rfl)
        simp [wordEnd, hpeek, hd]
  simp only [word, hend, if_true, h.unexpected]

/-- A term is read where no blank stands in front of it. -/
theorem term_eq (h : At scope cur text after) (htext : ∀ c ∈ text.head?, isBlank c = false) :
    term scope cur
      = match word Char.isAlpha isNameChar scope cur with
        | .error stop => .error stop
        | .ok (name, last) => .ok (⟨cur.line, name⟩, last) := by
  have hnone : text.takeWhile isBlank = [] := by
    cases text with
    | nil => rfl
    | cons c rest => exact List.takeWhile_cons_of_neg (by simp [htext c rfl])
  rw [term, skipWhile_eq isAscii_of_isBlank h, hnone]
  rfl

theorem head_eq (h : At scope cur text after) :
    head scope cur
      = report (fun taken => (taken.value, taken.cursor)) (Reader.head after.head? cur text) := by
  obtain ⟨blanks, rest, rfl, hblanks, hrest, hskip⟩ := exists_skipBlanks cur text
  have hstart := h.past
  rw [head, skipWhile_eq isAscii_of_isBlank h, takeWhile_run hblanks hrest, Reader.head, hskip]
  generalize cur.past blanks = start at hstart ⊢
  cases rest with
  | nil =>
      have hword := word_unexpected isNameChar isAscii_of_isAlpha hstart (by simp)
      simp only [hstart.peek_nil, Option.filter_none, term_eq hstart hrest]
      rw [hword]
      rfl
  | cons c rest =>
      obtain ⟨d, hpeek, halike⟩ := hstart.peek_cons
      cases hop : isOperator c with
      | true =>
          obtain rfl := halike.eq (isAscii_of_isOperator c hop)
          simp only [hpeek, Option.filter_some, hop, if_true,
            hstart.advance (isAscii_of_isOperator d hop), report]
      | false =>
          have hd : isOperator d = false := (halike.apply isAscii_of_isOperator).trans hop
          simp only [hpeek, Option.filter_some, hd, Bool.false_eq_true, if_false,
            term_eq hstart hrest]
          cases halpha : c.isAlpha with
          | true =>
              rw [word_eq isAscii_of_isAlpha isAscii_of_isNameChar hstart halpha]
              simp [hop, report]
          | false =>
              have hword := word_unexpected isNameChar isAscii_of_isAlpha hstart (by simp [halpha])
              rw [hword]
              simp [hop, report]

theorem entry_eq (h : At scope cur (c :: rest) after) :
    entry scope cur
      = report (fun taken => (taken.value, taken.cursor)) (Reader.entry cur c rest) := by
  cases hc : isEntryStart c with
  | true =>
      rw [entry, word_eq isAscii_of_isEntryStart isAscii_of_isEntryChar h hc, Reader.entry, if_pos hc]
      simp only [String.toList_ofList]
      cases entryOfWord cur (c :: rest.takeWhile isEntryChar) <;> rfl
  | false =>
      have hword := word_unexpected isEntryChar isAscii_of_isEntryStart h (by simp [hc])
      rw [entry, hword, Reader.entry, if_neg (by simp [hc])]
      rfl

theorem lt_past (cur : Cursor) (c : Char) (word : List Char) :
    cur.offset < (cur.past (c :: word)).offset := by
  have hsize := Char.utf8Size_pos c
  rw [Cursor.past_offset, byteSize]
  omega

/-- Reading entries from one place or from another comes to the same if only blanks lie between. -/
theorem entries_congr {cur' : Cursor} (h : At scope cur text after) (h' : At scope cur' rest after)
    (heq : cur.past (text.takeWhile isBlank) = cur'.past (rest.takeWhile isBlank)) :
    entries scope cur = entries scope cur' := by
  rw [entries_of_skip (skipWhile_eq isAscii_of_isBlank h),
    entries_of_skip (skipWhile_eq isAscii_of_isBlank h'), heq]

/-- Where no blank stands, nothing is skipped and something is left. -/
theorem At.front_entry (h : At scope cur (c :: rest) after) (hc : isBlank c = false) :
    skipWhile isBlank scope cur = .ok cur ∧ cur.offset < scope.stop := by
  have hskip := skipWhile_eq isAscii_of_isBlank h
  rw [List.takeWhile_cons_of_neg (by simp [hc])] at hskip
  refine ⟨hskip, ?_⟩
  have hsize := Char.utf8Size_pos c
  rw [h.stop_eq, byteSize]
  omega

theorem At.behind_entry {taken : Taken Param} (h : At scope cur (c :: rest) after)
    (hentry : Reader.entry cur c rest = .ok taken) :
    At scope taken.cursor taken.rest after ∧ cur.offset < taken.cursor.offset := by
  obtain ⟨word, rfl, -, -, hcursor⟩ := entryWord_of_entry hentry
  have hplace : At scope cur (c :: word ++ taken.rest) after := h
  rw [hcursor]
  exact ⟨hplace.past, lt_past cur c word⟩

theorem entries_eq (h : At scope cur text after) :
    entries scope cur = report id (Reader.entries cur text) := by
  fun_induction Reader.entries cur text with
  | case1 cur =>
      have hstop : scope.stop = cur.offset := h.stop_eq
      rw [entries_of_skip (skipWhile_eq isAscii_of_isBlank h), List.takeWhile_nil, Cursor.past_nil,
        if_neg (by omega)]
      rfl
  | case2 cur c rest hc ih =>
      rw [← ih h.step]
      refine entries_congr h h.step ?_
      rw [List.takeWhile_cons_of_pos hc, Cursor.past_cons]
  | case3 cur c rest hc failure hread =>
      obtain ⟨hskip, hleft⟩ := h.front_entry (by simpa using hc)
      rw [entries_of_skip hskip, if_pos hleft, entry_eq h, hread]
      rfl
  | case4 cur c rest hc taken hread failure hmore ih =>
      obtain ⟨hskip, hleft⟩ := h.front_entry (by simpa using hc)
      obtain ⟨hbehind, hlt⟩ := h.behind_entry hread
      rw [entries_of_skip hskip, if_pos hleft, entry_eq h, hread]
      simp only [report, if_pos hlt, ih hbehind, hmore]
  | case5 cur c rest hc taken hread params last hmore ih =>
      obtain ⟨hskip, hleft⟩ := h.front_entry (by simpa using hc)
      obtain ⟨hbehind, hlt⟩ := h.behind_entry hread
      rw [entries_of_skip hskip, if_pos hleft, entry_eq h, hread]
      simp only [report, if_pos hlt, ih hbehind, hmore, id]

end Heads

end DefForms.Bytewise
