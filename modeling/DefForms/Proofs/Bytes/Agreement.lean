import DefForms.Proofs.Bytes.Words

set_option autoImplicit false

/-! # Bytes and characters are read alike

Reading bytes comes to the same as reading characters, for every text, and so it never comes to a
breach: where characters are read there is none. The search for a closing delimiter finds the same one
(`closeByte_eq`), so that a form holds the same text in both readings, and what it holds is read alike
by induction along the reading of characters (`nodes_eq`). -/

namespace DefForms.Bytewise

open Reader

/-! ## Delimiters -/

/-- The two characters are a single byte each, and no line ends. -/
structure Delimiters (opener closer : Char) : Prop where
  isAscii_opener : IsAscii opener
  isAscii_closer : IsAscii closer
  opener_ne : opener ≠ '\n'
  closer_ne : closer ≠ '\n'

theorem parentheses : Delimiters '(' ')' := ⟨by decide, by decide, by decide, by decide⟩

theorem brackets : Delimiters '[' ']' := ⟨by decide, by decide, by decide, by decide⟩

section Delimiters

variable {scope : Scope} {cur : Cursor} {text rest after : List Char} {opener closer : Char}

theorem toUInt8_eq_iff {c d : Char} (hc : IsAscii c) (hd : IsAscii d) :
    UInt8.ofNat c.toNat = d.toUInt8 ↔ c = d := by
  constructor
  · intro h
    have hchar : Char.ofUInt8 (UInt8.ofNat c.toNat) = Char.ofUInt8 (UInt8.ofNat d.toNat) :=
      congrArg Char.ofUInt8 h
    rwa [ofUInt8_of_isAscii hc, ofUInt8_of_isAscii hd] at hchar
  · rintro rfl
    rfl

/-- The search passes all bytes that are no delimiter. -/
theorem closeByte_append {o c : UInt8} {bytes : List UInt8} (index count : Nat) (more : List UInt8)
    (h : ∀ b ∈ bytes, b ≠ o ∧ b ≠ c) :
    closeByte o c index count (bytes ++ more) = closeByte o c (index + bytes.length) count more := by
  induction bytes generalizing index with
  | nil => rfl
  | cons b bytes ih =>
      obtain ⟨⟨ho, hc⟩, hbytes⟩ := List.forall_mem_cons.1 h
      rw [List.cons_append, closeByte, if_neg ho, if_neg hc, ih _ hbytes, List.length_cons,
        Nat.add_assoc, Nat.add_comm 1]

/-- No byte of a character outside of ASCII is a delimiter of ASCII. -/
theorem ne_of_mem_utf8EncodeChar {c d : Char} {b : UInt8} (hc : ¬ IsAscii c) (hd : IsAscii d)
    (hb : b ∈ String.utf8EncodeChar c) : b ≠ d.toUInt8 := by
  rintro rfl
  have hlow := le_of_mem_utf8EncodeChar hc hb
  have hcode : d.toUInt8.toNat = d.toNat := by
    change (UInt8.ofNat d.toNat).toNat = d.toNat
    rw [UInt8.toNat_ofNat', Nat.mod_eq_of_lt (Nat.lt_trans hd (by decide))]
  rw [hcode] at hlow
  exact absurd hd (Nat.not_lt.2 hlow)

/-- The offset of what was found, counted from in front of one more character. -/
theorem map_closeFrom_cons (offset index count : Nat) (x : Char) (rest : List Char) :
    (closeFrom opener closer (index + 1) count rest).map
        (fun found => offset + x.utf8Size + byteSize (rest.take (found - (index + 1))))
      = (closeFrom opener closer (index + 1) count rest).map
        (fun found => offset + byteSize ((x :: rest).take (found - index))) := by
  cases hfound : closeFrom opener closer (index + 1) count rest with
  | none => rfl
  | some found =>
      obtain ⟨inner, back, -, rfl⟩ := eq_of_closeFrom hfound
      have hindex : index + 1 + inner.length - index = inner.length + 1 := by omega
      rw [Option.map_some, Option.map_some, hindex, Nat.add_sub_cancel_left, List.take_succ_cons,
        byteSize, Nat.add_assoc]

/-- Where something is open, the searches among bytes and among characters agree. -/
theorem closeByte_eq (hform : Delimiters opener closer) (offset index : Nat) {count : Nat}
    (hcount : 0 < count) (text : List Char) :
    closeByte opener.toUInt8 closer.toUInt8 offset count (encode text)
      = .ok ((closeFrom opener closer index count text).map
          fun found => offset + byteSize (text.take (found - index))) := by
  induction text generalizing offset index count with
  | nil => rfl
  | cons x rest ih =>
      -- the rest of the search, behind `x`
      have later : ∀ count', 0 < count' →
          closeByte opener.toUInt8 closer.toUInt8 (offset + x.utf8Size) count' (encode rest)
            = .ok ((closeFrom opener closer (index + 1) count' rest).map
                fun found => offset + byteSize ((x :: rest).take (found - index))) :=
        fun count' hcount' => by rw [ih _ (index + 1) hcount', map_closeFrom_cons]
      rw [encode_cons, closeFrom]
      by_cases hx : IsAscii x
      · rw [utf8Size_of_isAscii hx] at later
        rw [utf8EncodeChar_of_isAscii hx, List.singleton_append, closeByte]
        simp only [toUInt8_eq_iff hx hform.isAscii_opener, toUInt8_eq_iff hx hform.isAscii_closer]
        split
        · exact later _ (Nat.succ_pos count)
        · split
          · rw [if_neg (by omega)]
            by_cases hone : count = 1
            · rw [if_pos (by omega), if_pos hone, Option.map_some, Nat.sub_self]
              rfl
            · rw [if_neg (by omega), if_neg hone]
              exact later _ (by omega)
          · exact later _ hcount
      · have hopener : x ≠ opener := fun h => hx (h ▸ hform.isAscii_opener)
        have hcloser : x ≠ closer := fun h => hx (h ▸ hform.isAscii_closer)
        have hother : ∀ b ∈ String.utf8EncodeChar x, b ≠ opener.toUInt8 ∧ b ≠ closer.toUInt8 :=
          fun b hb => ⟨ne_of_mem_utf8EncodeChar hx hform.isAscii_opener hb,
            ne_of_mem_utf8EncodeChar hx hform.isAscii_closer hb⟩
        rw [closeByte_append _ _ _ hother, String.length_utf8EncodeChar, if_neg hopener,
          if_neg hcloser]
        exact later _ hcount

theorem findClose_eq (hform : Delimiters opener closer)
    (h : At scope cur (opener :: rest) after) :
    findClose scope cur.offset opener closer
      = .ok ((enclosed opener closer (opener :: rest)).map
          fun form => cur.offset + 1 + byteSize form.inner) := by
  obtain ⟨before, htext, hoffset⟩ := h.stands
  have hbytes : ((utf8Bytes scope.text).take scope.stop).drop cur.offset
      = encode (opener :: rest) := by
    rw [utf8Bytes_eq_encode, htext, h.stop_eq, hoffset, ← byteSize_append, ← List.append_assoc,
      take_encode, drop_encode]
  have hopener : UInt8.ofNat opener.toNat = opener.toUInt8 := rfl
  rw [findClose, hbytes, encode_cons, utf8EncodeChar_of_isAscii hform.isAscii_opener,
    List.singleton_append, closeByte, if_pos hopener, closeByte_eq hform _ 1 (Nat.succ_pos 0),
    enclosed, closeIndex_cons]
  cases hfound : closeFrom opener closer 1 1 rest with
  | none => rfl
  | some found =>
      obtain ⟨inner, back, rfl, rfl⟩ := eq_of_closeFrom hfound
      simp [Nat.add_comm 1]

end Delimiters

/-! ## Forms -/

section Forms

variable {scope : Scope} {cur : Cursor} {inner rest after : List Char} {opener closer : Char}

theorem Delimiters.inside (hform : Delimiters opener closer) (cur : Cursor) :
    cur.enter.step opener = { cur.enter with offset := cur.offset + 1 } := by
  rw [Cursor.step, if_neg hform.opener_ne, utf8Size_of_isAscii hform.isAscii_opener]
  rfl

theorem Delimiters.behind (hform : Delimiters opener closer) (last : Cursor) :
    (last.step closer).leave = ⟨last.offset + 1, last.line, last.depth - 1⟩ := by
  rw [Cursor.step, if_neg hform.closer_ne, utf8Size_of_isAscii hform.isAscii_closer]
  rfl

theorem Delimiters.span (hform : Delimiters opener closer) (cur : Cursor) :
    cur.span [opener] = ⟨cur.offset, cur.offset + 1⟩ := by
  rw [Cursor.span, byteSize, byteSize, utf8Size_of_isAscii hform.isAscii_opener]

/-- Inside a form, the text is what the form holds. -/
theorem At.within (hform : Delimiters opener closer)
    (h : At scope cur (opener :: (inner ++ closer :: rest)) after) (hdepth : cur.depth ≠ maxDepth) :
    At (scope.within (cur.offset + 1 + byteSize inner)) (cur.enter.step opener) inner
      (closer :: (rest ++ after)) where
  stands := by
    obtain ⟨before, htext, hoffset⟩ := h.step.stands
    refine ⟨before, ?_, hoffset⟩
    change scope.text.toList = _
    rw [htext, List.append_assoc, List.cons_append]
  stop_eq := by rw [hform.inside]; rfl
  le_outer := by
    have hstop := h.stop_eq
    rw [byteSize, byteSize_append, utf8Size_of_isAscii hform.isAscii_opener] at hstop
    have hle : cur.offset + 1 + byteSize inner ≤ scope.stop := by omega
    exact List.forall_mem_cons.2
      ⟨hle, fun bound hbound => Nat.le_trans hle (h.le_outer bound hbound)⟩
  depth_le := by
    have hle := h.depth_le
    change cur.depth + 1 ≤ maxDepth
    omega

theorem enter_eq (h : At scope cur rest after) :
    enter scope cur
      = if cur.depth = maxDepth then .error (problemAt cur cur.offset 1 .tooDeep)
        else .ok cur.enter := by
  rw [enter]
  split
  · rfl
  · next hdepth =>
      have hle := h.depth_le
      have hstop : cur.offset ≤ scope.stop := by
        rw [h.stop_eq]
        exact Nat.le_add_right ..
      refine h.moveTo hstop ?_
      change cur.depth + 1 ≤ maxDepth
      omega

theorem openForm_eq (hform : Delimiters opener closer) (unmatched : Problem)
    (h : At scope cur (opener :: rest) after) :
    openForm scope cur opener closer unmatched
      = if cur.depth = maxDepth then .error (.failure (.on cur [opener] .tooDeep))
        else
          match enclosed opener closer (opener :: rest) with
          | none => .error (.failure (.on cur [opener] unmatched))
          | some form => .ok (cur.enter.step opener, cur.offset + 1 + byteSize form.inner) := by
  rw [openForm, enter_eq h]
  by_cases hdepth : cur.depth = maxDepth
  · rw [if_pos hdepth, if_pos hdepth, Failure.on, hform.span]
    rfl
  · simp only [if_neg hdepth, findClose_eq hform h]
    cases hfound : enclosed opener closer (opener :: rest) with
    | none =>
        simp only [Option.map_none, Failure.on, hform.span]
        rfl
    | some form =>
        rw [eq_of_enclosed hfound] at h
        have hinside := h.within hform hdepth
        have hle : (cur.enter.step opener).offset ≤ cur.offset + 1 + byteSize form.inner := by
          rw [hform.inside]
          exact Nat.le_add_right ..
        have hmove := hinside.moveTo hle hinside.depth_le
        rw [hform.inside] at hmove
        simp only [Option.map_some, hmove, hform.inside]

/-- A form is left behind its closing delimiter, as deep as in front of it. -/
theorem closeForm_eq (hform : Delimiters opener closer)
    (h : At scope cur (opener :: (inner ++ closer :: rest)) after) :
    closeForm scope cur ((cur.enter.step opener).past inner) closer
        (cur.offset + 1 + byteSize inner)
      = .ok (cur.past (opener :: (inner ++ [closer]))) := by
  have hlast : ((cur.enter.step opener).past inner).offset = cur.offset + 1 + byteSize inner := by
    rw [Cursor.past_offset, hform.inside]
  have hdepth : ((cur.enter.step opener).past inner).depth = cur.depth + 1 :=
    Cursor.inside_depth ..
  have hcloser : At scope (cur.past (opener :: inner)) (closer :: rest) after := At.past h
  have hbyte := hcloser.byte (utf8EncodeChar_of_isAscii hform.isAscii_closer)
  have hoffset : (cur.past (opener :: inner)).offset = cur.offset + 1 + byteSize inner := by
    rw [Cursor.past_offset, byteSize, utf8Size_of_isAscii hform.isAscii_opener, Nat.add_assoc]
  rw [hoffset] at hbyte
  have hwhole : At scope cur (opener :: (inner ++ [closer]) ++ rest) after := by simpa using h
  have hle : (cur.past (opener :: (inner ++ [closer]))).offset ≤ scope.stop := by
    rw [hwhole.past.stop_eq]
    exact Nat.le_add_right ..
  have hmove := hwhole.past.moveTo hle hwhole.past.depth_le
  rw [← Cursor.past_form, hform.behind, hlast, hdepth] at hmove
  rw [closeForm, if_pos ⟨hlast, hbyte⟩, hdepth, if_pos ⟨Nat.succ_pos _, Nat.add_sub_cancel ..⟩,
    hmove, ← Cursor.past_form, hform.behind, hlast, hdepth]

end Forms

/-! ## Nodes -/

/-- A piece that was read among characters, as one that was read among bytes. -/
def pieceOf : Reader.Piece → Piece
  | .node taken => .node taken.value taken.cursor
  | .call form => .call form.head form.cursor (form.cursor.offset + byteSize form.inner)

section Nodes

variable {scope : Scope} {cur : Cursor} {text rest after : List Char} {c : Char}

theorem paramList_eq (h : At scope cur ('[' :: rest) after) :
    paramList scope cur
      = report (fun taken => (taken.value, taken.cursor)) (Reader.paramList cur ('[' :: rest)) := by
  rw [paramList, openForm_eq brackets _ h, Reader.paramList, readForm]
  by_cases hdepth : cur.depth = maxDepth
  · simp only [if_pos hdepth, report]
  · simp only [if_neg hdepth]
    cases hform : enclosed '[' ']' ('[' :: rest) with
    | none => rfl
    | some form =>
        rw [eq_of_enclosed hform] at h
        simp only [entries_eq (h.within brackets hdepth)]
        cases hentries : Reader.entries (cur.enter.step '[') form.inner with
        | error failure => rfl
        | ok found =>
            obtain ⟨params, last⟩ := found
            obtain ⟨-, rfl⟩ := spells_of_entries hentries
            simp only [report, id, closeForm_eq brackets h, Cursor.past_form]

theorem openCall_eq (h : At scope cur ('(' :: rest) after) :
    openCall scope cur
      = report (fun form => pieceOf (.call form)) (Reader.openCall cur ('(' :: rest)) := by
  rw [openCall, openForm_eq parentheses _ h, Reader.openCall, readForm]
  by_cases hdepth : cur.depth = maxDepth
  · simp only [if_pos hdepth, report]
  · simp only [if_neg hdepth]
    cases hform : enclosed '(' ')' ('(' :: rest) with
    | none => rfl
    | some form =>
        rw [eq_of_enclosed hform] at h
        simp only [head_eq (h.within parentheses hdepth), List.head?_cons]
        cases hhead : Reader.head (some ')') (cur.enter.step '(') form.inner with
        | error failure => rfl
        | ok taken =>
            obtain ⟨blanks, word, hinner, -, -, -, hcursor⟩ := leaf_of_head hhead
            have hclose : taken.cursor.offset + byteSize taken.rest
                = cur.offset + 1 + byteSize form.inner := by
              rw [hcursor, hinner, Cursor.past_offset, parentheses.inside]
              simp only [byteSize_append, Nat.add_assoc]
            simp only [report, pieceOf, hclose]

/-- Behind blanks, a head does not depend on what the span is followed by. -/
theorem head_cons (beyond beyond' : Option Char) (cur : Cursor) (rest : List Char)
    (hc : isBlank c = false) :
    Reader.head beyond cur (c :: rest) = Reader.head beyond' cur (c :: rest) := by
  simp [Reader.head, skipBlanks, hc]

theorem next_eq {d : Char} (hd : Alike d c) (hc : isBlank c = false)
    (h : At scope cur (c :: rest) after) :
    next scope cur d = report pieceOf (Reader.next cur c rest) := by
  rw [next, Reader.next, hd.apply isAscii_of_isDigit]
  simp only [hd.eq_iff (by decide : IsAscii '('), hd.eq_iff (by decide : IsAscii ')'),
    hd.eq_iff (by decide : IsAscii '['), hd.eq_iff (by decide : IsAscii ']')]
  split
  · next hdigit =>
      rw [number_eq hdigit h]
      cases Reader.number cur (c :: rest) <;> rfl
  · split
    · next hparen =>
        subst hparen
        rw [openCall_eq h]
        cases Reader.openCall cur ('(' :: rest) <;> rfl
    · split
      · next hclose =>
          subst hclose
          rw [h.unexpected]
          rfl
      · split
        · next hbracket =>
            subst hbracket
            rw [paramList_eq h]
            cases Reader.paramList cur ('[' :: rest) <;> rfl
        · split
          · next hclose =>
              subst hclose
              rw [h.unexpected]
              rfl
          · rw [head_eq h, head_cons _ none cur rest hc]
            cases Reader.head none cur (c :: rest) <;> rfl

theorem nodes_nil (h : At scope cur [] after) : nodes scope cur = .ok ([], cur) := by
  have hstop : scope.stop = cur.offset := h.stop_eq
  rw [nodes_none h.peek_nil, if_pos hstop.symm]

theorem nodes_blank (h : At scope cur (c :: rest) after) (hc : isBlank c = true) :
    nodes scope cur = nodes scope (cur.step c) := by
  obtain ⟨d, hpeek, halike⟩ := h.peek_cons
  obtain rfl := halike.eq (isAscii_of_isBlank c hc)
  rw [nodes_some hpeek, if_pos hc, h.advance (isAscii_of_isBlank d hc)]

/-- Where no blank stands, the readers go on with the same piece. -/
theorem At.next (h : At scope cur (c :: rest) after) (hc : isBlank c = false) :
    ∃ d, peek scope cur = some d ∧ ¬ isBlank d = true
      ∧ next scope cur d = report pieceOf (Reader.next cur c rest) := by
  obtain ⟨d, hpeek, halike⟩ := h.peek_cons
  exact ⟨d, hpeek, by simp [halike.apply isAscii_of_isBlank, hc], next_eq halike hc h⟩

theorem At.behind_node {taken : Taken Node} (h : At scope cur (c :: rest) after)
    (hc : isBlank c = false) (hnext : Reader.next cur c rest = .ok (.node taken)) :
    At scope taken.cursor taken.rest after ∧ cur.offset < taken.cursor.offset := by
  rcases next_node_cases hc hnext with ⟨word, rfl, -, -, hcursor⟩ | ⟨rfl, hlist⟩
  · have hplace : At scope cur (c :: word ++ taken.rest) after := h
    rw [hcursor]
    exact ⟨hplace.past, lt_past cur c word⟩
  · obtain ⟨inner, params, -, rfl, -, -, hcursor⟩ := spells_of_paramList hlist
    have hplace : At scope cur ('[' :: (inner ++ [']']) ++ taken.rest) after := by simpa using h
    rw [hcursor]
    exact ⟨hplace.past, lt_past cur _ _⟩

section Call

variable {blanks word : List Char} {form : OpenCall}

theorem text_of_opens (hopens : Opens cur rest blanks word form) :
    rest = blanks ++ word ++ form.inner ++ ')' :: form.rest := by
  have htext := eq_of_enclosed hopens.enclosed_eq
  rwa [← List.append_assoc blanks] at htext

theorem close_of_opens (hopens : Opens cur rest blanks word form) :
    form.cursor.offset + byteSize form.inner
      = cur.offset + 1 + byteSize (blanks ++ word ++ form.inner) := by
  rw [hopens.cursor_eq, Cursor.past_offset, parentheses.inside, byteSize_append (blanks ++ word),
    Nat.add_assoc]

theorem At.inside_call (h : At scope cur ('(' :: rest) after)
    (hopens : Opens cur rest blanks word form) :
    At (scope.within (form.cursor.offset + byteSize form.inner)) form.cursor form.inner
      (')' :: (form.rest ++ after)) := by
  rw [text_of_opens hopens] at h
  rw [close_of_opens hopens, hopens.cursor_eq]
  exact (h.within parentheses hopens.depth_ne).past

theorem At.behind_call (h : At scope cur ('(' :: rest) after)
    (hopens : Opens cur rest blanks word form) :
    At scope (form.cursor.past form.inner).closeCall form.rest after
      ∧ cur.offset < (form.cursor.past form.inner).closeCall.offset := by
  rw [text_of_opens hopens] at h
  rw [hopens.closeCall]
  have hplace : At scope cur ('(' :: (blanks ++ word ++ form.inner ++ [')']) ++ form.rest) after := by
    simpa using h
  exact ⟨hplace.past, lt_past cur _ _⟩

theorem closeForm_call (h : At scope cur ('(' :: rest) after)
    (hopens : Opens cur rest blanks word form) :
    closeForm scope cur (form.cursor.past form.inner) ')'
        (form.cursor.offset + byteSize form.inner)
      = .ok (form.cursor.past form.inner).closeCall := by
  rw [text_of_opens hopens] at h
  have hinside : form.cursor.past form.inner
      = (cur.enter.step '(').past (blanks ++ word ++ form.inner) := by
    rw [hopens.cursor_eq, ← Cursor.past_append]
  rw [hopens.closeCall, close_of_opens hopens, hinside]
  exact closeForm_eq parentheses h

end Call

/-- Reading bytes comes to the same as reading characters. -/
theorem nodes_eq (h : At scope cur text after) :
    nodes scope cur = report id (Reader.nodes cur text) := by
  fun_induction Reader.nodes cur text generalizing scope after with
  | case1 cur => exact nodes_nil h
  | case2 cur c rest hc ih => rw [nodes_blank h hc, ih h.step]
  | case3 cur c rest hc failure hread =>
      obtain ⟨d, hpeek, hd, hnext⟩ := h.next (by simpa using hc)
      rw [nodes_some hpeek, if_neg hd, hnext, hread]
      rfl
  | case4 cur c rest hc taken hread failure hmore ih =>
      obtain ⟨d, hpeek, hd, hnext⟩ := h.next (by simpa using hc)
      obtain ⟨hbehind, hlt⟩ := h.behind_node (by simpa using hc) hread
      rw [nodes_some hpeek, if_neg hd, hnext, hread]
      simp only [report, pieceOf, if_pos hlt, ih hbehind, hmore]
  | case5 cur c rest hc taken hread more last hmore ih =>
      obtain ⟨d, hpeek, hd, hnext⟩ := h.next (by simpa using hc)
      obtain ⟨hbehind, hlt⟩ := h.behind_node (by simpa using hc) hread
      rw [nodes_some hpeek, if_neg hd, hnext, hread]
      simp only [report, pieceOf, if_pos hlt, ih hbehind, hmore, id]
  | case6 cur c rest hc form hread failure hargs ih =>
      obtain ⟨d, hpeek, hd, hnext⟩ := h.next (by simpa using hc)
      obtain ⟨rfl, hcall⟩ := next_call_cases hread
      obtain ⟨blanks, word, hopens⟩ := opens_of_openCall hcall
      rw [nodes_some hpeek, if_neg hd, hnext, hread]
      simp only [report, pieceOf, ih (h.inside_call hopens), hargs]
  | case7 cur c rest hc form hread args close hargs failure hmore ihargs ih =>
      obtain ⟨d, hpeek, hd, hnext⟩ := h.next (by simpa using hc)
      obtain ⟨rfl, hcall⟩ := next_call_cases hread
      obtain ⟨blanks, word, hopens⟩ := opens_of_openCall hcall
      obtain ⟨-, -, rfl⟩ := spells_of_nodes (hopens.depth_le h.depth_le) hargs
      obtain ⟨hbehind, hlt⟩ := h.behind_call hopens
      rw [nodes_some hpeek, if_neg hd, hnext, hread]
      simp only [report, pieceOf, ihargs (h.inside_call hopens), hargs, id,
        closeForm_call h hopens, if_pos hlt, ih hbehind, hmore]
  | case8 cur c rest hc form hread args close hargs more last hmore ihargs ih =>
      obtain ⟨d, hpeek, hd, hnext⟩ := h.next (by simpa using hc)
      obtain ⟨rfl, hcall⟩ := next_call_cases hread
      obtain ⟨blanks, word, hopens⟩ := opens_of_openCall hcall
      obtain ⟨-, -, rfl⟩ := spells_of_nodes (hopens.depth_le h.depth_le) hargs
      obtain ⟨hbehind, hlt⟩ := h.behind_call hopens
      rw [nodes_some hpeek, if_neg hd, hnext, hread]
      simp only [report, pieceOf, ihargs (h.inside_call hopens), hargs, id,
        closeForm_call h hopens, if_pos hlt, ih hbehind, hmore, hopens.line_eq]

end Nodes

theorem at_start (text : String) : At (.whole text) .start text.toList [] where
  stands := ⟨[], by simp [Scope.whole], rfl⟩
  stop_eq := by
    have hsize := byteSize_eq_utf8ByteSize text.toList
    rw [String.ofList_toList] at hsize
    simp [Scope.whole, Cursor.start, hsize]
  le_outer := by simp [Scope.whole]
  depth_le := Nat.zero_le _

theorem program_eq (text : String) : program text = report id (Reader.program text.toList) := by
  rw [program, nodes_eq (at_start text), Reader.program]
  cases Reader.nodes .start text.toList <;> rfl

end DefForms.Bytewise

namespace DefForms.Source

open Reader

/-- Reading a source byte by byte ends without a breach. It yields the nodes of the source, or a
    failure, which is the diagnostic of the source and never says that the text ends. -/
theorem nodes_bytewise (source : Source) :
    (∃ nodes, Bytewise.program source.text = .ok nodes ∧ source.nodes = .ok nodes)
      ∨ ∃ failure, Bytewise.program source.text = .error (.failure failure)
        ∧ source.nodes = .error (failure.diagnostic source)
        ∧ (failure.diagnostic source).category = .parse ∧ failure.problem ≠ .unexpectedEnd := by
  rw [Bytewise.program_eq, nodes]
  cases hread : Reader.program source.text.toList with
  | ok found => exact .inl ⟨found, rfl, rfl⟩
  | error failure =>
      exact .inr ⟨failure, rfl, rfl, rfl, nodes_ne_unexpectedEnd (program_eq_error_iff.1 hread)⟩

end DefForms.Source
