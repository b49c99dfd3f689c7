import DefForms.Proofs.Bytes.Encoding

set_option autoImplicit false

/-! # The lines of a text

`Span.ofLine` counts lines by splitting the text, while reading counts line ends as it moves. Both
speak of the same lines. `IsLine text number before line after` says what a line is without either of
them: a part of the text without line ends that reaches from one line end to the next, with
`number - 1` line ends in front of it. `Span.ofLine` gives the bytes of this part (`ofLine_of_isLine`),
and every part of a text without line ends lies in the line that is counted at its first byte
(`exists_line_around`). -/

namespace DefForms

/-! ## The bytes of a span -/

/-- The bytes of a text that a span marks. -/
def bytesIn (text : String) (span : Span) : List UInt8 :=
  ((utf8Bytes text).take span.stop).drop span.start

theorem bytesIn_of_append {text : String} {before part after : List Char}
    (h : text.toList = before ++ (part ++ after)) :
    bytesIn text ⟨byteSize before, byteSize before + byteSize part⟩ = encode part := by
  rw [← List.append_assoc] at h
  rw [bytesIn, utf8Bytes_eq_encode, h, ← byteSize_append, take_encode, drop_encode]

theorem newlineByte_notMem_encode {text : List Char} (h : '\n' ∉ text) :
    newlineByte ∉ encode text := by
  rw [← List.count_eq_zero, count_newlineByte_encode, List.count_eq_zero]
  exact h

/-! ## Lines -/

/-- The text is empty or ends with a line end, so that a line can start behind it. -/
def EndsLine (text : List Char) : Prop := text = [] ∨ ∃ front, text = front ++ ['\n']

/-- The text is empty or starts with a line end, so that a line can stop in front of it. -/
def StopsLine (text : List Char) : Prop := text = [] ∨ ∃ back, text = '\n' :: back

/-- The line of `text` with this number is `line`, which stands between `before` and `after`. -/
structure IsLine (text : List Char) (number : Nat) (before line after : List Char) : Prop where
  text_eq : text = before ++ (line ++ after)
  newline_notMem : '\n' ∉ line
  endsLine : EndsLine before
  stopsLine : StopsLine after
  number_eq : number = 1 + before.count '\n'

/-- The first line of a text is the text up to the first line end. -/
theorem splitOn_of_stopsLine {line after : List Char} (hline : '\n' ∉ line)
    (hafter : StopsLine after) : ∃ more, (line ++ after).splitOn '\n' = line :: more := by
  rcases hafter with rfl | ⟨back, rfl⟩
  · rw [List.append_nil, List.splitOn_eq_singleton hline]
    exact ⟨[], rfl⟩
  · rw [List.splitOn_append_cons_self_of_not_mem hline back]
    exact ⟨back.splitOn '\n', rfl⟩

/-- A text that ends with a line end is a first line with its line end and a text of the same
    kind. -/
theorem EndsLine.cases {text : List Char} (h : EndsLine text) :
    text = [] ∨ ∃ first rest, text = first ++ '\n' :: rest ∧ '\n' ∉ first ∧ EndsLine rest := by
  rcases h with rfl | ⟨front, rfl⟩
  · exact .inl rfl
  · right
    by_cases hfront : '\n' ∈ front
    · obtain ⟨first, rest, rfl, hfirst⟩ := List.eq_append_cons_of_mem hfront
      refine ⟨first, rest ++ ['\n'], by simp, hfirst, ?_⟩
      exact .inr ⟨rest, rfl⟩
    · exact ⟨front, [], rfl, hfront, .inl rfl⟩

theorem ofLineFrom_of_endsLine {before line after : List Char} (start : Nat)
    (hbefore : EndsLine before) (hline : '\n' ∉ line) (hafter : StopsLine after) :
    Span.ofLineFrom start ((before ++ (line ++ after)).splitOn '\n') (1 + before.count '\n')
      = some ⟨start + byteSize before, start + byteSize before + byteSize line⟩ := by
  -- one line less stands in front of the line at each step
  induction hlength : before.count '\n' generalizing before start with
  | zero =>
      rcases hbefore with rfl | ⟨front, rfl⟩
      · obtain ⟨more, hmore⟩ := splitOn_of_stopsLine hline hafter
        rw [List.nil_append, hmore]
        rfl
      · simp at hlength
  | succ count ih =>
      rcases hbefore.cases with rfl | ⟨first, rest, rfl, hfirst, hrest⟩
      · simp at hlength
      · have hcount : rest.count '\n' = count := by
          rw [List.count_append, List.count_cons_self, List.count_eq_zero.2 hfirst] at hlength
          omega
        have hsplit := List.splitOn_append_cons_self_of_not_mem hfirst (rest ++ (line ++ after))
        have hnumber : 1 + (count + 1) = count + 2 := by omega
        have hsize : byteSize (first ++ '\n' :: rest) = byteSize first + 1 + byteSize rest := by
          have hnewline : '\n'.utf8Size = 1 := rfl
          rw [byteSize_append, byteSize, hnewline]
          omega
        have hspan := ih (start + byteSize first + 1) hrest hcount
        rw [List.append_assoc, List.cons_append, hsplit, hnumber, Span.ofLineFrom, Nat.add_comm count,
          hspan, hsize]
        simp only [Nat.add_assoc]

/-- The span of a line reaches from its first byte to its line end. -/
theorem ofLine_of_isLine {text : String} {number : Nat} {before line after : List Char}
    (h : IsLine text.toList number before line after) :
    Span.ofLine text number = some ⟨byteSize before, byteSize before + byteSize line⟩ := by
  have hspan := ofLineFrom_of_endsLine 0 h.endsLine h.newline_notMem h.stopsLine
  rw [Nat.zero_add, ← h.text_eq, ← h.number_eq] at hspan
  exact hspan

/-! ## The line around a part of a text -/

/-- A text is some whole lines and the start of a line. -/
theorem exists_endsLine (text : List Char) :
    ∃ whole start, text = whole ++ start ∧ EndsLine whole ∧ '\n' ∉ start := by
  induction text with
  | nil => exact ⟨[], [], rfl, .inl rfl, by simp⟩
  | cons c rest ih =>
      obtain ⟨whole, start, rfl, hwhole, hstart⟩ := ih
      rcases hwhole with rfl | ⟨front, rfl⟩
      · by_cases hc : c = '\n'
        · exact ⟨['\n'], start, by rw [hc]; rfl, .inr ⟨[], rfl⟩, hstart⟩
        · refine ⟨[], c :: start, rfl, .inl rfl, ?_⟩
          exact List.not_mem_cons_of_ne_of_not_mem (fun h => hc h.symm) hstart
      · exact ⟨c :: (front ++ ['\n']), start, rfl, .inr ⟨c :: front, rfl⟩, hstart⟩

/-- A text is the rest of a line and a line end with what follows. -/
theorem exists_stopsLine (text : List Char) :
    ∃ stop rest, text = stop ++ rest ∧ '\n' ∉ stop ∧ StopsLine rest := by
  by_cases h : '\n' ∈ text
  · obtain ⟨stop, back, rfl, hstop⟩ := List.eq_append_cons_of_mem h
    exact ⟨stop, '\n' :: back, rfl, hstop, .inr ⟨back, rfl⟩⟩
  · exact ⟨text, [], by simp, h, .inl rfl⟩

/-- The span lies in the other one. -/
def Span.Within (span outer : Span) : Prop := outer.start ≤ span.start ∧ span.stop ≤ outer.stop

/-- A part of a text without line ends lies in the line of its first byte, and this line has no line
    ends either. -/
theorem exists_line_around {text : String} {before part after : List Char}
    (htext : text.toList = before ++ (part ++ after)) (hpart : '\n' ∉ part) :
    ∃ line, Span.ofLine text (lineAt text (byteSize before)) = some line
      ∧ newlineByte ∉ bytesIn text line
      ∧ Span.Within ⟨byteSize before, byteSize before + byteSize part⟩ line := by
  have hnumber := lineAt_of_append htext
  obtain ⟨whole, start, rfl, hwhole, hstart⟩ := exists_endsLine before
  obtain ⟨stop, rest, rfl, hstop, hrest⟩ := exists_stopsLine after
  rw [List.count_append, List.count_eq_zero.2 hstart] at hnumber
  have hline : IsLine text.toList (lineAt text (byteSize (whole ++ start))) whole
      (start ++ (part ++ stop)) rest := by
    refine ⟨by rw [htext]; simp, ?_, hwhole, hrest, hnumber⟩
    simp [hstart, hpart, hstop]
  refine ⟨_, ofLine_of_isLine hline, ?_, ?_⟩
  · rw [bytesIn_of_append hline.text_eq]
    exact newlineByte_notMem_encode hline.newline_notMem
  · simp only [Span.Within, byteSize_append]
    omega

/-! ## Parts of a line -/

theorem byteSize_pos {text : List Char} (h : text ≠ []) : 0 < byteSize text := by
  cases text with
  | nil => exact absurd rfl h
  | cons c rest =>
      have hsize := Char.utf8Size_pos c
      rw [byteSize]
      omega

/-- The offset of a part of a text lies between characters. -/
theorem isValid_of_append {text : String} {before after : List Char}
    (h : text.toList = before ++ after) : String.Pos.Raw.IsValid text ⟨byteSize before⟩ := by
  rw [byteSize_eq_utf8ByteSize]
  exact String.Pos.Raw.isValid_iff_exists_append.2 ⟨_, _, eq_of_toList_eq h, rfl⟩

/-- The span marks one or more characters of the text, all of them on the line with this number. -/
structure Span.MarksLine (text : String) (number : Nat) (span : Span) : Prop where
  start_lt_stop : span.start < span.stop
  stop_le : span.stop ≤ text.utf8ByteSize
  start_isValid : String.Pos.Raw.IsValid text ⟨span.start⟩
  stop_isValid : String.Pos.Raw.IsValid text ⟨span.stop⟩
  newline_notMem : newlineByte ∉ bytesIn text span
  number_eq : number = lineAt text span.start
  within_line : ∃ line, Span.ofLine text number = some line ∧ span.Within line

theorem marksLine_of_append {text : String} {before part after : List Char}
    (htext : text.toList = before ++ (part ++ after)) (hne : part ≠ []) (hpart : '\n' ∉ part) :
    Span.MarksLine text (lineAt text (byteSize before))
      ⟨byteSize before, byteSize before + byteSize part⟩ := by
  have hbehind : text.toList = before ++ part ++ after := by rw [htext, List.append_assoc]
  obtain ⟨line, hline, -, hwithin⟩ := exists_line_around htext hpart
  refine ⟨?_, ?_, isValid_of_append htext, ?_, ?_, rfl, line, hline, hwithin⟩
  · exact Nat.lt_add_of_pos_right (byteSize_pos hne)
  · have hsize := byteSize_eq_utf8ByteSize text.toList
    rw [String.ofList_toList, hbehind, byteSize_append, byteSize_append] at hsize
    show byteSize before + byteSize part ≤ text.utf8ByteSize
    omega
  · have hstop := isValid_of_append hbehind
    rwa [byteSize_append] at hstop
  · rw [bytesIn_of_append htext]
    exact newlineByte_notMem_encode hpart

/-- A span that is not empty is as wide as it is long. -/
theorem width_of_lt {span : Span} (h : span.start < span.stop) :
    span.width = span.stop - span.start := by
  rw [Span.width, if_pos h]

end DefForms
