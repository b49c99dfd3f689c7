import DefForms.Proofs.Bytes.Lines
import Mathlib.Logic.ExistsUnique

set_option autoImplicit false

/-! # The spans of the lines tile the text

`Proofs/Bytes/Lines` finds the span of a line that is given. Here it is the other way round: what
`Span.ofLine` answers is the whole line with this number (`ofLine_eq_some_iff`), it answers for every
number up to one more than there are line ends and for no other (`ofLine_isSome_iff`), and the spans
follow each other with one line end between two of them (`ofLine_tiles`).

All of this is said of bytes. A byte is on the line that is counted at its offset (`lineAt`), and
this count goes up behind line ends and nowhere else. -/

namespace DefForms

/-! ## The line of a byte -/

section LineAt

variable {text : String} {offset later : Nat}

theorem lineAt_mono (text : String) (h : offset ≤ later) : lineAt text offset ≤ lineAt text later :=
  Nat.add_le_add_left ((List.take_sublist_take_left h).count_le newlineByte) 1

/-- Behind a line end, the line is the next one. -/
theorem lineAt_succ (hbyte : (utf8Bytes text)[offset]? = some newlineByte) :
    lineAt text (offset + 1) = lineAt text offset + 1 := by
  rw [lineAt, lineAt, List.take_add_one, hbyte, List.count_append]
  rfl

theorem lineAt_lt (hbyte : (utf8Bytes text)[offset]? = some newlineByte) (h : offset < later) :
    lineAt text offset < lineAt text later := by
  have hmono := lineAt_mono text (by omega : offset + 1 ≤ later)
  rw [lineAt_succ hbyte] at hmono
  omega

/-- Where there is no line end, the line stays the same. -/
theorem lineAt_eq_of_notMem (h : offset ≤ later)
    (hbytes : newlineByte ∉ bytesIn text ⟨offset, later⟩) :
    lineAt text later = lineAt text offset := by
  have hcut := List.take_append_drop offset ((utf8Bytes text).take later)
  rw [List.take_take, Nat.min_eq_left h] at hcut
  rw [lineAt, lineAt, ← hcut, List.count_append]
  have hnone : (((utf8Bytes text).take later).drop offset).count newlineByte = 0 :=
    List.count_eq_zero.2 hbytes
  rw [hnone, Nat.add_zero]

theorem lineAt_utf8ByteSize (text : String) :
    lineAt text text.utf8ByteSize = 1 + text.toList.count '\n' := by
  rw [lineAt, utf8ByteSize_eq_length, List.take_length, utf8Bytes_eq_encode,
    count_newlineByte_encode]

theorem mem_bytesIn {span : Span} {byte : UInt8} (hbyte : (utf8Bytes text)[offset]? = some byte)
    (hstart : span.start ≤ offset) (hstop : offset < span.stop) : byte ∈ bytesIn text span := by
  rw [bytesIn]
  refine List.mem_of_getElem? (i := offset - span.start) ?_
  rw [List.getElem?_drop, Nat.add_sub_cancel' hstart, List.getElem?_take, if_pos hstop, hbyte]

end LineAt

/-! ## Whole lines -/

/-- The span marks the whole line with this number, without its line end. -/
structure Span.CoversLine (text : String) (number : Nat) (span : Span) : Prop where
  start_le_stop : span.start ≤ span.stop
  stop_le : span.stop ≤ text.utf8ByteSize
  start_isValid : String.Pos.Raw.IsValid text ⟨span.start⟩
  stop_isValid : String.Pos.Raw.IsValid text ⟨span.stop⟩
  newline_notMem : newlineByte ∉ bytesIn text span
  start_eq : span.start = 0
    ∨ ∃ offset, span.start = offset + 1 ∧ (utf8Bytes text)[offset]? = some newlineByte
  stop_eq : span.stop = text.utf8ByteSize ∨ (utf8Bytes text)[span.stop]? = some newlineByte
  number_eq : number = lineAt text span.start

theorem newlineByte_of_append {text : String} {before after : List Char}
    (h : text.toList = before ++ '\n' :: after) :
    (utf8Bytes text)[byteSize before]? = some newlineByte := by
  rw [utf8Bytes_eq_encode, h, encode_append, ← length_encode,
    List.getElem?_append_right (Nat.le_refl _), Nat.sub_self]
  rfl

theorem coversLine_of_isLine {text : String} {number : Nat} {before line after : List Char}
    (h : IsLine text.toList number before line after) :
    Span.CoversLine text number ⟨byteSize before, byteSize before + byteSize line⟩ := by
  have hbehind : text.toList = before ++ line ++ after := by rw [h.text_eq, List.append_assoc]
  have hsize : text.utf8ByteSize = byteSize before + byteSize line + byteSize after := by
    rw [utf8ByteSize_eq_length, utf8Bytes_eq_encode, length_encode, hbehind, byteSize_append,
      byteSize_append]
  refine ⟨Nat.le_add_right .., ?_, isValid_of_append h.text_eq, ?_, ?_, ?_, ?_, ?_⟩
  · rw [hsize]
    exact Nat.le_add_right ..
  · have hstop := isValid_of_append hbehind
    rwa [byteSize_append] at hstop
  · rw [bytesIn_of_append h.text_eq]
    exact newlineByte_notMem_encode h.newline_notMem
  · rcases h.endsLine with rfl | ⟨front, rfl⟩
    · exact .inl rfl
    · have hfront : text.toList = front ++ '\n' :: (line ++ after) := by
        rw [h.text_eq, List.append_assoc]
        rfl
      exact .inr ⟨byteSize front, byteSize_append .., newlineByte_of_append hfront⟩
  · rcases h.stopsLine with rfl | ⟨back, rfl⟩
    · exact .inl hsize.symm
    · have hbyte := newlineByte_of_append hbehind
      rw [byteSize_append] at hbyte
      exact .inr hbyte
  · rw [lineAt_of_append h.text_eq, h.number_eq]

namespace Span.CoversLine

variable {text : String} {number offset : Nat} {span other : Span}

/-- Nothing in front of a line has its number. -/
theorem start_le (h : span.CoversLine text number) (hnumber : lineAt text offset = number) :
    span.start ≤ offset := by
  have hstart := h.number_eq
  refine Nat.le_of_not_lt fun hlt => ?_
  rcases h.start_eq with hzero | ⟨before, hbefore, hnewline⟩
  · omega
  · have hle := lineAt_mono text (by omega : offset ≤ before)
    have hstep := lineAt_lt hnewline (by omega : before < span.start)
    omega

/-- Nothing behind a line has its number. -/
theorem le_stop (h : span.CoversLine text number) (hsize : offset ≤ text.utf8ByteSize)
    (hnumber : lineAt text offset = number) : offset ≤ span.stop := by
  have hstart := h.number_eq
  refine Nat.le_of_not_lt fun hlt => ?_
  rcases h.stop_eq with hend | hnewline
  · omega
  · have hle := lineAt_mono text h.start_le_stop
    have hstep := lineAt_lt hnewline hlt
    omega

/-- The bytes of a line and its line end have the number of the line. -/
theorem lineAt_eq (h : span.CoversLine text number) (hstart : span.start ≤ offset)
    (hstop : offset ≤ span.stop) : lineAt text offset = number := by
  rw [h.number_eq]
  refine lineAt_eq_of_notMem hstart fun hmem => h.newline_notMem ?_
  exact ((List.take_sublist_take_left hstop).drop span.start).subset hmem

/-- A line stops at the line end that has its number. -/
theorem stop_eq_of_newline (h : span.CoversLine text number)
    (hbyte : (utf8Bytes text)[offset]? = some newlineByte) (hnumber : lineAt text offset = number) :
    offset = span.stop := by
  have hsize : offset < text.utf8ByteSize := by
    rw [utf8ByteSize_eq_length]
    exact (List.getElem?_eq_some_iff.1 hbyte).1
  have hstop := h.le_stop (Nat.le_of_lt hsize) hnumber
  refine Nat.le_antisymm hstop (Nat.le_of_not_lt fun hlt => ?_)
  exact h.newline_notMem (mem_bytesIn hbyte (h.start_le hnumber) hlt)

theorem lt_stop (h : span.CoversLine text number) (hsize : offset < text.utf8ByteSize)
    (hbyte : (utf8Bytes text)[offset]? ≠ some newlineByte) (hle : offset ≤ span.stop) :
    offset < span.stop := by
  refine Nat.lt_of_le_of_ne hle ?_
  rintro rfl
  rcases h.stop_eq with hend | hnewline
  · omega
  · exact hbyte hnewline

theorem stop_le_stop (h : span.CoversLine text number) (hother : other.CoversLine text number) :
    other.stop ≤ span.stop :=
  h.le_stop hother.stop_le (hother.lineAt_eq hother.start_le_stop (Nat.le_refl _))

/-- There are no two spans of the same line. -/
theorem unique (h : span.CoversLine text number) (hother : other.CoversLine text number) :
    span = other := by
  have hstart := Nat.le_antisymm (h.start_le hother.number_eq.symm)
    (hother.start_le h.number_eq.symm)
  have hstop := Nat.le_antisymm (hother.stop_le_stop h) (h.stop_le_stop hother)
  calc
    span = ⟨span.start, span.stop⟩ := rfl
    _ = ⟨other.start, other.stop⟩ := by rw [hstart, hstop]

end Span.CoversLine

/-! ## Which lines there are -/

/-- There is one more line than there are line ends. -/
theorem length_splitOn_newline (text : List Char) :
    (text.splitOn '\n').length = 1 + text.count '\n' := by
  induction text with
  | nil => rfl
  | cons c rest ih =>
      rw [List.splitOn_cons_eq_if_modifyHead, List.count_cons]
      split
      · rw [List.length_cons, ih, Nat.add_assoc]
      · rw [List.length_modifyHead, ih, Nat.add_zero]

theorem number_of_ofLineFrom {start number : Nat} {lines : List (List Char)} {span : Span}
    (h : Span.ofLineFrom start lines number = some span) :
    1 ≤ number ∧ number ≤ lines.length := by
  fun_induction Span.ofLineFrom start lines number with
  | case1 => simp at h
  | case2 => simp at h
  | case3 start line rest => simp
  | case4 start line rest number ih =>
      have hnumber := ih h
      rw [List.length_cons]
      omega

/-- In front of every line end that a text has, and behind it, there are some whole lines. -/
theorem exists_endsLine_of_count {text : List Char} {count : Nat} (h : count ≤ text.count '\n') :
    ∃ front back, text = front ++ back ∧ EndsLine front ∧ front.count '\n' = count := by
  induction count generalizing text with
  | zero => exact ⟨[], text, rfl, .inl rfl, rfl⟩
  | succ count ih =>
      have hmem : '\n' ∈ text := List.count_pos_iff.1 (Nat.lt_of_lt_of_le (Nat.succ_pos _) h)
      obtain ⟨first, rest, rfl, hfirst⟩ := List.eq_append_cons_of_mem hmem
      rw [List.count_append, List.count_eq_zero.2 hfirst, List.count_cons_self] at h
      obtain ⟨front, back, rfl, hends, hcount⟩ := ih (by omega : count ≤ rest.count '\n')
      refine ⟨first ++ '\n' :: front, back, by simp, ?_, ?_⟩
      · rcases hends with rfl | ⟨whole, rfl⟩
        · exact .inr ⟨first, rfl⟩
        · exact .inr ⟨first ++ '\n' :: whole, by simp⟩
      · rw [List.count_append, List.count_eq_zero.2 hfirst, List.count_cons_self, hcount]
        omega

/-- A text has a line for every number up to one more than it has line ends. -/
theorem exists_isLine {text : List Char} {number : Nat} (hpos : 1 ≤ number)
    (hle : number ≤ 1 + text.count '\n') :
    ∃ before line after, IsLine text number before line after := by
  obtain ⟨before, back, rfl, hbefore, hcount⟩ :=
    exists_endsLine_of_count (by omega : number - 1 ≤ text.count '\n')
  obtain ⟨line, after, rfl, hline, hafter⟩ := exists_stopsLine back
  exact ⟨before, line, after, rfl, hline, hbefore, hafter, by omega⟩

section OfLine

variable {text : String} {number : Nat} {span : Span}

theorem ofLine_isSome_iff :
    (∃ span, Span.ofLine text number = some span) ↔
      1 ≤ number ∧ number ≤ 1 + text.toList.count '\n' := by
  constructor
  · rintro ⟨span, hspan⟩
    rw [← length_splitOn_newline]
    exact number_of_ofLineFrom hspan
  · rintro ⟨hpos, hle⟩
    obtain ⟨before, line, after, hline⟩ := exists_isLine hpos hle
    exact ⟨_, ofLine_of_isLine hline⟩

/-- What is answered is the whole line with this number. -/
theorem ofLine_eq_some_iff :
    Span.ofLine text number = some span ↔ span.CoversLine text number := by
  -- the line with this number, if it is one
  have covered : 1 ≤ number ∧ number ≤ 1 + text.toList.count '\n' →
      ∃ line, Span.ofLine text number = some line ∧ line.CoversLine text number := by
    rintro ⟨hpos, hle⟩
    obtain ⟨before, line, after, hline⟩ := exists_isLine hpos hle
    exact ⟨_, ofLine_of_isLine hline, coversLine_of_isLine hline⟩
  constructor
  · intro h
    obtain ⟨line, hline, hcovers⟩ := covered (ofLine_isSome_iff.1 ⟨span, h⟩)
    rwa [Option.some.inj (h.symm.trans hline)]
  · intro h
    have hle := lineAt_mono text (Nat.le_trans h.start_le_stop h.stop_le)
    rw [← h.number_eq, lineAt_utf8ByteSize] at hle
    have hpos : 1 ≤ number := by
      rw [h.number_eq]
      exact Nat.le_add_right ..
    obtain ⟨line, hline, hcovers⟩ := covered ⟨hpos, hle⟩
    rw [hline, h.unique hcovers]

/-- The next line starts behind the line end. -/
theorem ofLine_succ {next : Span} (h : Span.ofLine text number = some span)
    (hnext : Span.ofLine text (number + 1) = some next) : next.start = span.stop + 1 := by
  have hcovers := ofLine_eq_some_iff.1 h
  have hcovers' := ofLine_eq_some_iff.1 hnext
  rcases hcovers'.start_eq with hzero | ⟨offset, hoffset, hbyte⟩
  · -- the first line is not the next one of any
    have hnumber := hcovers'.number_eq
    have hpos := (ofLine_isSome_iff.1 ⟨span, h⟩).1
    rw [hzero] at hnumber
    have hfirst : lineAt text 0 = 1 := rfl
    omega
  · have hnumber := hcovers'.number_eq
    rw [hoffset, lineAt_succ hbyte] at hnumber
    rw [hoffset, hcovers.stop_eq_of_newline hbyte (by omega)]

end OfLine

/-- `Span.ofLine` answers exactly for the numbers of the lines of a text, with the whole line without
    its line end. The next line starts behind the line end, so every byte that is no line end lies in
    the span of exactly one line. -/
theorem Span.ofLine_tiles (text : String) :
    (∀ number, (∃ span, Span.ofLine text number = some span) ↔
        1 ≤ number ∧ number ≤ 1 + text.toList.count '\n')
      ∧ (∀ number span, Span.ofLine text number = some span ↔ span.CoversLine text number)
      ∧ (∀ number span next, Span.ofLine text number = some span →
        Span.ofLine text (number + 1) = some next → next.start = span.stop + 1)
      ∧ ∀ offset < text.utf8ByteSize, (utf8Bytes text)[offset]? ≠ some newlineByte →
        ∃! number, ∃ span, Span.ofLine text number = some span ∧ span.start ≤ offset
          ∧ offset < span.stop := by
  refine ⟨fun number => ofLine_isSome_iff, fun number span => ofLine_eq_some_iff,
    fun number span next => ofLine_succ, ?_⟩
  intro offset hsize hbyte
  have hle : lineAt text offset ≤ 1 + text.toList.count '\n' := by
    rw [← lineAt_utf8ByteSize]
    exact lineAt_mono text (Nat.le_of_lt hsize)
  obtain ⟨span, hspan⟩ := ofLine_isSome_iff.2 ⟨Nat.le_add_right .., hle⟩
  refine ⟨lineAt text offset, ⟨span, hspan, ?_⟩, ?_⟩
  · have hcovers := ofLine_eq_some_iff.1 hspan
    have hstop := hcovers.le_stop (Nat.le_of_lt hsize) rfl
    exact ⟨hcovers.start_le rfl, hcovers.lt_stop hsize hbyte hstop⟩
  · rintro number ⟨other, hother, hstart, hstop⟩
    exact ((ofLine_eq_some_iff.1 hother).lineAt_eq hstart (Nat.le_of_lt hstop)).symm

theorem Span.ofLine_tiles_of_blankLine :
    Span.ofLine "é\n\nb" 0 = none ∧ Span.ofLine "é\n\nb" 4 = none
      ∧ Span.ofLine "é\n\nb" 2 = some ⟨3, 3⟩ ∧ Span.ofLine "é\n\nb" 3 = some ⟨4, 5⟩
      ∧ Span.CoversLine "é\n\nb" 2 ⟨3, 3⟩ ∧ (⟨4, 5⟩ : Span).start = (⟨3, 3⟩ : Span).stop + 1
      ∧ ∃! number, ∃ span, Span.ofLine "é\n\nb" number = some span ∧ span.start ≤ 1
        ∧ 1 < span.stop := by
  obtain ⟨-, hcovers, hnext, hbytes⟩ := Span.ofLine_tiles "é\n\nb"
  have hsecond : Span.ofLine "é\n\nb" 2 = some ⟨3, 3⟩ := by decide +kernel
  have hthird : Span.ofLine "é\n\nb" 3 = some ⟨4, 5⟩ := by decide +kernel
  exact ⟨by decide +kernel, by decide +kernel, hsecond, hthird, (hcovers 2 _).1 hsecond,
    hnext 2 _ _ hsecond hthird, hbytes 1 (by decide +kernel) (by decide +kernel)⟩

end DefForms
