import DefForms.Proofs.Reader.Reading

set_option autoImplicit false

/-! # The bytes of a text

A text is a row of characters and a row of bytes in UTF-8. Spans and places count bytes; reading looks
at characters. What ties the two together is that a character of ASCII is a single byte with its
code, and that the bytes of all other characters are 128 or more, so that no byte of them can be
taken for a character of the notation. -/

namespace DefForms

/-- The bytes of a text. -/
def utf8Bytes (text : String) : List UInt8 := text.toByteArray.data.toList

/-- The bytes of some characters in a row. -/
def encode (text : List Char) : List UInt8 := text.flatMap String.utf8EncodeChar

theorem utf8Bytes_eq_encode (text : String) : utf8Bytes text = encode text.toList := by
  rw [utf8Bytes, ← String.utf8Encode_toList, List.utf8Encode, List.toList_data_toByteArray, encode]

theorem encode_append (front back : List Char) :
    encode (front ++ back) = encode front ++ encode back :=
  List.flatMap_append ..

theorem encode_cons (c : Char) (rest : List Char) :
    encode (c :: rest) = String.utf8EncodeChar c ++ encode rest :=
  List.flatMap_cons ..

theorem length_encode (text : List Char) : (encode text).length = byteSize text := by
  induction text with
  | nil => rfl
  | cons c rest ih =>
      rw [encode_cons, List.length_append, String.length_utf8EncodeChar, ih, byteSize]

theorem utf8ByteSize_eq_length (text : String) : text.utf8ByteSize = (utf8Bytes text).length := by
  rw [utf8Bytes_eq_encode, length_encode, byteSize_eq_utf8ByteSize, String.ofList_toList]

theorem take_encode (front back : List Char) :
    (encode (front ++ back)).take (byteSize front) = encode front := by
  rw [encode_append, List.take_left' (length_encode front)]

theorem drop_encode (front back : List Char) :
    (encode (front ++ back)).drop (byteSize front) = encode back := by
  rw [encode_append, List.drop_left' (length_encode front)]

/-! ## Single characters -/

/-- The character is one of ASCII. -/
def IsAscii (c : Char) : Prop := c.toNat < 128

instance (c : Char) : Decidable (IsAscii c) := Nat.decLt c.toNat 128

theorem utf8EncodeChar_of_isAscii {c : Char} (h : IsAscii c) :
    String.utf8EncodeChar c = [UInt8.ofNat c.toNat] := by
  have hle : c.val.toNat ≤ 127 := Nat.le_of_lt_succ h
  rw [String.utf8EncodeChar]
  exact if_pos hle

theorem utf8Size_of_isAscii {c : Char} (h : IsAscii c) : c.utf8Size = 1 := by
  rw [← String.length_utf8EncodeChar, utf8EncodeChar_of_isAscii h]
  rfl

/-- No byte of a character outside of ASCII is that of an ASCII character. -/
theorem le_of_mem_utf8EncodeChar {c : Char} {b : UInt8} (h : ¬ IsAscii c)
    (hb : b ∈ String.utf8EncodeChar c) : 128 ≤ b.toNat := by
  have hge : ¬ c.val.toNat ≤ 127 := fun hle => h (Nat.lt_succ_of_le hle)
  have hbound : c.val.toNat < 1114112 := by
    have hvalid := c.valid
    rcases hvalid with hlow | hhigh
    · exact Nat.lt_trans hlow (by decide)
    · exact hhigh.2
  rw [String.utf8EncodeChar] at hb
  simp only [if_neg hge] at hb
  split at hb
  · simp only [List.mem_cons, List.not_mem_nil, or_false] at hb
    rcases hb with rfl | rfl <;> rw [UInt8.toNat_ofNat'] <;> omega
  · split at hb
    · simp only [List.mem_cons, List.not_mem_nil, or_false] at hb
      rcases hb with rfl | rfl | rfl <;> rw [UInt8.toNat_ofNat'] <;> omega
    · simp only [List.mem_cons, List.not_mem_nil, or_false] at hb
      rcases hb with rfl | rfl | rfl | rfl <;> rw [UInt8.toNat_ofNat'] <;> omega

/-! ## Line ends -/

/-- The byte of a line end. -/
def newlineByte : UInt8 := 10

/-- Every line end is one byte, and there is no such byte in any other character. -/
theorem count_newlineByte_encode (text : List Char) :
    (encode text).count newlineByte = text.count '\n' := by
  induction text with
  | nil => rfl
  | cons c rest ih =>
      rw [encode_cons, List.count_append, ih, List.count_cons, Nat.add_comm]
      congr 1
      by_cases hc : IsAscii c
      · rw [utf8EncodeChar_of_isAscii hc, List.count_singleton]
        by_cases hline : c = '\n'
        · rw [hline]
          rfl
        · have hne : UInt8.ofNat c.toNat ≠ newlineByte := by
            intro heq
            have hcode := congrArg UInt8.toNat heq
            rw [UInt8.toNat_ofNat', Nat.mod_eq_of_lt (Nat.lt_trans hc (by decide))] at hcode
            exact hline (Char.toNat_inj.1 hcode)
          simp [hne, hline]
      · have hnone : newlineByte ∉ String.utf8EncodeChar c :=
          fun hmem => absurd (le_of_mem_utf8EncodeChar hc hmem) (by decide)
        have hline : c ≠ '\n' := by
          rintro rfl
          exact hc (by decide)
        simp [List.count_eq_zero.2 hnone, hline]

/-- The line on which the byte at this offset stands: one more than there are line ends in front of
    it. -/
def lineAt (text : String) (offset : Nat) : Nat :=
  1 + ((utf8Bytes text).take offset).count newlineByte

theorem lineAt_of_append {text : String} {before after : List Char}
    (h : text.toList = before ++ after) :
    lineAt text (byteSize before) = 1 + before.count '\n' := by
  rw [lineAt, utf8Bytes_eq_encode, h, take_encode, count_newlineByte_encode]

/-! ## Characters at offsets

Only some offsets lie between characters. What the text has at an offset is asked of the library, which
answers for these offsets only. -/

/-- The character that starts at this byte. -/
def charAt? (text : String) (offset : Nat) : Option Char :=
  (text.pos? ⟨offset⟩).bind String.Pos.get?

/-- The text between two offsets in this order, if both lie between characters. -/
def between? (text : String) (start stop : Nat) : Option String :=
  match text.pos? ⟨start⟩, text.pos? ⟨stop⟩ with
  | some front, some back => if h : front ≤ back then some (text.slice front back h).copy else none
  | _, _ => none

theorem pos?_of_append {text front back : String} (h : text = front ++ back) :
    ∃ pos, text.pos? ⟨front.utf8ByteSize⟩ = some pos ∧ pos.Splits front back := by
  have hvalid : String.Pos.Raw.IsValid text ⟨front.utf8ByteSize⟩ :=
    String.Pos.Raw.isValid_iff_exists_append.2 ⟨front, back, h, rfl⟩
  refine ⟨text.pos _ hvalid, ?_, ⟨h, rfl⟩⟩
  rw [String.pos?, String.Slice.pos?,
    dif_pos (String.Pos.Raw.isValidForSlice_eq_true_iff.2 hvalid.toSlice)]
  rfl

section Offsets

variable {text : String} {before part after : List Char}

theorem eq_of_toList_eq (h : text.toList = before ++ after) :
    text = String.ofList before ++ String.ofList after := by
  rw [← String.ofList_append, ← h, String.ofList_toList]

theorem charAt?_of_append (h : text.toList = before ++ after) :
    charAt? text (byteSize before) = after.head? := by
  obtain ⟨pos, hpos, hsplits⟩ := pos?_of_append (eq_of_toList_eq h)
  rw [← byteSize_eq_utf8ByteSize] at hpos
  rw [charAt?, hpos, Option.bind_some]
  cases after with
  | nil =>
      have hend : pos = text.endPos := hsplits.eq_endPos_iff.2 rfl
      rw [hend, String.Pos.get?_endPos]
      rfl
  | cons c rest =>
      rw [String.ofList_cons] at hsplits
      have hne := hsplits.ne_endPos_of_singleton
      rw [String.Pos.get?_eq_some_get hne, hsplits.next.get_eq_of_singleton]
      rfl

theorem between?_of_append (h : text.toList = before ++ (part ++ after)) :
    between? text (byteSize before) (byteSize before + byteSize part)
      = some (String.ofList part) := by
  have hbehind : text.toList = before ++ part ++ after := by rw [h, List.append_assoc]
  obtain ⟨front, hfront, hsplits⟩ := pos?_of_append (eq_of_toList_eq h)
  obtain ⟨back, hback, hsplits'⟩ := pos?_of_append (eq_of_toList_eq hbehind)
  rw [← byteSize_eq_utf8ByteSize] at hfront hback
  rw [byteSize_append] at hback
  rw [String.ofList_append] at hsplits hsplits'
  obtain ⟨hle, hcopy⟩ := String.copy_slice_eq_iff_splits.2 ⟨_, _, hsplits, hsplits'⟩
  simp only [between?, hfront, hback, dif_pos hle, hcopy]

end Offsets

/-! ## Parts of a source -/

/-- The text is the part of the source that starts at this byte. -/
def StandsAt (source : String) (offset : Nat) (text : List Char) : Prop :=
  ∃ before after, source.toList = before ++ (text ++ after) ∧ offset = byteSize before

theorem standsAt_start (source : String) : StandsAt source 0 source.toList :=
  ⟨[], [], by simp, rfl⟩

section StandsAt

variable {source : String} {offset : Nat} {text rest : List Char}

theorem StandsAt.front (h : StandsAt source offset (text ++ rest)) :
    StandsAt source offset text := by
  obtain ⟨before, after, hsource, rfl⟩ := h
  exact ⟨before, rest ++ after, by rw [hsource, List.append_assoc], rfl⟩

theorem StandsAt.behind (h : StandsAt source offset (text ++ rest)) :
    StandsAt source (offset + byteSize text) rest := by
  obtain ⟨before, after, hsource, rfl⟩ := h
  refine ⟨before ++ text, after, ?_, (byteSize_append ..).symm⟩
  rw [hsource, List.append_assoc, List.append_assoc]

/-- Behind a part of the source, the lines are those of the part further. -/
theorem StandsAt.lineAt (h : StandsAt source offset (text ++ rest)) :
    lineAt source (offset + byteSize text) = lineAt source offset + text.count '\n' := by
  obtain ⟨before, after, hsource, rfl⟩ := h
  have hbehind : source.toList = before ++ text ++ (rest ++ after) := by simp [hsource]
  rw [← byteSize_append, lineAt_of_append hsource, lineAt_of_append hbehind, List.count_append,
    Nat.add_assoc]

end StandsAt

end DefForms
