import DefForms.Proofs.Bytes.Reader
import DefForms.Proofs.Reader.Fault

set_option autoImplicit false

/-! # Places among bytes and among characters

A reader of characters has a row of characters left, and a reader of bytes has offsets at which this
row starts and ends. `At` says that they belong together. At such a place every move over a character
of ASCII keeps the bounds (`At.advance`), whatever was moved over can be cut out (`At.slice`), and the
byte at the place tells whether the character there is one of the notation (`At.peek_cons`). -/

namespace DefForms.Bytewise

open Reader

/-! ## Bytes as characters -/

/-- The two characters are the same, or none of them is one of ASCII. -/
def Alike (d c : Char) : Prop := d = c ∨ ¬ IsAscii d ∧ ¬ IsAscii c

/-- The class has characters of ASCII only. -/
def AsciiOnly (p : Char → Bool) : Prop := ∀ c, p c = true → IsAscii c

theorem Alike.apply {p : Char → Bool} {d c : Char} (hp : AsciiOnly p) (h : Alike d c) :
    p d = p c := by
  rcases h with rfl | ⟨hd, hc⟩
  · rfl
  · have hnone : ∀ x, ¬ IsAscii x → p x = false := fun x hx => by simpa using mt (hp x) hx
    rw [hnone d hd, hnone c hc]

theorem Alike.eq_iff {d c x : Char} (hx : IsAscii x) (h : Alike d c) : d = x ↔ c = x := by
  rcases h with rfl | ⟨hd, hc⟩
  · rfl
  · constructor
    · rintro rfl
      exact absurd hx hd
    · rintro rfl
      exact absurd hx hc

theorem Alike.eq {d c : Char} (hc : IsAscii c) (h : Alike d c) : d = c :=
  h.elim id fun hnone => absurd hc hnone.2

theorem isAscii_of_le {c d : Char} (hd : IsAscii d) (h : c.val ≤ d.val) : IsAscii c :=
  Nat.lt_of_le_of_lt (UInt32.le_iff_toNat_le.1 h) hd

theorem isAscii_of_isDigit : AsciiOnly Char.isDigit := by
  intro c h
  have hbelow : c.val ≤ '9'.val := of_decide_eq_true (Bool.and_eq_true_iff.1 h).2
  exact isAscii_of_le (by decide) hbelow

theorem isAscii_of_isAlpha : AsciiOnly Char.isAlpha := by
  intro c h
  rcases Bool.or_eq_true_iff.1 h with hupper | hlower
  · have hbelow : c.val ≤ 'Z'.val := (of_decide_eq_true hupper).2
    exact isAscii_of_le (by decide) hbelow
  · have hbelow : c.val ≤ 'z'.val := of_decide_eq_true (Bool.and_eq_true_iff.1 hlower).2
    exact isAscii_of_le (by decide) hbelow

theorem isAscii_of_isBlank : AsciiOnly isBlank := by
  intro c h
  simp only [isBlank, Bool.or_eq_true, beq_iff_eq] at h
  rcases h with rfl | rfl <;> decide

theorem isAscii_of_isOperator : AsciiOnly isOperator := by
  intro c h
  rcases isOperator_cases h with rfl | rfl | rfl | rfl | rfl <;> decide

theorem isAscii_of_isNameChar : AsciiOnly isNameChar := by
  intro c h
  simp only [isNameChar, Char.isAlphanum, Bool.or_eq_true, beq_iff_eq] at h
  rcases h with (h | h) | rfl
  · exact isAscii_of_isAlpha c h
  · exact isAscii_of_isDigit c h
  · decide

theorem isAscii_of_isEntryStart : AsciiOnly isEntryStart := by
  intro c h
  simp only [isEntryStart, Bool.or_eq_true, beq_iff_eq] at h
  rcases h with h | rfl
  · exact isAscii_of_isAlpha c h
  · decide

theorem isAscii_of_isEntryChar : AsciiOnly isEntryChar := by
  intro c h
  simp only [isEntryChar, Bool.or_eq_true, beq_iff_eq] at h
  rcases h with h | rfl
  · exact isAscii_of_isNameChar c h
  · decide

theorem ofUInt8_of_isAscii {c : Char} (h : IsAscii c) : Char.ofUInt8 (UInt8.ofNat c.toNat) = c := by
  have hcode : (UInt8.ofNat c.toNat).toNat = c.toNat := by
    rw [UInt8.toNat_ofNat', Nat.mod_eq_of_lt (Nat.lt_trans h (by decide))]
  exact Char.toNat_inj.1 hcode

/-- The byte with which a character starts tells the same classes. -/
theorem alike_of_head {c : Char} {b : UInt8} {bytes : List UInt8}
    (h : String.utf8EncodeChar c = b :: bytes) : Alike (Char.ofUInt8 b) c := by
  by_cases hc : IsAscii c
  · rw [utf8EncodeChar_of_isAscii hc] at h
    obtain ⟨rfl, -⟩ := List.cons.inj h
    exact .inl (ofUInt8_of_isAscii hc)
  · have hlow := le_of_mem_utf8EncodeChar hc (h ▸ List.mem_cons_self)
    exact .inr ⟨Nat.not_lt.2 hlow, hc⟩

/-! ## Places -/

/-- The place stands in front of `text`, which is what is left of the span; `after` is what the source
    has behind the span. -/
structure At (scope : Scope) (cur : Cursor) (text after : List Char) : Prop where
  stands : ∃ before, scope.text.toList = before ++ (text ++ after) ∧ cur.offset = byteSize before
  stop_eq : scope.stop = cur.offset + byteSize text
  le_outer : ∀ bound ∈ scope.outer, scope.stop ≤ bound
  depth_le : cur.depth ≤ maxDepth

section At

variable {scope : Scope} {cur : Cursor} {text front back after : List Char} {c : Char}

theorem At.stop_le (h : At scope cur text after) : scope.stop ≤ scope.text.utf8ByteSize := by
  obtain ⟨before, htext, hoffset⟩ := h.stands
  have hsize := byteSize_eq_utf8ByteSize scope.text.toList
  rw [htext, byteSize_append, byteSize_append, ← htext, String.ofList_toList] at hsize
  have hstop := h.stop_eq
  omega

/-- Every place up to the end of the span is one to which the reader may go. -/
theorem At.moveTo (h : At scope cur text after) {place : Cursor} (hle : place.offset ≤ scope.stop)
    (hdepth : place.depth ≤ maxDepth) : moveTo scope place = .ok place := by
  have hbounds : ∀ bound ∈ scope.stop :: scope.outer, place.offset ≤ bound :=
    List.forall_mem_cons.2 ⟨hle, fun bound hbound => Nat.le_trans hle (h.le_outer bound hbound)⟩
  rw [Bytewise.moveTo, if_pos ⟨hbounds, Nat.le_trans hle h.stop_le⟩, if_pos hdepth]

theorem At.past (h : At scope cur (front ++ back) after) : At scope (cur.past front) back after where
  stands := by
    obtain ⟨before, htext, hoffset⟩ := h.stands
    refine ⟨before ++ front, by rw [htext]; simp, ?_⟩
    rw [Cursor.past_offset, hoffset, byteSize_append]
  stop_eq := by rw [h.stop_eq, Cursor.past_offset, byteSize_append, Nat.add_assoc]
  le_outer := h.le_outer
  depth_le := by rw [Cursor.past_depth]; exact h.depth_le

theorem At.step (h : At scope cur (c :: back) after) : At scope (cur.step c) back after := by
  have hfront : At scope cur ([c] ++ back) after := h
  exact hfront.past

theorem At.peek_nil (h : At scope cur [] after) : peek scope cur = none := by
  have hstop : scope.stop = cur.offset := h.stop_eq
  rw [peek, if_neg (by omega)]

theorem At.byte {b : UInt8} {bytes : List UInt8} (h : At scope cur (c :: back) after)
    (hc : String.utf8EncodeChar c = b :: bytes) : (utf8Bytes scope.text)[cur.offset]? = some b := by
  obtain ⟨before, htext, hoffset⟩ := h.stands
  rw [utf8Bytes_eq_encode, htext, hoffset, encode_append, ← length_encode,
    List.getElem?_append_right (Nat.le_refl _), Nat.sub_self, List.cons_append, encode_cons, hc]
  rfl

theorem At.peek_cons (h : At scope cur (c :: back) after) :
    ∃ d, peek scope cur = some d ∧ Alike d c := by
  have hstop := h.stop_eq
  rw [byteSize] at hstop
  have hsize := Char.utf8Size_pos c
  obtain ⟨b, bytes, hencode⟩ : ∃ b bytes, String.utf8EncodeChar c = b :: bytes := by
    refine List.exists_cons_of_length_pos ?_
    rwa [String.length_utf8EncodeChar]
  refine ⟨Char.ofUInt8 b, ?_, alike_of_head hencode⟩
  rw [peek, if_pos (by omega), h.byte hencode, Option.map_some]

theorem At.advance (h : At scope cur (c :: back) after) (hc : IsAscii c) :
    advance scope cur c = .ok (cur.step c) := by
  have hsize := utf8Size_of_isAscii hc
  have hle : (cur.step c).offset ≤ scope.stop := by
    rw [h.stop_eq, byteSize, ← Nat.add_assoc]
    exact Nat.le_add_right ..
  have hstep : (⟨cur.offset + 1, if c = '\n' then cur.line + 1 else cur.line, cur.depth⟩ : Cursor)
      = cur.step c := by
    rw [Cursor.step, hsize]
  rw [Bytewise.advance, hstep]
  exact h.moveTo hle h.depth_le

theorem At.slice (h : At scope cur (front ++ back) after) :
    slice scope cur.offset (cur.past front).offset = .ok (String.ofList front) := by
  obtain ⟨before, htext, hoffset⟩ := h.stands
  rw [List.append_assoc] at htext
  simp only [Bytewise.slice, Cursor.past_offset, hoffset, between?_of_append htext]

theorem At.unexpected (h : At scope cur text after) :
    unexpected scope cur = .failure (.unexpected cur (text ++ after).head?) := by
  obtain ⟨before, htext, hoffset⟩ := h.stands
  rw [Bytewise.unexpected, hoffset, charAt?_of_append htext]

end At

end DefForms.Bytewise
