import DefForms.Proofs.Bytes.Lines
import DefForms.Proofs.Bytes.Reader
import DefForms.Proofs.Reader.Delimiter
import Mathlib.Data.List.Induction
import Mathlib.Order.Bounds.Basic

set_option autoImplicit false

/-! # Where the search for a closing delimiter stops

The search counts up at an opening and down at a closing delimiter and stops when the count is down to
zero. So it stops at the first place up to which as many delimiters are closed as opened. This is said
without a running count (`EvenAt`, `IsFirst`) and proved once, of the search in a row of any items
(`search_isFirst`). The search among characters and the search among bytes are this one
(`closeFrom_eq_search`, `closeByte_eq_search`), whatever the two delimiters are and whatever else stands
in the text.

Where the search finds nothing, more delimiters are opened than closed from its start up to any place
(`count_lt_of_enclosed`). -/

namespace DefForms

/-! ## First indices -/

/-- The result of a search for an index: the least one with the property, or none if no index has
    it. -/
def IsFirst (p : Nat → Prop) : Option Nat → Prop
  | some index => IsLeast {index | p index} index
  | none => ∀ index, ¬ p index

/-- The search may start later, where nothing in front of the later start has the property. -/
theorem IsFirst.shift {p q : Nat → Prop} {found : Option Nat} (start : Nat) (h : IsFirst p found)
    (hiff : ∀ index, q (start + index) ↔ p index) (hstart : ∀ index, q index → start ≤ index) :
    IsFirst q (found.map (start + ·)) := by
  have later : ∀ index, q index → p (index - start) := by
    intro index hindex
    rw [← hiff, Nat.add_sub_cancel' (hstart index hindex)]
    exact hindex
  cases found with
  | none => exact fun index hindex => h _ (later index hindex)
  | some first =>
      refine ⟨(hiff first).2 h.1, fun index hindex => ?_⟩
      have hle := h.2 (later index hindex)
      have hge := hstart index hindex
      show start + first ≤ index
      omega

/-! ## Counting delimiters -/

section Row

variable {α : Type} [BEq α] {opener closer x : α} {depth : Nat} {row : List α}
  {found : Option Nat}

/-- Up to and with the item at this index, all delimiters are closed again that are opened, and the
    `depth` ones that are open in front of the row. -/
def EvenAt (opener closer : α) (depth : Nat) (row : List α) (index : Nat) : Prop :=
  index < row.length
    ∧ depth + (row.take (index + 1)).count opener = (row.take (index + 1)).count closer

theorem evenAt_cons {index : Nat} :
    EvenAt opener closer depth (x :: row) (1 + index) ↔
      index < row.length ∧ depth + [x].count opener + (row.take (index + 1)).count opener
        = [x].count closer + (row.take (index + 1)).count closer := by
  rw [EvenAt, Nat.add_comm 1, List.take_succ_cons, List.length_cons, Nat.succ_lt_succ_iff,
    ← List.singleton_append, List.count_append, List.count_append, Nat.add_assoc]

/-- One more item in front, which leaves `later` open. -/
theorem isFirst_cons {later : Nat}
    (h : IsFirst (EvenAt opener closer later row) found) (hlater : 0 < later)
    (hcount : depth + [x].count opener = later + [x].count closer) :
    IsFirst (EvenAt opener closer depth (x :: row)) (found.map (1 + ·)) := by
  refine h.shift 1 ?_ ?_
  · intro index
    rw [evenAt_cons, EvenAt, hcount]
    constructor
    · rintro ⟨hindex, heven⟩
      exact ⟨hindex, by omega⟩
    · rintro ⟨hindex, heven⟩
      exact ⟨hindex, by omega⟩
  · intro index heven
    refine Nat.pos_of_ne_zero ?_
    rintro rfl
    have heq : depth + [x].count opener = [x].count closer := heven.2
    omega

/-- Where the delimiters are never even, more are open than closed all along. -/
theorem count_lt_of_isFirst_none {part : List α} (hdepth : 0 < depth)
    (h : IsFirst (EvenAt opener closer depth row) none) (hpart : part <+: row) :
    part.count closer < depth + part.count opener := by
  -- one more item cannot skip over the even count
  induction part using List.reverseRecOn with
  | nil => simpa using hdepth
  | append_singleton front x ih =>
      obtain ⟨back, rfl⟩ := hpart
      have hfront := ih ⟨[x] ++ back, by simp⟩
      have heven := h front.length
      have htake : (front ++ [x] ++ back).take (front.length + 1) = front ++ [x] :=
        List.take_left' (by simp)
      rw [EvenAt, htake] at heven
      have hone := List.count_le_length (a := closer) (l := [x])
      simp only [List.length_append, List.length_singleton, List.count_append] at heven hone ⊢
      omega

variable [LawfulBEq α]

theorem isFirst_opener (hne : opener ≠ closer)
    (h : IsFirst (EvenAt opener closer (depth + 1) row) found) :
    IsFirst (EvenAt opener closer depth (opener :: row)) (found.map (1 + ·)) :=
  isFirst_cons h (Nat.succ_pos depth) (by simp [hne])

theorem isFirst_closer (hne : opener ≠ closer) (hdepth : 1 < depth)
    (h : IsFirst (EvenAt opener closer (depth - 1) row) found) :
    IsFirst (EvenAt opener closer depth (closer :: row)) (found.map (1 + ·)) :=
  isFirst_cons h (by omega) (by simp [hne.symm]; omega)

theorem isFirst_last (hne : opener ≠ closer) :
    IsFirst (EvenAt opener closer 1 (closer :: row)) (some 0) :=
  ⟨⟨Nat.succ_pos _, by simp [hne.symm]⟩, fun _ _ => Nat.zero_le _⟩

theorem isFirst_other (hopener : x ≠ opener) (hcloser : x ≠ closer) (hdepth : 0 < depth)
    (h : IsFirst (EvenAt opener closer depth row) found) :
    IsFirst (EvenAt opener closer depth (x :: row)) (found.map (1 + ·)) :=
  isFirst_cons h hdepth (by simp [hopener, hcloser])

/-- The search in a row, with `depth` delimiters open in front of it. The result is counted from the
    front of the row. -/
def search [DecidableEq α] (opener closer : α) : Nat → List α → Option Nat
  | _, [] => none
  | depth, x :: row =>
    if x = opener then (search opener closer (depth + 1) row).map (1 + ·)
    else if x = closer then
      if depth = 1 then some 0 else (search opener closer (depth - 1) row).map (1 + ·)
    else (search opener closer depth row).map (1 + ·)

/-- Inside an open form, the search stops at the first item behind which nothing is open. -/
theorem search_isFirst [DecidableEq α] (hne : opener ≠ closer) (hdepth : 0 < depth) :
    IsFirst (EvenAt opener closer depth row) (search opener closer depth row) := by
  induction row generalizing depth with
  | nil => exact fun _ heven => absurd heven.1 (Nat.not_lt_zero _)
  | cons x row ih =>
      rw [search]
      split
      · next hopener =>
          subst hopener
          exact isFirst_opener hne (ih (Nat.succ_pos depth))
      · next hopener =>
          split
          · next hcloser =>
              subst hcloser
              split
              · next hone => exact hone ▸ isFirst_last hne
              · next hone => exact isFirst_closer hne (by omega) (ih (by omega))
          · next hcloser => exact isFirst_other hopener hcloser hdepth (ih hdepth)

theorem map_map_add (found : Option Nat) (index : Nat) :
    (found.map (1 + ·)).map (index + ·) = found.map (index + 1 + ·) := by
  cases found with
  | none => rfl
  | some first => simp [Nat.add_assoc]

end Row

end DefForms

namespace DefForms.Reader

/-! ## The search among characters -/

section Characters

variable {opener closer : Char} {text : List Char}

theorem closeFrom_eq_search (index depth : Nat) (text : List Char) :
    closeFrom opener closer index depth text
      = (search opener closer depth text).map (index + ·) := by
  induction text generalizing index depth with
  | nil => rfl
  | cons c rest ih =>
      rw [closeFrom, search]
      split
      · rw [ih, map_map_add]
      · split
        · split
          · rfl
          · rw [ih, map_map_add]
        · rw [ih, map_map_add]

/-- The search that starts at an opening delimiter stops at the first character up to which as many
    delimiters are closed as opened. -/
theorem closeIndex_isFirst (hne : opener ≠ closer) (text : List Char) :
    IsFirst (EvenAt opener closer 0 (opener :: text)) (closeIndex opener closer (opener :: text)) := by
  rw [closeIndex_cons, closeFrom_eq_search]
  exact isFirst_opener hne (search_isFirst hne (Nat.succ_pos 0))

/-- Where nothing is enclosed, more delimiters are opened than closed in every text that starts with
    the opening one. -/
theorem count_lt_of_enclosed (hne : opener ≠ closer)
    (h : enclosed opener closer (opener :: text) = none) {part : List Char} (hpart : part ≠ [])
    (hfront : part <+: opener :: text) : part.count closer < part.count opener := by
  have hfirst : IsFirst (EvenAt opener closer 1 text) (search opener closer 1 text) :=
    search_isFirst hne (Nat.succ_pos 0)
  have hnone : search opener closer 1 text = none := by
    rw [enclosed, closeIndex_cons, closeFrom_eq_search] at h
    cases hfound : search opener closer 1 text with
    | none => rfl
    | some first => simp [hfound] at h
  rw [hnone] at hfirst
  obtain ⟨c, rest, rfl⟩ := List.exists_cons_of_ne_nil hpart
  obtain ⟨rfl, hrest⟩ := List.cons_prefix_cons.1 hfront
  have hlt := count_lt_of_isFirst_none (Nat.succ_pos 0) hfirst hrest
  rw [List.count_cons_of_ne hne, List.count_cons_self]
  omega

/-- As many delimiters are closed as opened in what is enclosed. -/
theorem count_eq_of_enclosed (hne : opener ≠ closer) {form : Enclosed}
    (h : enclosed opener closer (opener :: text) = some form) :
    form.inner.count opener = form.inner.count closer := by
  have hfirst : IsFirst (EvenAt opener closer 1 text) (search opener closer 1 text) :=
    search_isFirst hne (Nat.succ_pos 0)
  obtain ⟨hindex, htext⟩ := closeFrom_of_enclosed h
  have hlength : search opener closer 1 text = some form.inner.length := by
    rw [closeFrom_eq_search, Option.map_eq_some_iff] at hindex
    obtain ⟨found, hfound, hsum⟩ := hindex
    rw [hfound, Nat.add_left_cancel hsum]
  rw [hlength] at hfirst
  have heven := hfirst.1.2
  have htake : text.take (form.inner.length + 1) = form.inner ++ [closer] := by
    rw [htext, ← List.singleton_append, ← List.append_assoc]
    exact List.take_left' (by simp)
  rw [htake, List.count_append, List.count_append, List.count_singleton_self,
    List.count_singleton] at heven
  simp only [beq_iff_eq, hne.symm, if_false] at heven
  omega

theorem Balanced.count_eq (hne : opener ≠ closer) (h : Balanced opener closer text) :
    text.count opener = text.count closer :=
  count_eq_of_enclosed hne (enclosed_of_balanced [] hne.symm h)

/-- More text behind a form changes nothing in it. -/
theorem enclosed_append (more : List Char) {form : Enclosed}
    (h : enclosed opener closer (opener :: text) = some form) :
    enclosed opener closer (opener :: (text ++ more))
      = some ⟨form.inner, form.rest ++ more⟩ := by
  obtain ⟨hindex, htext⟩ := closeFrom_of_enclosed h
  rw [enclosed, closeIndex_cons, closeFrom_append more hindex, htext]
  simp [Nat.add_comm 1]

end Characters

end DefForms.Reader

namespace DefForms.Bytewise

/-! ## The search among bytes -/

section Bytes

variable {o c : UInt8}

/-- Where something is open, nothing is closed that is not open. -/
theorem closeByte_eq_search {count : Nat} (hcount : 0 < count) (index : Nat) (bytes : List UInt8) :
    closeByte o c index count bytes = .ok ((search o c count bytes).map (index + ·)) := by
  induction bytes generalizing index count with
  | nil => rfl
  | cons b rest ih =>
      rw [closeByte, search]
      split
      · rw [ih (Nat.succ_pos count), map_map_add]
      · split
        · rw [if_neg (by omega)]
          by_cases hone : count = 1
          · rw [if_pos hone, if_pos (by omega)]
            rfl
          · rw [if_neg hone, if_neg (by omega), ih (by omega), map_map_add]
        · rw [ih hcount, map_map_add]

theorem take_bytesIn {text : String} {start stop index : Nat} (h : start + index < stop) :
    (bytesIn text ⟨start, stop⟩).take (index + 1) = bytesIn text ⟨start, start + index + 1⟩ := by
  have hmin : min (start + (index + 1)) stop = start + index + 1 := by omega
  rw [bytesIn, bytesIn, List.take_drop, List.take_take, hmin]

/-- The search that starts at the byte `o` closes nothing that is not open, and it stops at the first
    byte of the span up to which there are as many bytes `c` as bytes `o`. -/
theorem closeByte_isFirst {text : String} {start stop : Nat} (hne : o ≠ c)
    (hbyte : (utf8Bytes text)[start]? = some o) (hstart : start < stop)
    (hstop : stop ≤ text.utf8ByteSize) :
    ∃ found, closeByte o c start 0 (bytesIn text ⟨start, stop⟩) = .ok found
      ∧ IsFirst (fun index => start ≤ index ∧ index < stop
        ∧ (bytesIn text ⟨start, index + 1⟩).count o
          = (bytesIn text ⟨start, index + 1⟩).count c) found := by
  have hfront : ((utf8Bytes text).take stop)[start]? = some o := by
    rw [List.getElem?_take, if_pos hstart, hbyte]
  obtain ⟨hlt, hget⟩ := List.getElem?_eq_some_iff.1 hfront
  obtain ⟨rest, hrest⟩ : ∃ rest, bytesIn text ⟨start, stop⟩ = o :: rest :=
    ⟨_, by rw [bytesIn, List.drop_eq_getElem_cons hlt, hget]⟩
  refine ⟨_, by rw [hrest, closeByte, if_pos rfl, closeByte_eq_search (Nat.succ_pos 0),
    ← map_map_add], ?_⟩
  refine (isFirst_opener hne (search_isFirst hne (Nat.succ_pos 0))).shift start ?_
    fun index hindex => hindex.1
  have hlength : (o :: rest).length = stop - start := by
    rw [← hrest, bytesIn, List.length_drop, List.length_take, ← utf8ByteSize_eq_length,
      Nat.min_eq_left hstop]
  intro index
  rw [EvenAt, hlength, ← hrest, Nat.zero_add]
  constructor
  · rintro ⟨-, hindex, heven⟩
    rw [take_bytesIn hindex]
    exact ⟨by omega, heven⟩
  · rintro ⟨hindex, heven⟩
    rw [take_bytesIn (by omega)] at heven
    exact ⟨Nat.le_add_right .., by omega, heven⟩

end Bytes

end DefForms.Bytewise
