import DefForms.Json.Parser
import DefForms.Proofs.Text.Run

set_option autoImplicit false

/-! # Literals in front of other text

The scanners of JSON literals stop as soon as a literal is complete. A string ends at its quote. A
number ends where nothing that could go on with it follows (`NumberEnds`), so what stands behind it
decides whether it is read whole. Each scanner has one lemma that says it reads the same in front of
more text; `scanString_append` and `scanNumber_append` are the two that reading values needs.

The texts that `JsonText.encode` and `Nat.toDigits` write are literals. -/

namespace DefForms.Json

/-- No number goes on with this text. -/
def NumberEnds (text : List Char) : Prop :=
  ∀ c ∈ text.head?, c.isDigit = false ∧ c ≠ '.' ∧ c ≠ 'e' ∧ c ≠ 'E'

theorem numberEnds_nil : NumberEnds [] := by
  intro c hc
  simp at hc

theorem numberEnds_cons {c : Char} (hdigit : c.isDigit = false)
    (hc : c ≠ '.' ∧ c ≠ 'e' ∧ c ≠ 'E') (text : List Char) : NumberEnds (c :: text) := by
  intro first hfirst
  obtain rfl := Option.some.inj hfirst
  exact ⟨hdigit, hc⟩

theorem withFront_eq_some {front literal text : List Char}
    {scanned : Option (List Char × List Char)}
    (h : withFront front scanned = some (literal, text)) :
    ∃ inner, scanned = some (inner, text) ∧ literal = front ++ inner := by
  cases scanned with
  | none => simp [withFront] at h
  | some found =>
      obtain ⟨inner, rest⟩ := found
      simp only [withFront, Option.some.injEq, Prod.mk.injEq] at h
      obtain ⟨rfl, rfl⟩ := h
      exact ⟨inner, rfl, rfl⟩

/-! ## Numbers -/

section Numbers

variable {text literal left : List Char}

/-- A run of digits that is followed by something else is read whole. -/
theorem scanDigits_run {digits more : List Char} (hne : digits ≠ [])
    (hdigits : ∀ c ∈ digits, c.isDigit = true)
    (hmore : ∀ c ∈ more.head?, c.isDigit = false) :
    scanDigits (digits ++ more) = some (digits, more) := by
  unfold scanDigits
  rw [takeWhile_run hdigits hmore, dropWhile_run hdigits hmore]
  obtain ⟨first, rest, rfl⟩ := List.exists_cons_of_ne_nil hne
  rfl

/-- What is read of digits is a run of them, and something else follows. -/
theorem eq_of_scanDigits (h : scanDigits text = some (literal, left)) :
    text = literal ++ left ∧ literal ≠ [] ∧ (∀ c ∈ literal, c.isDigit = true)
      ∧ ∀ c ∈ left.head?, c.isDigit = false := by
  unfold scanDigits at h
  split at h
  · simp at h
  · next digit more hrun =>
      rw [← hrun] at h
      obtain ⟨rfl, rfl⟩ := Prod.mk.inj (Option.some.inj h)
      exact ⟨List.takeWhile_append_dropWhile.symm, by simp [hrun], fun c hc => mem_takeWhile hc,
        fun c hc => head?_dropWhile hc⟩

variable {more : List Char}

theorem scanDigits_append (h : scanDigits text = some (literal, left))
    (hmore : left = [] → NumberEnds more) :
    scanDigits (text ++ more) = some (literal, left ++ more) := by
  obtain ⟨rfl, hne, hdigits, hleft⟩ := eq_of_scanDigits h
  rw [List.append_assoc]
  apply scanDigits_run hne hdigits
  intro c hc
  cases left with
  | nil => exact (hmore rfl c hc).1
  | cons first rest => exact hleft c hc

theorem scanWhole_append (h : scanWhole text = some (literal, left))
    (hmore : left = [] → NumberEnds more) :
    scanWhole (text ++ more) = some (literal, left ++ more) := by
  unfold scanWhole at h
  split at h
  · next rest =>
      obtain ⟨rfl, rfl⟩ := Prod.mk.inj (Option.some.inj h)
      rfl
  · next hzero =>
      cases text with
      | nil => simp [scanDigits] at h
      | cons c rest =>
          rw [List.cons_append, scanWhole, ← List.cons_append]
          · exact scanDigits_append h hmore
          · intro tail htail
            obtain ⟨rfl, -⟩ := List.cons.inj htail
            exact hzero rest rfl

theorem scanFraction_append (h : scanFraction text = some (literal, left))
    (hmore : left = [] → NumberEnds more) :
    scanFraction (text ++ more) = some (literal, left ++ more) := by
  unfold scanFraction at h
  split at h
  · next rest =>
      obtain ⟨inner, hinner, rfl⟩ := withFront_eq_some h
      rw [List.cons_append, scanFraction, scanDigits_append hinner hmore]
      rfl
  · next hpoint =>
      obtain ⟨rfl, rfl⟩ := Prod.mk.inj (Option.some.inj h)
      rw [scanFraction]
      intro rest hrest
      cases text with
      | nil =>
          rw [List.nil_append] at hrest
          exact (hmore rfl '.' (by rw [hrest]; rfl)).2.1 rfl
      | cons c tail =>
          obtain ⟨rfl, -⟩ := List.cons.inj hrest
          exact hpoint tail rfl

theorem scanExponent_of_ne {c : Char} (hc : ¬(c = 'e' ∨ c = 'E')) (rest : List Char) :
    scanExponent (c :: rest) = some ([], c :: rest) := by
  unfold scanExponent
  split
  · next heq =>
      obtain ⟨rfl, rfl⟩ := List.cons.inj heq
      rw [if_neg hc]
  · next heq =>
      obtain ⟨rfl, rfl⟩ := List.cons.inj heq
      rw [if_neg hc]
  · next heq =>
      obtain ⟨rfl, rfl⟩ := List.cons.inj heq
      rw [if_neg hc]
  · next heq => simp at heq

theorem scanExponent_append (h : scanExponent text = some (literal, left))
    (hmore : left = [] → NumberEnds more) :
    scanExponent (text ++ more) = some (literal, left ++ more) := by
  cases text with
  | nil =>
      obtain ⟨rfl, rfl⟩ := Prod.mk.inj (Option.some.inj h)
      cases more with
      | nil => rfl
      | cons c rest =>
          obtain ⟨-, -, he, hE⟩ := hmore rfl c rfl
          apply scanExponent_of_ne
          simp [he, hE]
  | cons mark rest =>
      by_cases hmark : mark = 'e' ∨ mark = 'E'
      · unfold scanExponent at h
        split at h
        · next heq =>
            obtain ⟨rfl, rfl⟩ := List.cons.inj heq
            rw [if_pos hmark] at h
            obtain ⟨inner, hinner, rfl⟩ := withFront_eq_some h
            rw [List.cons_append, List.cons_append, scanExponent, if_pos hmark,
              scanDigits_append hinner hmore]
            rfl
        · next heq =>
            obtain ⟨rfl, rfl⟩ := List.cons.inj heq
            rw [if_pos hmark] at h
            obtain ⟨inner, hinner, rfl⟩ := withFront_eq_some h
            rw [List.cons_append, List.cons_append, scanExponent, if_pos hmark,
              scanDigits_append hinner hmore]
            rfl
        · next heq =>
            obtain ⟨rfl, rfl⟩ := List.cons.inj heq
            rw [if_pos hmark] at h
            obtain ⟨inner, hinner, rfl⟩ := withFront_eq_some h
            -- Digits were read behind the mark, so no sign stands there.
            obtain ⟨rfl, hne, hdigits, -⟩ := eq_of_scanDigits hinner
            obtain ⟨digit, digits, rfl⟩ := List.exists_cons_of_ne_nil hne
            have hdigit : digit.isDigit = true := hdigits digit List.mem_cons_self
            have hstart : ∀ c tail, digit :: digits ++ left ++ more = c :: tail →
                c.isDigit = true := by
              intro c tail heq
              rwa [← (List.cons.inj heq).1]
            rw [List.cons_append, scanExponent, if_pos hmark, scanDigits_append hinner hmore]
            · rfl
            · intro tail htail
              exact absurd (hstart '+' tail htail) (by decide)
            · intro tail htail
              exact absurd (hstart '-' tail htail) (by decide)
        · next heq => simp at heq
      · rw [scanExponent_of_ne hmark] at h
        obtain ⟨rfl, rfl⟩ := Prod.mk.inj (Option.some.inj h)
        exact scanExponent_of_ne hmark (rest ++ more)

theorem scanUnsigned_append (h : scanUnsigned text = some (literal, left))
    (hmore : left = [] → NumberEnds more) :
    scanUnsigned (text ++ more) = some (literal, left ++ more) := by
  unfold scanUnsigned at h
  split at h
  · simp at h
  · next whole behindWhole hwhole =>
      split at h
      · simp at h
      · next fraction behindFraction hfraction =>
          obtain ⟨exponent, hexponent, rfl⟩ := withFront_eq_some h
          -- Where a part uses up the text, the parts behind it are empty.
          have hbehindFraction : behindFraction = [] → NumberEnds more := by
            rintro rfl
            obtain ⟨rfl, rfl⟩ := Prod.mk.inj (Option.some.inj hexponent)
            exact hmore rfl
          have hbehindWhole : behindWhole = [] → NumberEnds more := by
            rintro rfl
            obtain ⟨rfl, rfl⟩ := Prod.mk.inj (Option.some.inj hfraction)
            exact hbehindFraction rfl
          unfold scanUnsigned
          simp only [scanWhole_append hwhole hbehindWhole,
            scanFraction_append hfraction hbehindFraction, scanExponent_append hexponent hmore]
          rfl

/-- A number is read the same in front of more text, unless it could go on there. -/
theorem scanNumber_append (h : scanNumber text = some (literal, left))
    (hmore : left = [] → NumberEnds more) :
    scanNumber (text ++ more) = some (literal, left ++ more) := by
  unfold scanNumber at h
  split at h
  · next rest =>
      obtain ⟨inner, hinner, rfl⟩ := withFront_eq_some h
      rw [List.cons_append, scanNumber, scanUnsigned_append hinner hmore]
      rfl
  · next hminus =>
      cases text with
      | nil => simp [scanUnsigned, scanWhole, scanDigits] at h
      | cons c rest =>
          rw [List.cons_append, scanNumber, ← List.cons_append]
          · exact scanUnsigned_append h hmore
          · intro tail htail
            obtain ⟨rfl, -⟩ := List.cons.inj htail
            exact hminus rest rfl

/-- A number starts with a digit or with its sign. -/
theorem scanNumber_start (h : scanNumber text = some (literal, left)) :
    ∃ first rest, text = first :: rest ∧ (first.isDigit = true ∨ first = '-') := by
  cases text with
  | nil => simp [scanNumber, scanUnsigned, scanWhole, scanDigits] at h
  | cons first rest =>
      refine ⟨first, rest, rfl, ?_⟩
      by_cases hminus : first = '-'
      · exact Or.inr hminus
      · cases hdigit : first.isDigit with
        | true => exact Or.inl rfl
        | false =>
            have hzero : first ≠ '0' := by
              rintro rfl
              simp at hdigit
            simp [scanNumber, scanUnsigned, scanWhole, scanDigits, hminus, hzero, hdigit] at h

/-- No zero stands in front of the digits of a positive number. -/
theorem toDigits_start {n : Nat} (hn : 0 < n) :
    ∃ first rest, Nat.toDigits 10 n = first :: rest ∧ first ≠ '0' := by
  induction n using Nat.strongRecOn with
  | ind n ih =>
      by_cases hsmall : n < 10
      · have hdigit : ∀ k < 10, 0 < k → Nat.digitChar k ≠ '0' := by decide
        exact ⟨Nat.digitChar n, [], Nat.toDigits_of_lt_base hsmall, hdigit n hsmall hn⟩
      · obtain ⟨first, rest, hrest, hfirst⟩ := ih (n / 10) (by omega) (by omega)
        rw [Nat.toDigits_of_base_le (by decide) (by omega), hrest]
        exact ⟨first, _, rfl, hfirst⟩

/-- The decimal digits of a number are a literal. -/
theorem scanNumber_toDigits (n : Nat) :
    scanNumber (Nat.toDigits 10 n) = some (Nat.toDigits 10 n, []) := by
  have hdigits : ∀ c ∈ Nat.toDigits 10 n, c.isDigit = true :=
    fun c hc => Nat.isDigit_of_mem_toDigits (by decide) (by decide) hc
  have hscan : scanDigits (Nat.toDigits 10 n) = some (Nat.toDigits 10 n, []) := by
    have hrun : scanDigits (Nat.toDigits 10 n ++ []) = some (Nat.toDigits 10 n, []) :=
      scanDigits_run Nat.toDigits_ne_nil hdigits (by simp)
    rwa [List.append_nil] at hrun
  by_cases hn : n = 0
  · rw [hn]
    rfl
  · obtain ⟨first, rest, hstart, hfirst⟩ := toDigits_start (Nat.pos_of_ne_zero hn)
    rw [hstart] at hscan hdigits ⊢
    have hminus : first ≠ '-' := by
      rintro rfl
      simpa using hdigits '-' List.mem_cons_self
    have hwhole : scanWhole (first :: rest) = some (first :: rest, []) := by
      rw [scanWhole]
      · exact hscan
      · intro tail htail
        exact hfirst (List.cons.inj htail).1
    rw [scanNumber]
    · simp [scanUnsigned, hwhole, scanFraction, scanExponent, withFront]
    · intro tail htail
      exact hminus (List.cons.inj htail).1

end Numbers

/-! ## Strings -/

section Strings

variable {text literal left : List Char}

/-- A character that needs no escape stands for itself. -/
theorem scanString_plain {c : Char} (hquote : c ≠ '"') (hplain : ¬(c = '\\' ∨ c.toNat < 32))
    (rest : List Char) : scanString (c :: rest) = withFront [c] (scanString rest) := by
  have hbackslash : c ≠ '\\' := fun hc => hplain (Or.inl hc)
  rw [scanString, if_neg hplain]
  · exact hquote
  · intro _ _ _ _ _ hc _
    exact hbackslash hc
  · intro _ _ hc _
    exact hbackslash hc

/-- A string ends at its quote, whatever stands behind it. -/
theorem scanString_append (h : scanString text = some (literal, left)) (more : List Char) :
    scanString (text ++ more) = some (literal, left ++ more) := by
  fun_induction scanString text generalizing literal with
  | case1 => simp at h
  | case2 rest =>
      obtain ⟨rfl, rfl⟩ := Prod.mk.inj (Option.some.inj h)
      rfl
  | case3 a b c d rest unit hunit ih =>
      obtain ⟨inner, hinner, rfl⟩ := withFront_eq_some h
      simp only [List.cons_append, scanString, hunit, ih hinner]
      rfl
  | case4 => simp at h
  | case5 c rest hunicode plain hplain ih =>
      obtain ⟨inner, hinner, rfl⟩ := withFront_eq_some h
      have hc : c ≠ 'u' := by
        rintro rfl
        simp [JsonText.shortEscape?] at hplain
      rw [List.cons_append, List.cons_append, scanString, hplain]
      · simp only [ih hinner]
        rfl
      · intro _ _ _ _ _ hu _
        exact hc hu
  | case6 => simp at h
  | case7 => simp at h
  | case8 c rest hquote hunicode hescape hplain ih =>
      obtain ⟨inner, hinner, rfl⟩ := withFront_eq_some h
      rw [List.cons_append, scanString_plain hquote hplain, ih hinner]
      rfl

theorem scanString_encodeChar_append (c : Char) (rest : List Char) :
    scanString (JsonText.encodeChar c ++ rest)
      = withFront (JsonText.encodeChar c) (scanString rest) := by
  unfold JsonText.encodeChar
  split
  case h_8 _ hquote hbackslash _ _ _ _ _ =>
    by_cases hcontrol : c.toNat < 32
    · have hunit : ∀ n < 32, JsonText.hexUnit? '0' '0' (Nat.digitChar (n / 16))
          (Nat.digitChar (n % 16)) = some n := by decide
      rw [if_pos hcontrol]
      simp only [List.cons_append, List.nil_append, scanString, hunit c.toNat hcontrol]
    · rw [if_neg hcontrol]
      apply scanString_plain hquote
      rintro (hc | hc)
      · exact hbackslash hc
      · exact hcontrol hc
  all_goals rfl

/-- The inside of a string that was written is read whole. -/
theorem scanString_encode (content rest : List Char) :
    scanString (JsonText.encode content ++ '"' :: rest) = some (JsonText.encode content, rest) := by
  induction content with
  | nil => rfl
  | cons c content ih =>
      rw [JsonText.encode, List.flatMap_cons, List.append_assoc, scanString_encodeChar_append,
        ← JsonText.encode, ih]
      rfl

end Strings

end DefForms.Json
