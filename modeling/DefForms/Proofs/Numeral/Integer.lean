import DefForms.Numeral.Integer
import DefForms.Proofs.Numeral.Digits

set_option autoImplicit false

/-! # Reading integer literals

Numbers of either sign are read in the same way, digit by digit as long as the number that has been
read stays within a bound (`readWithin`). A further digit never makes this number smaller, so it was
within the bound all along if it is so at the end. Hence the literals that are read are those of the
integers that have room in 64 bits (`read_eq_ok_iff`), however many zeros stand in front. -/

namespace DefForms.Integer

variable {digits text : List Char} {value : Int}

/-- The text is a literal of the integer: digits, of which there is at least one, behind at most one
    sign. -/
inductive Denotes : List Char → Int → Prop where
  | unsigned {digits : List Char} (hne : digits ≠ []) (h : ∀ c ∈ digits, c.isDigit = true) :
      Denotes digits (digitsValue digits)
  | plus {digits : List Char} (hne : digits ≠ []) (h : ∀ c ∈ digits, c.isDigit = true) :
      Denotes ('+' :: digits) (digitsValue digits)
  | minus {digits : List Char} (hne : digits ≠ []) (h : ∀ c ∈ digits, c.isDigit = true) :
      Denotes ('-' :: digits) (-(digitsValue digits : Int))

/-! ## Digits behind a sign -/

/-- Read digits behind others that stand for `start`, as long as the number is within the bound. -/
def readWithin (bound : Nat) (sign : Int) (fault : IntegerFault) (start : Nat) :
    List Char → Except IntegerFault Int
  | [] => .ok (sign * start)
  | c :: rest =>
    if c.isDigit then
      if start * 10 + digitValue c ≤ bound then
        readWithin bound sign fault (start * 10 + digitValue c) rest
      else .error fault
    else .error .invalidDigit

theorem readUp_eq (start : Nat) (text : List Char) :
    readUp start text = readWithin greatest.natAbs 1 .tooLarge start text := by
  induction text generalizing start with
  | nil => rw [readUp, readWithin, Int.one_mul]
  | cons c rest ih =>
      have hnext : (start : Int) * 10 + digitValue c = (start * 10 + digitValue c : Nat) := by omega
      have hfits : ((start * 10 + digitValue c : Nat) : Int) ≤ greatest
          ↔ start * 10 + digitValue c ≤ greatest.natAbs := by
        unfold greatest
        omega
      simp only [readUp, readWithin, hnext, hfits, ih]

theorem readDown_eq (start : Nat) (text : List Char) :
    readDown (-start) text = readWithin least.natAbs (-1) .tooSmall start text := by
  induction text generalizing start with
  | nil => rw [readDown, readWithin, Int.neg_one_mul]
  | cons c rest ih =>
      have hnext : -(start : Int) * 10 - digitValue c = -(start * 10 + digitValue c : Nat) := by
        omega
      have hfits : least ≤ -((start * 10 + digitValue c : Nat) : Int)
          ↔ start * 10 + digitValue c ≤ least.natAbs := by
        unfold least
        omega
      simp only [readDown, readWithin, hnext, hfits, ih]

section Within

variable {bound start : Nat} {sign : Int} {fault : IntegerFault}

/-- Digits that follow a number move it to the left. -/
theorem readWithin_digits (hstart : start ≤ bound) (h : ∀ c ∈ digits, c.isDigit = true) :
    readWithin bound sign fault start digits =
      if start * Nat.pow 10 digits.length + digitsValue digits ≤ bound then
        .ok (sign * (start * Nat.pow 10 digits.length + digitsValue digits : Nat))
      else .error fault := by
  induction digits generalizing start with
  | nil =>
      have hnil : start * Nat.pow 10 ([] : List Char).length + digitsValue [] = start :=
        Nat.mul_one start
      rw [hnil, if_pos hstart, readWithin]
  | cons c rest ih =>
      obtain ⟨hc, hrest⟩ := List.forall_mem_cons.1 h
      have hmore : start * Nat.pow 10 (c :: rest).length + digitsValue (c :: rest)
          = (start * 10 + digitValue c) * Nat.pow 10 rest.length + digitsValue rest := by
        have hpow : Nat.pow 10 (c :: rest).length = 10 * Nat.pow 10 rest.length :=
          Nat.mul_comm _ _
        rw [digitsValue_cons, hpow, Nat.add_mul, Nat.mul_assoc, Nat.add_assoc]
      rw [hmore, readWithin, if_pos hc]
      by_cases hfits : start * 10 + digitValue c ≤ bound
      · rw [if_pos hfits, ih hfits hrest]
      · have hle : (start * 10 + digitValue c) * 1
            ≤ (start * 10 + digitValue c) * Nat.pow 10 rest.length :=
          Nat.mul_le_mul_left _ (Nat.pow_pos (by decide))
        rw [if_neg hfits, if_neg (by omega)]

/-- Nothing but digits is read. -/
theorem isDigit_of_readWithin (h : readWithin bound sign fault start text = .ok value) :
    ∀ c ∈ text, c.isDigit = true := by
  induction text generalizing start with
  | nil => simp
  | cons c rest ih =>
      rw [readWithin] at h
      split at h
      · next hc =>
          split at h
          · exact List.forall_mem_cons.2 ⟨hc, ih h⟩
          · simp at h
      · simp at h

theorem readWithin_eq_ok_iff :
    readWithin bound sign fault 0 text = .ok value ↔
      (∀ c ∈ text, c.isDigit = true) ∧ digitsValue text ≤ bound
        ∧ value = sign * (digitsValue text : Int) := by
  have hread : ∀ (_ : ∀ c ∈ text, c.isDigit = true), readWithin bound sign fault 0 text =
      if digitsValue text ≤ bound then .ok (sign * (digitsValue text : Int))
      else .error fault := by
    intro h
    rw [readWithin_digits (Nat.zero_le bound) h, Nat.zero_mul, Nat.zero_add]
  constructor
  · intro h
    have hdigits := isDigit_of_readWithin h
    rw [hread hdigits] at h
    split at h
    · next hfits => exact ⟨hdigits, hfits, (Except.ok.inj h).symm⟩
    · simp at h
  · rintro ⟨hdigits, hfits, rfl⟩
    rw [hread hdigits, if_pos hfits]

end Within

/-! ## Literals -/

theorem readUp_zero_eq_ok_iff :
    readUp 0 text = .ok value ↔
      (∀ c ∈ text, c.isDigit = true) ∧ value = digitsValue text ∧ value ≤ greatest := by
  rw [← Int.natCast_zero, readUp_eq, readWithin_eq_ok_iff, Int.one_mul]
  refine and_congr_right fun _ => ?_
  unfold greatest
  omega

theorem readDown_zero_eq_ok_iff :
    readDown 0 text = .ok value ↔
      (∀ c ∈ text, c.isDigit = true) ∧ value = -(digitsValue text : Int) ∧ least ≤ value := by
  have hzero : (0 : Int) = -((0 : Nat) : Int) := rfl
  rw [hzero, readDown_eq, readWithin_eq_ok_iff, Int.neg_one_mul]
  refine and_congr_right fun _ => ?_
  unfold least
  omega

theorem read_plus (hne : digits ≠ []) : read ('+' :: digits) = readUp 0 digits := by
  cases digits with
  | nil => exact absurd rfl hne
  | cons c rest => rfl

theorem read_minus (hne : digits ≠ []) : read ('-' :: digits) = readDown 0 digits := by
  cases digits with
  | nil => exact absurd rfl hne
  | cons c rest => rfl

theorem read_unsigned (hne : digits ≠ []) (h : ∀ c ∈ digits, c.isDigit = true) :
    read digits = readUp 0 digits := by
  cases digits with
  | nil => exact absurd rfl hne
  | cons c rest =>
      obtain ⟨hplus, hminus⟩ := ne_sign_of_isDigit (h c List.mem_cons_self)
      simp [read, hplus, hminus]

theorem read_digits (hne : digits ≠ []) (h : ∀ c ∈ digits, c.isDigit = true) :
    read digits =
      if (digitsValue digits : Int) ≤ greatest then .ok (digitsValue digits)
      else .error .tooLarge := by
  have hfits : digitsValue digits ≤ greatest.natAbs ↔ (digitsValue digits : Int) ≤ greatest := by
    unfold greatest
    omega
  rw [read_unsigned hne h, ← Int.natCast_zero, readUp_eq, readWithin_digits (Nat.zero_le _) h,
    Nat.zero_mul, Nat.zero_add, Int.one_mul]
  simp only [hfits]

/-- The literals that are read are those of the integers of 64 bits. -/
theorem read_eq_ok_iff :
    read text = .ok value ↔ Denotes text value ∧ least ≤ value ∧ value ≤ greatest := by
  have hleast : least ≤ 0 := by decide
  have hgreatest : 0 ≤ greatest := by decide
  constructor
  · intro h
    unfold read at h
    split at h
    · simp at h
    · simp at h
    · simp at h
    · next digits hne =>
        obtain ⟨hdigits, rfl, hfits⟩ := readUp_zero_eq_ok_iff.1 h
        exact ⟨.plus hne hdigits, by omega, hfits⟩
    · next digits hne =>
        obtain ⟨hdigits, rfl, hfits⟩ := readDown_zero_eq_ok_iff.1 h
        exact ⟨.minus hne hdigits, hfits, by omega⟩
    · next hne _ _ _ _ =>
        obtain ⟨hdigits, rfl, hfits⟩ := readUp_zero_eq_ok_iff.1 h
        exact ⟨.unsigned hne hdigits, by omega, hfits⟩
  · rintro ⟨hdenotes, hlow, hhigh⟩
    cases hdenotes with
    | unsigned hne hdigits =>
        rw [read_unsigned hne hdigits]
        exact readUp_zero_eq_ok_iff.2 ⟨hdigits, rfl, hhigh⟩
    | plus hne hdigits =>
        rw [read_plus hne]
        exact readUp_zero_eq_ok_iff.2 ⟨hdigits, rfl, hhigh⟩
    | minus hne hdigits =>
        rw [read_minus hne]
        exact readDown_zero_eq_ok_iff.2 ⟨hdigits, rfl, hlow⟩

end DefForms.Integer
