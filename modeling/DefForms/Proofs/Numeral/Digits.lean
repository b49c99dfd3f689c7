import DefForms.Numeral.Digits

set_option autoImplicit false

/-! # The value of decimal digits

The place of a digit is the count of the digits behind it. Zeros in front do not count, and without
them the value is at least that of a one in the first place (`le_digitsValue`). -/

namespace DefForms

variable {digits : List Char}

theorem digitValue_le {c : Char} (h : c.isDigit = true) : digitValue c ≤ 9 := by
  rw [Char.isDigit_iff_toNat] at h
  have hzero : '0'.toNat = 48 := rfl
  have hnine : '9'.toNat = 57 := rfl
  unfold digitValue
  omega

theorem digitValue_pos {c : Char} (h : c.isDigit = true) (hzero : c ≠ '0') : 1 ≤ digitValue c := by
  rw [Char.isDigit_iff_toNat] at h
  have hne : c.toNat ≠ '0'.toNat := fun heq => hzero (Char.toNat_inj.1 heq)
  have hnat : '0'.toNat = 48 := rfl
  unfold digitValue
  omega

theorem ne_sign_of_isDigit {c : Char} (h : c.isDigit = true) : c ≠ '+' ∧ c ≠ '-' := by
  constructor
  · rintro rfl
    exact absurd h (by decide)
  · rintro rfl
    exact absurd h (by decide)

theorem digitsValue_cons (c : Char) (rest : List Char) :
    digitsValue (c :: rest) = digitValue c * Nat.pow 10 rest.length + digitsValue rest := by
  rw [digitsValue, Nat.ofDigitChars_cons, Nat.mul_zero, Nat.zero_add,
    Nat.ofDigitChars_eq_ofDigitChars_zero, Nat.mul_comm]
  rfl

theorem digitsValue_lt (h : ∀ c ∈ digits, c.isDigit = true) :
    digitsValue digits < Nat.pow 10 digits.length := by
  induction digits with
  | nil => decide
  | cons c rest ih =>
      obtain ⟨hc, hrest⟩ := List.forall_mem_cons.1 h
      have hle : digitValue c * Nat.pow 10 rest.length ≤ 9 * Nat.pow 10 rest.length :=
        Nat.mul_le_mul_right _ (digitValue_le hc)
      have hpow : Nat.pow 10 (c :: rest).length = Nat.pow 10 rest.length * 10 := rfl
      have hlt := ih hrest
      rw [digitsValue_cons, hpow]
      omega

/-- The digit in the first place is not a zero. -/
theorem le_digitsValue {c : Char} {rest : List Char} (hc : c.isDigit = true) (hzero : c ≠ '0') :
    Nat.pow 10 rest.length ≤ digitsValue (c :: rest) := by
  have hle : 1 * Nat.pow 10 rest.length ≤ digitValue c * Nat.pow 10 rest.length :=
    Nat.mul_le_mul_right _ (digitValue_pos hc hzero)
  rw [digitsValue_cons]
  omega

theorem digitsValue_dropWhile_zero (digits : List Char) :
    digitsValue (digits.dropWhile (· == '0')) = digitsValue digits := by
  induction digits with
  | nil => rfl
  | cons c rest ih =>
      by_cases hc : c = '0'
      · have hvalue : digitValue '0' = 0 := rfl
        rw [hc, List.dropWhile_cons_of_pos (by decide), ih, digitsValue_cons, hvalue, Nat.zero_mul,
          Nat.zero_add]
      · rw [List.dropWhile_cons_of_neg (by simpa using hc)]

end DefForms
