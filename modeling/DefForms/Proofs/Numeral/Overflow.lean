import DefForms.Numeral.Shortest
import DefForms.Proofs.Numeral.Digits
import DefForms.Proofs.Text.Run

set_option autoImplicit false

/-! # Numbers that are too great

The greatest finite number of the format is `(2 ^ 53 - 1) * 2 ^ 971`. Numbers above it are rounded
to it as long as they are below `Binary64.overflow`, the middle between it and `2 ^ 1024`. The
middle itself and what lies beyond become infinite: of its two neighbours the one with the even
significand is the one that has no room (`Binary64.isFinite_ofRatio_iff`, and
`Decimal.isFinite_toBinary64_iff` for decimals). -/

namespace DefForms

namespace Binary64

/-- The number is neither infinite nor what is not a number. -/
def isFinite : Binary64 → Bool
  | .finite _ _ _ => true
  | .infinite _ => false
  | .nan => false

/-- The least number that becomes infinite, `(2 ^ 54 - 1) * 2 ^ 970`. -/
def overflow : Nat := 18014398509481983 * Nat.pow 2 970

theorem isSome_write? (value : Binary64) : value.write?.isSome = value.isFinite := by
  cases value <;> rfl

/-! ## Rounding a quotient -/

/-- A quotient is rounded to an even number or beyond if it is at least half below it. -/
theorem le_roundQuotient_iff {num den bound : Nat} (hden : 0 < den) (hbound : bound % 2 = 0) :
    bound ≤ roundQuotient num den ↔ 2 * (bound * den) ≤ 2 * num + den := by
  have hsplit := Nat.div_add_mod num den
  have hmod := Nat.mod_lt num hden
  rw [Nat.mul_comm] at hsplit
  unfold roundQuotient
  generalize num / den = whole at hsplit ⊢
  generalize num % den = part at hsplit hmod ⊢
  simp only
  rcases Nat.lt_trichotomy bound (whole + 1) with hbelow | rfl | habove
  · have hmul : bound * den ≤ whole * den := Nat.mul_le_mul_right den (by omega)
    split
    · omega
    · split <;> omega
  · rw [Nat.add_mul, Nat.one_mul]
    split
    · omega
    · split <;> omega
  · have hmul : (whole + 2) * den ≤ bound * den := Nat.mul_le_mul_right den (by omega)
    rw [Nat.add_mul] at hmul
    split
    · omega
    · split <;> omega

theorem roundQuotient_le {num den bound : Nat} (hden : 0 < den) (hbound : num ≤ bound * den) :
    roundQuotient num den ≤ bound := by
  have hsplit := Nat.div_add_mod num den
  rw [Nat.mul_comm] at hsplit
  unfold roundQuotient
  generalize num / den = whole at hsplit ⊢
  generalize num % den = part at hsplit ⊢
  simp only
  rcases Nat.lt_trichotomy whole bound with hbelow | rfl | habove
  · split
    · omega
    · split <;> omega
  · exact Nat.le_of_eq (if_pos (by omega))
  · have hmul : (bound + 1) * den ≤ whole * den := Nat.mul_le_mul_right den habove
    rw [Nat.add_mul] at hmul
    omega

/-! ## The power of two below a quotient -/

theorem scale_natCast (num den k : Nat) : scale num den k = (num, den * Nat.pow 2 k) := by
  have hneg : (-(k : Int)).toNat = 0 := by omega
  rw [scale, hneg, Int.toNat_natCast]
  exact Prod.ext (Nat.mul_one num) rfl

/-- The power that is found is the greatest one that is not above the quotient. -/
theorem le_floorLog2_iff {num den : Nat} (hnum : 0 < num) (hden : 0 < den) (k : Nat) :
    (k : Int) ≤ floorLog2 num den ↔ den * Nat.pow 2 k ≤ num := by
  have hnumLow : Nat.pow 2 num.log2 ≤ num := Nat.log2_self_le (Nat.ne_of_gt hnum)
  have hnumHigh : num < Nat.pow 2 (num.log2 + 1) := Nat.lt_log2_self
  have hdenLow : Nat.pow 2 den.log2 ≤ den := Nat.log2_self_le (Nat.ne_of_gt hden)
  have hdenHigh : den < Nat.pow 2 (den.log2 + 1) := Nat.lt_log2_self
  -- What the two logarithms say alone: the power of the guess may be one too great.
  have hbelow : den.log2 + k + 1 ≤ num.log2 → den * Nat.pow 2 k ≤ num := by
    intro hk
    calc
      den * Nat.pow 2 k ≤ Nat.pow 2 (den.log2 + 1) * Nat.pow 2 k :=
        Nat.mul_le_mul_right _ (Nat.le_of_lt hdenHigh)
      _ = Nat.pow 2 (den.log2 + 1 + k) := (Nat.pow_add 2 _ _).symm
      _ ≤ Nat.pow 2 num.log2 := Nat.pow_le_pow_right (by decide) (by omega)
      _ ≤ num := hnumLow
  have habove : den * Nat.pow 2 k ≤ num → den.log2 + k ≤ num.log2 := by
    intro hk
    have hlt : Nat.pow 2 (den.log2 + k) < Nat.pow 2 (num.log2 + 1) := by
      calc
        Nat.pow 2 (den.log2 + k) = Nat.pow 2 den.log2 * Nat.pow 2 k := Nat.pow_add 2 _ _
        _ ≤ den * Nat.pow 2 k := Nat.mul_le_mul_right _ hdenLow
        _ ≤ num := hk
        _ < Nat.pow 2 (num.log2 + 1) := hnumHigh
    have hexponent := (Nat.pow_lt_pow_iff_right (by decide)).1 hlt
    omega
  unfold floorLog2
  simp only
  split
  · next hreach =>
      constructor
      · intro hk
        have hguess : (num.log2 : Int) - den.log2 = (num.log2 - den.log2 : Nat) := by omega
        rw [hguess, scale_natCast] at hreach
        calc
          den * Nat.pow 2 k ≤ den * Nat.pow 2 (num.log2 - den.log2) :=
            Nat.mul_le_mul_left den (Nat.pow_le_pow_right (by decide) (by omega))
          _ ≤ num := hreach
      · intro hk
        have hexponent := habove hk
        omega
  · next hmiss =>
      constructor
      · intro hk
        apply hbelow
        omega
      · intro hk
        have hexponent := habove hk
        by_cases hexact : num.log2 = den.log2 + k
        · have hguess : (num.log2 : Int) - den.log2 = k := by omega
          rw [hguess, scale_natCast] at hmiss
          exact absurd hk hmiss
        · omega

/-! ## Where the format ends -/

/-- The exponent of a positive quotient, before it is rounded. -/
def exponentOf (num den : Nat) : Int := max (floorLog2 num den - 52) leastExponent

/-- The significand of a positive quotient, which may have no room. -/
def significandOf (num den : Nat) : Nat :=
  roundQuotient (scale num den (exponentOf num den)).1 (scale num den (exponentOf num den)).2

theorem isFinite_of_exponent {negative : Bool} {significand : Nat} {exponent : Int} :
    (if greatestExponent < exponent then infinite negative
      else finite negative significand exponent).isFinite = true ↔ exponent ≤ greatestExponent := by
  split
  · next hgreat => exact iff_of_false (by simp [isFinite]) (Int.not_le.2 hgreat)
  · next hgreat => exact iff_of_true rfl (Int.not_lt.1 hgreat)

/-- A number is finite if its exponent, raised by one where the significand has no room, is that of
    a finite number. -/
theorem isFinite_ofRatio {negative : Bool} {num den : Nat} (hnum : num ≠ 0) :
    (ofRatio negative num den).isFinite = true ↔
      exponentOf num den + (if significandOf num den = significandBound then 1 else 0)
        ≤ greatestExponent := by
  rw [ofRatio, if_neg hnum]
  by_cases hroom : significandOf num den = significandBound
  · rw [if_pos hroom]
    unfold significandOf exponentOf at hroom
    simp only [if_pos hroom]
    exact isFinite_of_exponent
  · rw [if_neg hroom, Int.add_zero]
    unfold significandOf exponentOf at hroom
    simp only [if_neg hroom]
    exact isFinite_of_exponent

/-- A quotient stays finite if and only if it is below `overflow`. -/
theorem isFinite_ofRatio_iff {negative : Bool} {num den : Nat} (hden : 0 < den) :
    (ofRatio negative num den).isFinite = true ↔ num < overflow * den := by
  -- All bounds are multiples of one unit, in which the greatest finite number is `2 ^ 54 - 2`.
  have hpower : ∀ j, ∃ place, 0 < place ∧ place = Nat.pow 2 j
      ∧ ∀ k, Nat.pow 2 (k + j) = Nat.pow 2 k * place :=
    fun j => ⟨_, Nat.pow_pos Nat.two_pos, rfl, fun k => Nat.pow_add 2 k j⟩
  obtain ⟨place, hpos, hplace, hadd⟩ := hpower 970
  have hunit : 0 < place * den := Nat.mul_pos hpos hden
  have hoverflow : overflow * den = 18014398509481983 * (place * den) := by
    rw [overflow, ← hplace, Nat.mul_assoc]
  have hmultiple : ∀ k, den * Nat.pow 2 (k + 970) = Nat.pow 2 k * (place * den) := by
    intro k
    rw [hadd, Nat.mul_comm, Nat.mul_assoc]
  have hscale : ∀ k,
      scale num den ((k + 970 : Nat) : Int) = (num, Nat.pow 2 k * (place * den)) := by
    intro k
    rw [scale_natCast, hmultiple]
  generalize place * den = unit at hunit hoverflow hmultiple hscale
  rw [hoverflow]
  by_cases hnum : num = 0
  · rw [hnum]
    exact iff_of_true rfl (by omega)
  · have hreach : ∀ k, ((k + 970 : Nat) : Int) ≤ floorLog2 num den ↔ Nat.pow 2 k * unit ≤ num := by
      intro k
      rw [← hmultiple k]
      exact le_floorLog2_iff (Nat.pos_of_ne_zero hnum) hden (k + 970)
    have h53 : Nat.pow 2 53 = 9007199254740992 := by decide
    have h54 : Nat.pow 2 54 = 18014398509481984 := by decide
    have h1023 := hreach 53
    have h1024 := hreach 54
    rw [h53] at h1023
    rw [h54] at h1024
    rw [isFinite_ofRatio hnum]
    rcases Int.lt_trichotomy (floorLog2 num den) 1023 with hless | hlast | hgreater
    · have hexponent : exponentOf num den < greatestExponent := by
        unfold exponentOf leastExponent greatestExponent
        omega
      exact iff_of_true (by split <;> omega) (by omega)
    · have hexponent : exponentOf num den = ((1 + 970 : Nat) : Int) := by
        rw [exponentOf, hlast]
        rfl
      have hround : significandOf num den = roundQuotient num (2 * unit) := by
        rw [significandOf, hexponent, hscale 1]
      have hle : roundQuotient num (2 * unit) ≤ significandBound := by
        apply roundQuotient_le (by omega)
        unfold significandBound
        omega
      have hge : significandBound ≤ roundQuotient num (2 * unit)
          ↔ 2 * (significandBound * (2 * unit)) ≤ 2 * num + 2 * unit :=
        le_roundQuotient_iff (by omega) (by decide)
      unfold significandBound at hle hge
      rw [hexponent, hround]
      unfold significandBound greatestExponent
      split <;> omega
    · have hexponent : greatestExponent < exponentOf num den := by
        unfold exponentOf leastExponent greatestExponent
        omega
      exact iff_of_false (by split <;> omega) (by omega)

end Binary64

/-! ## Decimals -/

namespace Decimal

theorem overflow_pos : 0 < Binary64.overflow := by decide +kernel

theorem overflow_le {places : Nat} (h : 309 ≤ places) : Binary64.overflow ≤ Nat.pow 10 places :=
  Nat.le_trans (by decide +kernel) (Nat.pow_le_pow_right (by decide) h)

/-- A decimal stays finite if and only if it is below `overflow`. -/
theorem isFinite_toBinary64_iff {negative : Bool} {d : Decimal}
    (h : ∀ c ∈ d.digits, c.isDigit = true) :
    (d.toBinary64 negative).isFinite = true ↔
      digitsValue d.digits * Nat.pow 10 d.exponent.toNat
        < Binary64.overflow * Nat.pow 10 (-d.exponent).toNat := by
  have hden : ∀ k, 0 < Nat.pow 10 k := fun k => Nat.pow_pos (by decide)
  have hstripped : ∀ c ∈ d.digits.dropWhile (· == '0'), c.isDigit = true :=
    fun c hc => h c ((List.dropWhile_sublist _).subset hc)
  have hfirst : ∀ c ∈ (d.digits.dropWhile (· == '0')).head?, (c == '0') = false :=
    fun c hc => head?_dropWhile (p := (· == '0')) hc
  rw [← digitsValue_dropWhile_zero d.digits, toBinary64]
  generalize d.digits.dropWhile (· == '0') = digits at hstripped hfirst
  generalize d.exponent = exponent
  cases digits with
  | nil =>
      refine iff_of_true rfl ?_
      rw [digitsValue, Nat.ofDigitChars_nil, Nat.zero_mul]
      exact Nat.mul_pos overflow_pos (hden _)
  | cons c rest =>
      have hc : c.isDigit = true := hstripped c List.mem_cons_self
      have hzero : c ≠ '0' := by
        intro hc
        exact absurd (hfirst c rfl) (by simp [hc])
      simp only [List.isEmpty_cons, Bool.false_eq_true, if_false]
      split
      · next hgreat =>
          obtain ⟨places, hplaces, hmany⟩ : ∃ places,
              places + (-exponent).toNat = rest.length + exponent.toNat ∧ 309 ≤ places := by
            unfold greatestPlace at hgreat
            rw [List.length_cons] at hgreat
            exact ⟨rest.length + exponent.toNat - (-exponent).toNat, by omega, by omega⟩
          refine iff_of_false (by simp [Binary64.isFinite]) (Nat.not_lt.2 ?_)
          calc
            Binary64.overflow * Nat.pow 10 (-exponent).toNat
              ≤ Nat.pow 10 places * Nat.pow 10 (-exponent).toNat :=
              Nat.mul_le_mul_right _ (overflow_le hmany)
            _ = Nat.pow 10 (places + (-exponent).toNat) := (Nat.pow_add 10 _ _).symm
            _ = Nat.pow 10 (rest.length + exponent.toNat) := by rw [hplaces]
            _ = Nat.pow 10 rest.length * Nat.pow 10 exponent.toNat := Nat.pow_add 10 _ _
            _ ≤ digitsValue (c :: rest) * Nat.pow 10 exponent.toNat :=
              Nat.mul_le_mul_right _ (le_digitsValue hc hzero)
      · split
        · next hleast =>
            have hplaces : (c :: rest).length + exponent.toNat ≤ (-exponent).toNat := by
              unfold leastPlace at hleast
              omega
            refine iff_of_true rfl ?_
            calc
              digitsValue (c :: rest) * Nat.pow 10 exponent.toNat
                < Nat.pow 10 (c :: rest).length * Nat.pow 10 exponent.toNat :=
                Nat.mul_lt_mul_of_pos_right (digitsValue_lt hstripped) (hden _)
              _ = Nat.pow 10 ((c :: rest).length + exponent.toNat) := (Nat.pow_add 10 _ _).symm
              _ ≤ Nat.pow 10 (-exponent).toNat := Nat.pow_le_pow_right (by decide) hplaces
              _ ≤ Binary64.overflow * Nat.pow 10 (-exponent).toNat :=
                Nat.le_mul_of_pos_left _ overflow_pos
        · exact Binary64.isFinite_ofRatio_iff (hden _)

end Decimal

/-! ## Literals without a power of ten -/

section Point

variable {whole fraction : List Char} (hne : whole ≠ []) (hwhole : ∀ c ∈ whole, c.isDigit = true)
  (hfraction : ∀ c ∈ fraction, c.isDigit = true)

include hne hwhole hfraction

theorem Decimal.read_point :
    Decimal.read (whole ++ '.' :: fraction) = some ⟨whole ++ fraction, 0 - fraction.length⟩ := by
  have hpoint : ∀ c ∈ ('.' :: fraction).head?, c.isDigit = false := by
    intro c hc
    cases Option.some.inj hc
    decide
  have hend : ∀ c ∈ ([] : List Char).head?, c.isDigit = false := by simp
  have hempty : ¬(whole.isEmpty = true ∧ fraction.isEmpty = true) := by simp [hne]
  have htake := takeWhile_run hfraction hend
  have hdrop := dropWhile_run hfraction hend
  rw [List.append_nil] at htake hdrop
  simp only [Decimal.read, takeWhile_run hwhole hpoint, dropWhile_run hwhole hpoint, readFraction,
    htake, hdrop, if_neg hempty, readPower]

/-- The digits around the point are those of a natural number, of which the point makes a
    fraction. -/
theorem Binary64.read_point :
    ∃ value, Binary64.read (whole ++ '.' :: fraction) = .ok value
      ∧ (value.isFinite = true ↔
        digitsValue (whole ++ fraction) < overflow * Nat.pow 10 fraction.length) := by
  have hread := Decimal.read_point hne hwhole hfraction
  have hdigits : ∀ c ∈ whole ++ fraction, c.isDigit = true :=
    List.forall_mem_append.2 ⟨hwhole, hfraction⟩
  refine ⟨Decimal.toBinary64 false ⟨whole ++ fraction, 0 - fraction.length⟩, ?_, ?_⟩
  · cases whole with
    | nil => exact absurd rfl hne
    | cons c rest =>
        have hc : c.isDigit = true := hwhole c List.mem_cons_self
        obtain ⟨hplus, hminus⟩ := ne_sign_of_isDigit hc
        have hunsigned : Binary64.read (c :: rest ++ '.' :: fraction)
            = readUnsigned false (c :: rest ++ '.' :: fraction) := by
          simp [Binary64.read, hplus, hminus]
        rw [hunsigned, readUnsigned, hread]
  · have hexponent : (0 - (fraction.length : Int)).toNat = 0 := by omega
    have hplaces : (-(0 - (fraction.length : Int))).toNat = fraction.length := by omega
    rw [Decimal.isFinite_toBinary64_iff hdigits, hexponent, hplaces]
    exact iff_of_eq (congrArg (· < _) (Nat.mul_one _))

end Point

end DefForms
