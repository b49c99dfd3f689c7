set_option autoImplicit false

/-! # Floating-point numbers of 64 bits

A `Binary64` is a signed multiple of a power of two, an infinity, or not a number. All arithmetic on
them here is exact arithmetic on natural numbers: `ofRatio` rounds a quotient to the nearest number
of the format, and of two that are equally near to the one with the even significand. -/

namespace DefForms

/-- A number of the format. A finite one is `significand * 2 ^ exponent`, with the significand below
    `2 ^ 53` and the exponent at least `-1074`; unless the exponent is `-1074`, the significand is at
    least `2 ^ 52`. -/
inductive Binary64 where
  | finite (negative : Bool) (significand : Nat) (exponent : Int)
  | infinite (negative : Bool)
  | nan
deriving DecidableEq

namespace Binary64

/-- The exponent of the numbers nearest to zero. -/
def leastExponent : Int := -1074

/-- The exponent of the greatest finite numbers. -/
def greatestExponent : Int := 971

/-- `2 ^ 52`: the least significand of a number that is not among those nearest to zero. -/
def leastFullSignificand : Nat := 4503599627370496

/-- `2 ^ 53`: the first significand that has no room in 53 bits. -/
def significandBound : Nat := 9007199254740992

/-- The number zero, with a sign. -/
def zero (negative : Bool) : Binary64 := .finite negative 0 leastExponent

/-- The quotient of two numbers, rounded to the nearest number, a half to the even one. -/
def roundQuotient (num den : Nat) : Nat :=
  let whole := num / den
  let twice := 2 * (num % den)
  if twice < den then whole
  else if den < twice then whole + 1
  else whole + whole % 2

/-- Numerator and denominator of `num / (den * 2 ^ exponent)`. -/
def scale (num den : Nat) (exponent : Int) : Nat × Nat :=
  (num * Nat.pow 2 (-exponent).toNat, den * Nat.pow 2 exponent.toNat)

/-- The greatest `n` with `2 ^ n ≤ num / den`, for positive `num` and `den`. -/
def floorLog2 (num den : Nat) : Int :=
  let guess : Int := Nat.log2 num - Nat.log2 den
  let (scaledNum, scaledDen) := scale num den guess
  if scaledDen ≤ scaledNum then guess else guess - 1

/-- The number nearest to `num / den`, for a positive `den`. -/
def ofRatio (negative : Bool) (num den : Nat) : Binary64 :=
  if num = 0 then zero negative
  else
    let exponent := max (floorLog2 num den - 52) leastExponent
    let (scaledNum, scaledDen) := scale num den exponent
    let rounded := roundQuotient scaledNum scaledDen
    let (significand, exponent) :=
      if rounded = significandBound then (leastFullSignificand, exponent + 1)
      else (rounded, exponent)
    if greatestExponent < exponent then .infinite negative
    else .finite negative significand exponent

/-- Sign, exponent field and fraction field, from high to low, in 1, 11 and 52 bits. -/
def pack (negative : Bool) (exponentField fraction : Nat) : Nat :=
  ((if negative then 2048 else 0) + exponentField) * leastFullSignificand + fraction

/-- The bits of a number in the interchange format, or none for what is not a number, as that has
    many. -/
def bits? : Binary64 → Option Nat
  | .finite negative significand exponent =>
    some <|
      if significand < leastFullSignificand then pack negative 0 significand
      else pack negative (exponent + 1075).toNat (significand - leastFullSignificand)
  | .infinite negative => some (pack negative 2047 0)
  | .nan => none

end Binary64

end DefForms
