import DefForms.Numeral.Decimal

set_option autoImplicit false

/-! # The shortest decimal text of a number

A finite number is written with the fewest decimal digits that read back to it; of several such
decimals the one nearest to the number is taken, and of two equally near the one with the even last
digit. The search is exact. The decimals that read back form an interval around the number, which
contains its ends if the significand is even. On the grid of decimals with a given count of digits
only the two neighbours of the number can be nearest, so the first count for which one of them lies
in the interval is the least. Seventeen digits always suffice. -/

namespace DefForms

namespace Binary64

/-! ## Decimals that read back -/

/-- The numbers that read back to a given one, in quarters of its last place: those from `low` to
    `high`, ends included if it is `closed`. -/
structure Interval where
  low : Nat
  high : Nat
  closed : Bool
deriving DecidableEq

/-- The interval around `significand * 2 ^ exponent`. Below a power of two the next number is half as
    far away as above it, except among the numbers nearest to zero. -/
def interval (significand : Nat) (exponent : Int) : Interval where
  low :=
    if significand = leastFullSignificand ∧ exponent ≠ leastExponent then 4 * significand - 1
    else 4 * significand - 2
  high := 4 * significand + 2
  closed := significand % 2 == 0

/-- The quotient `num / den` lies in the interval. -/
def Interval.contains (i : Interval) (num den : Nat) : Bool :=
  if i.closed then decide (i.low * den ≤ num) && decide (num ≤ i.high * den)
  else decide (i.low * den < num) && decide (num < i.high * den)

/-! ## The grid of decimals -/

/-- The greatest `n` with `10 ^ n ≤ num / den`, for positive `num` and `den`. The guess from the
    power of two is off by at most one. -/
def floorLog10 (num den : Nat) : Int :=
  let guess : Int := floorLog2 num den * 30103 / 100000
  let reaches (n : Int) : Bool :=
    decide (Nat.pow 10 n.toNat * den ≤ num * Nat.pow 10 (-n).toNat)
  if reaches (guess + 1) then guess + 1
  else if reaches guess then guess
  else guess - 1

/-- The number `significand * 2 ^ exponent` in units of `10 ^ unit`, as numerator and denominator. -/
def inUnits (significand : Nat) (exponent unit : Int) : Nat × Nat :=
  (significand * Nat.pow 2 exponent.toNat * Nat.pow 10 (-unit).toNat,
    Nat.pow 2 (-exponent).toNat * Nat.pow 10 unit.toNat)

/-- The number of units nearest to the number, among those that read back to it. -/
def nearest? (significand : Nat) (exponent unit : Int) : Option Nat :=
  let (num, den) := inUnits significand exponent unit
  let around := interval significand exponent
  let readsBack (units : Nat) : Bool := around.contains (4 * significand * units * den) num
  let below := num / den
  match readsBack below, readsBack (below + 1) with
  | true, true => some (roundQuotient num den)
  | true, false => some below
  | false, true => some (below + 1)
  | false, false => none

/-- The shortest decimal with at least `count` digits, looking at `tries` counts. If none of these
    has a decimal that reads back, the next count has, and the nearest decimal with it is taken.
    The first digit of the number counts `10 ^ lead`. -/
def shortestFrom (significand : Nat) (exponent lead : Int) : Nat → Nat → Decimal
  | 0, count =>
    let unit := lead + 1 - count
    let (num, den) := inUnits significand exponent unit
    ⟨Nat.toDigits 10 (roundQuotient num den), unit⟩
  | tries + 1, count =>
    let unit := lead + 1 - count
    match nearest? significand exponent unit with
    | some units => ⟨Nat.toDigits 10 units, unit⟩
    | none => shortestFrom significand exponent lead tries (count + 1)

/-- The shortest decimal of the number `significand * 2 ^ exponent`, which is not zero. -/
def shortest (significand : Nat) (exponent : Int) : Decimal :=
  let (num, den) := inUnits significand exponent 0
  shortestFrom significand exponent (floorLog10 num den) 16 1

end Binary64

/-! ## Layout -/

namespace Decimal

/-- The power of ten below which a number is written with an exponent. -/
def leastPlain : Int := -5

/-- The power of ten from which on a number is written with an exponent. -/
def plainBound : Int := 16

/-- The first digit, the point and the other digits, if there are any. -/
def pointed : List Char → List Char
  | [] => []
  | [digit] => [digit]
  | digit :: next :: rest => digit :: '.' :: next :: rest

/-- A number whose first digit counts `10 ^ lead`, without exponent and with a digit on each side of
    the point. -/
def plain (digits : List Char) (lead : Int) : List Char :=
  if lead < 0 then '0' :: '.' :: (List.replicate (-lead - 1).toNat '0' ++ digits)
  else
    let whole := lead.toNat + 1
    if digits.length ≤ whole then
      digits ++ List.replicate (whole - digits.length) '0' ++ ['.', '0']
    else digits.take whole ++ '.' :: digits.drop whole

/-- A number whose first digit counts `10 ^ lead`, with an exponent that has a sign and no leading
    zeros. -/
def scientific (digits : List Char) (lead : Int) : List Char :=
  pointed digits ++ 'e' :: (if lead < 0 then '-' else '+') :: Nat.toDigits 10 lead.natAbs

/-- The text of a decimal that is not zero. Zeros at the end of its digits are not written. -/
def write (d : Decimal) : List Char :=
  let digits := (d.digits.reverse.dropWhile (· == '0')).reverse
  let lead := d.exponent + d.digits.length - 1
  if leastPlain ≤ lead ∧ lead < plainBound then plain digits lead else scientific digits lead

end Decimal

/-- The text of a finite number, or none for one that is not finite. -/
def Binary64.write? : Binary64 → Option (List Char)
  | .finite negative significand exponent =>
    let unsigned :=
      if significand = 0 then ['0', '.', '0'] else (Binary64.shortest significand exponent).write
    some (if negative then '-' :: unsigned else unsigned)
  | .infinite _ => none
  | .nan => none

end DefForms
