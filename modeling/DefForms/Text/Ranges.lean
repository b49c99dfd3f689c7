set_option autoImplicit false

/-! # Sets of characters

A table of the Unicode standard is kept as a list of ranges of code points, both ends included, in
rising order. -/

namespace DefForms.Text

/-- A set of characters, as ranges of code points with both ends included. -/
abbrev Ranges := List (Nat × Nat)

/-- The character lies in one of the ranges. -/
def Ranges.has (ranges : Ranges) (c : Char) : Bool :=
  ranges.any fun (low, high) => decide (low ≤ c.toNat) && decide (c.toNat ≤ high)

/-- Membership in a set, said of its ranges. -/
theorem Ranges.has_iff {ranges : Ranges} {c : Char} :
    ranges.has c = true ↔ ∃ r ∈ ranges, r.1 ≤ c.toNat ∧ c.toNat ≤ r.2 := by
  simp only [Ranges.has, List.any_eq_true, Bool.and_eq_true, decide_eq_true_eq]

end DefForms.Text
