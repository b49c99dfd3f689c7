import DefForms.Proofs.Inspection.Numerals

set_option autoImplicit false

/-! # The values of integers

An integer has a value if its text is an integer literal that has room in 64 bits, and shows this value.
For any other text there is a diagnostic instead, and the text itself is shown, so that no digit is lost.
Nodes that were built by hand may have any text; what was read from a source is made of digits, and
only its size can keep it from having a value (`Numeral.intValue_shown`). -/

namespace DefForms

open Reader

namespace Numeral

variable {numeral : Numeral}

theorem intValue_eq_ok_iff {value : Int} :
    numeral.intValue = .ok value ↔
      Integer.Denotes numeral.text.toList value
        ∧ Integer.least ≤ value ∧ value ≤ Integer.greatest := by
  rw [← Integer.read_eq_ok_iff, intValue]
  cases Integer.read numeral.text.toList with
  | ok found => simp
  | error fault => simp

/-- The diagnostic about a text that is no literal, or one whose integer has no room. -/
theorem exists_intValue_error
    (h : ¬ ∃ value, Integer.Denotes numeral.text.toList value
      ∧ Integer.least ≤ value ∧ value ≤ Integer.greatest) :
    ∃ message, numeral.intValue = .error (.atLine .parse message (some numeral.line) none) := by
  cases hvalue : numeral.intValue with
  | ok value => exact absurd ⟨value, intValue_eq_ok_iff.1 hvalue⟩ h
  | error diagnostic =>
      unfold intValue at hvalue
      split at hvalue
      · simp at hvalue
      · next fault _ =>
          obtain rfl := Except.error.inj hvalue
          exact ⟨_, rfl⟩

theorem shownInt_of_ok {value : Int} (h : numeral.intValue = .ok value) :
    numeral.shownInt = .int value := by
  rw [shownInt, h]

theorem shownInt_of_error {diagnostic : Diagnostic} (h : numeral.intValue = .error diagnostic) :
    numeral.shownInt = .text numeral.text := by
  rw [shownInt, h]

theorem intValue_of_isInteger (h : IsInteger numeral.text.toList) :
    numeral.intValue =
      if (digitsValue numeral.text.toList : Int) ≤ Integer.greatest then
        .ok (digitsValue numeral.text.toList)
      else
        .error (.atLine .parse
          ("invalid integer literal `" ++ numeral.text ++ "`: "
            ++ "number too large to fit in target type") (some numeral.line) none) := by
  rw [intValue, Integer.read_digits h.1 h.2]
  by_cases hfits : (digitsValue numeral.text.toList : Int) ≤ Integer.greatest
  · rw [if_pos hfits, if_pos hfits]
  · rw [if_neg hfits, if_neg hfits]
    rfl

/-- An integer node has a value if its text is a literal of an integer of 64 bits, and shows this
    integer. Any other node is reported with its line, without a source, and shows its text. Of the
    integers in a source only those above the greatest one are reported, and as too large. -/
theorem intValue_shown (numeral : Numeral) :
    (∀ value, numeral.intValue = .ok value ↔
        Integer.Denotes numeral.text.toList value
          ∧ Integer.least ≤ value ∧ value ≤ Integer.greatest)
      ∧ (∀ value, numeral.intValue = .ok value →
        (Node.int numeral).inspect.field? "value" = some (.int value))
      ∧ ((¬ ∃ value, Integer.Denotes numeral.text.toList value
          ∧ Integer.least ≤ value ∧ value ≤ Integer.greatest) →
        (∃ diagnostic, numeral.intValue = .error diagnostic
            ∧ diagnostic.category = .parse ∧ diagnostic.line = some numeral.line
            ∧ diagnostic.source = none ∧ diagnostic.span = none)
          ∧ (Node.int numeral).inspect.field? "value" = some (.text numeral.text))
      ∧ ∀ source nodes, Source.nodes source = .ok nodes →
        Node.int numeral ∈ Node.postorderAll nodes →
        ((∃ diagnostic, numeral.intValue = .error diagnostic) ↔
            Integer.greatest < digitsValue numeral.text.toList)
          ∧ ∀ diagnostic, numeral.intValue = .error diagnostic →
            diagnostic.message = "invalid integer literal `" ++ numeral.text ++ "`: "
              ++ "number too large to fit in target type" := by
  have hfield : (Node.int numeral).inspect.field? "value" = some numeral.shownInt := rfl
  refine ⟨fun value => intValue_eq_ok_iff, ?_, ?_, ?_⟩
  · intro value hvalue
    rw [hfield, shownInt_of_ok hvalue]
  · intro hnone
    obtain ⟨message, hmessage⟩ := exists_intValue_error hnone
    exact ⟨⟨_, hmessage, rfl, rfl, rfl, rfl⟩, by rw [hfield, shownInt_of_error hmessage]⟩
  · intro source nodes hnodes hnumeral
    obtain ⟨hspells, -⟩ := Source.nodes_eq_ok_iff.1 hnodes
    have hinteger : IsInteger numeral.text.toList :=
      Node.spellable_of_mem_postorderAll nodes (spellable_of_spells hspells) _ hnumeral
        (by simp [Node.kind])
    rw [intValue_of_isInteger hinteger]
    split
    · next hfits => simp [hfits]
    · next hfits =>
        refine ⟨⟨fun _ => Int.not_le.1 hfits, fun _ => ⟨_, rfl⟩⟩, ?_⟩
        intro diagnostic hdiagnostic
        rw [← Except.error.inj hdiagnostic]
        rfl

/-- The least integer has room. The one above the greatest has none, with a sign or without. -/
theorem intValue_shown_of_least :
    Numeral.intValue ⟨1, "-09223372036854775808"⟩ = .ok (-9223372036854775808)
      ∧ (Node.int ⟨1, "-09223372036854775808"⟩).inspect.field? "value"
        = some (.int (-9223372036854775808))
      ∧ (Node.int ⟨2, "+9223372036854775808"⟩).inspect.field? "value"
        = some (.text "+9223372036854775808")
      ∧ ∃ diagnostic, Numeral.intValue ⟨1, "9223372036854775808"⟩ = .error diagnostic
        ∧ diagnostic.message = "invalid integer literal `9223372036854775808`: "
          ++ "number too large to fit in target type" := by
  have hread : Source.nodes ⟨"s", "(f 9223372036854775808)"⟩
      = .ok [.call 1 (.term ⟨1, "f"⟩) [.int ⟨1, "9223372036854775808"⟩]] := by
    decide +kernel
  obtain ⟨hvalue, hshown, -, -⟩ := intValue_shown ⟨1, "-09223372036854775808"⟩
  obtain ⟨-, -, htext, -⟩ := intValue_shown ⟨2, "+9223372036854775808"⟩
  obtain ⟨-, -, -, hsource⟩ := intValue_shown ⟨1, "9223372036854775808"⟩
  have hleast : Numeral.intValue ⟨1, "-09223372036854775808"⟩ = .ok (-9223372036854775808) := by
    refine (hvalue _).2 ⟨?_, by decide, by decide⟩
    exact .minus (by decide) (List.all_eq_true.1 (by decide))
  refine ⟨hleast, hshown _ hleast, (htext ?_).2, ?_⟩
  · rintro ⟨value, hdenotes, -, hgreatest⟩
    cases hdenotes with
    | unsigned _ hdigits => exact absurd (hdigits '+' (by decide)) (by decide)
    | plus _ _ => exact absurd hgreatest (by decide)
  · obtain ⟨hlarge, hmessage⟩ := hsource _ _ hread (by decide +kernel)
    obtain ⟨diagnostic, hdiagnostic⟩ := hlarge.2 (by decide)
    exact ⟨diagnostic, hdiagnostic, hmessage diagnostic hdiagnostic⟩

end Numeral

end DefForms
