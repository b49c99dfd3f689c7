import DefForms.Proofs.Inspection.Outline
import DefForms.Proofs.Node.Postorder
import DefForms.Proofs.Numeral.Integer
import DefForms.Proofs.Numeral.Overflow
import DefForms.Proofs.Reader.RoundTrip

set_option autoImplicit false

/-! # What numerals show

The value that the inspection form shows for a numeral of a program that was read. An integer that
has no room in 64 bits keeps its text. A float always has a value, as digits around a point are a
float literal. If this value is infinite, null is shown, so that such a literal is lost: it has no
fallback to the text (`Source.nodes_numerals`). -/

namespace DefForms

open Reader

/-! ## The numerals of a tree -/

mutual

/-- Every node in a tree that can be written can be written on its own, or is an entry of a
    parameter list. -/
theorem Node.spellable_of_mem_postorder (node : Node) (h : node.Spellable) :
    ∀ found ∈ node.postorder, found.kind ≠ .param → found.Spellable := by
  cases node with
  | int | float | operator | term =>
      intro found hfound _
      rw [List.mem_singleton.1 hfound]
      exact h
  | param entry => exact h.elim
  | paramList params =>
      intro found hfound hkind
      rcases List.mem_append.1 hfound with hentry | hlist
      · obtain ⟨entry, -, rfl⟩ := List.mem_map.1 hentry
        exact absurd rfl hkind
      · rw [List.mem_singleton.1 hlist]
        exact h
  | call line head args =>
      intro found hfound hkind
      rcases List.mem_append.1 hfound with harg | hcall
      · exact Node.spellable_of_mem_postorderAll args h.2 found harg hkind
      · rw [List.mem_singleton.1 hcall]
        exact h
  | definition => exact h.elim

theorem Node.spellable_of_mem_postorderAll (nodes : List Node) (h : Node.SpellableAll nodes) :
    ∀ found ∈ Node.postorderAll nodes, found.kind ≠ .param → found.Spellable := by
  cases nodes with
  | nil =>
      intro found hfound
      exact absurd hfound List.not_mem_nil
  | cons node rest =>
      intro found hfound
      rcases List.mem_append.1 hfound with hnode | hrest
      · exact Node.spellable_of_mem_postorder node h.1 found hnode
      · exact Node.spellable_of_mem_postorderAll rest h.2 found hrest

end

/-! ## Their values -/

namespace Numeral

variable {numeral : Numeral}

theorem shownInt_of_isInteger (h : IsInteger numeral.text.toList) :
    numeral.shownInt =
      if (digitsValue numeral.text.toList : Int) ≤ Integer.greatest then
        .int (digitsValue numeral.text.toList)
      else .text numeral.text := by
  rw [shownInt, intValue, Integer.read_digits h.1 h.2]
  by_cases hfits : (digitsValue numeral.text.toList : Int) ≤ Integer.greatest
  · rw [if_pos hfits, if_pos hfits]
  · rw [if_neg hfits, if_neg hfits]

/-- What a float shows depends on the number that its digits are without the point. -/
theorem shownFloat_of_isDecimal {whole fraction : List Char} (hwhole : IsInteger whole)
    (hfraction : ∀ c ∈ fraction, c.isDigit = true)
    (htext : numeral.text.toList = whole ++ '.' :: fraction) :
    (digitsValue (whole ++ fraction) < Binary64.overflow * Nat.pow 10 fraction.length →
        ∃ literal, numeral.shownFloat = .num literal)
      ∧ (Binary64.overflow * Nat.pow 10 fraction.length ≤ digitsValue (whole ++ fraction) →
        numeral.shownFloat = .null) := by
  obtain ⟨value, hread, hfinite⟩ := Binary64.read_point hwhole.1 hwhole.2 hfraction
  rw [← hfinite, ← Nat.not_lt, ← hfinite, ← Binary64.isSome_write?]
  simp only [shownFloat, floatValue, htext, hread]
  cases value.write? with
  | some literal => simp
  | none => simp

end Numeral

/-- The numerals of a program that is read, anywhere in its trees, and the values that they show. An
    integer shows a number, or its text if it has no room. A float shows a number if it is not too
    great for one, and null if it is. -/
theorem Source.nodes_numerals {source : Source} {nodes : List Node} (h : source.nodes = .ok nodes) :
    (∀ numeral, Node.int numeral ∈ Node.postorderAll nodes →
        (Node.int numeral).inspect.field? "value" =
          if (digitsValue numeral.text.toList : Int) ≤ Integer.greatest then
            some (.int (digitsValue numeral.text.toList))
          else some (.text numeral.text))
      ∧ ∀ numeral, Node.float numeral ∈ Node.postorderAll nodes →
        ∃ whole fraction, numeral.text.toList = whole ++ '.' :: fraction
          ∧ (∀ c ∈ whole ++ fraction, c.isDigit = true)
          ∧ (digitsValue (whole ++ fraction) < Binary64.overflow * Nat.pow 10 fraction.length →
            ∃ literal, (Node.float numeral).inspect.field? "value" = some (.num literal))
          ∧ (Binary64.overflow * Nat.pow 10 fraction.length ≤ digitsValue (whole ++ fraction) →
            (Node.float numeral).inspect.field? "value" = some .null) := by
  obtain ⟨hspells, -⟩ := nodes_eq_ok_iff.1 h
  have hspellable := Node.spellable_of_mem_postorderAll nodes (spellable_of_spells hspells)
  have hfield : ∀ type value, (Json.leaf type value).field? "value" = some value := fun _ _ => rfl
  constructor
  · intro numeral hnumeral
    have hinteger : IsInteger numeral.text.toList := hspellable _ hnumeral (by simp [Node.kind])
    rw [Node.inspect, hfield, numeral.shownInt_of_isInteger hinteger]
    split
    · rfl
    · rfl
  · intro numeral hnumeral
    obtain ⟨whole, fraction, hwhole, hfraction, htext⟩ :=
      hspellable _ hnumeral (by simp [Node.kind])
    obtain ⟨hfinite, hoverflow⟩ := Numeral.shownFloat_of_isDecimal hwhole hfraction htext
    refine ⟨whole, fraction, htext, List.forall_mem_append.2 ⟨hwhole.2, hfraction⟩, ?_, ?_⟩
    · intro hsmall
      obtain ⟨literal, hliteral⟩ := hfinite hsmall
      exact ⟨literal, by rw [Node.inspect, hfield, hliteral]⟩
    · intro hgreat
      rw [Node.inspect, hfield, hoverflow hgreat]

theorem Source.nodes_numerals_of_call :
    Source.nodes ⟨"s", "(f [] 9223372036854775808 1.5)"⟩
        = .ok [.call 1 (.term ⟨1, "f"⟩)
          [.paramList ⟨1, []⟩, .int ⟨1, "9223372036854775808"⟩, .float ⟨1, "1.5"⟩]]
      ∧ (Node.int ⟨1, "9223372036854775808"⟩).inspect.field? "value"
        = some (.text "9223372036854775808")
      ∧ ∃ whole fraction, "1.5".toList = whole ++ '.' :: fraction
        ∧ (∀ c ∈ whole ++ fraction, c.isDigit = true)
        ∧ (digitsValue (whole ++ fraction) < Binary64.overflow * Nat.pow 10 fraction.length →
          ∃ literal, (Node.float ⟨1, "1.5"⟩).inspect.field? "value" = some (.num literal))
        ∧ (Binary64.overflow * Nat.pow 10 fraction.length ≤ digitsValue (whole ++ fraction) →
          (Node.float ⟨1, "1.5"⟩).inspect.field? "value" = some .null) := by
  have hread : Source.nodes ⟨"s", "(f [] 9223372036854775808 1.5)"⟩
      = .ok [.call 1 (.term ⟨1, "f"⟩)
        [.paramList ⟨1, []⟩, .int ⟨1, "9223372036854775808"⟩, .float ⟨1, "1.5"⟩]] := by
    decide +kernel
  obtain ⟨hints, hfloats⟩ := nodes_numerals hread
  have hint := hints ⟨1, "9223372036854775808"⟩ (by decide +kernel)
  rw [if_neg (by decide +kernel)] at hint
  exact ⟨hread, hint, hfloats ⟨1, "1.5"⟩ (by decide +kernel)⟩

/-- A float of this many nines and one more. -/
def nines (count : Nat) : String := String.ofList (List.replicate (count + 1) '9' ++ ['.'])

theorem isInteger_replicate_nine (count : Nat) : IsInteger (List.replicate (count + 1) '9') := by
  constructor
  · rw [List.replicate_succ]
    exact List.cons_ne_nil _ _
  · intro c hc
    rw [List.eq_of_mem_replicate hc]
    decide

theorem toList_nines (count : Nat) :
    (nines count).toList = List.replicate (count + 1) '9' ++ '.' :: [] :=
  String.toList_ofList

theorem Source.nodes_nines (count : Nat) :
    Source.nodes ⟨"s", nines count⟩ = .ok [.float ⟨1, nines count⟩] := by
  have hdecimal : IsDecimal (nines count).toList :=
    ⟨_, [], isInteger_replicate_nine count, by simp, toList_nines count⟩
  have hspells := spells_leaf (.float hdecimal : Leaf 1 _ _)
  rw [String.ofList_toList] at hspells
  exact nodes_eq_ok_iff.2 ⟨hspells, Nat.zero_le _⟩

theorem shownFloat_nines {count : Nat}
    (h : Binary64.overflow ≤ digitsValue (List.replicate (count + 1) '9')) :
    Numeral.shownFloat ⟨1, nines count⟩ = .null := by
  have htext : (Numeral.mk 1 (nines count)).text.toList
      = List.replicate (count + 1) '9' ++ '.' :: [] := toList_nines count
  have hnone : ∀ c ∈ ([] : List Char), c.isDigit = true := by simp
  have hone : Nat.pow 10 ([] : List Char).length = 1 := rfl
  have hoverflow :=
    (Numeral.shownFloat_of_isDecimal (isInteger_replicate_nine count) hnone htext).2
  rw [hone, Nat.mul_one, List.append_nil] at hoverflow
  exact hoverflow h

/-- A number of 310 digits is too great. Nothing of its literal is left: the value is null, which is
    neither a number nor a text. -/
theorem Source.nodes_nines_lost :
    Source.nodes ⟨"s", nines 309⟩ = .ok [.float ⟨1, nines 309⟩]
      ∧ (Node.float ⟨1, nines 309⟩).inspect.field? "value" = some .null := by
  have hnull : Numeral.shownFloat ⟨1, nines 309⟩ = .null := shownFloat_nines (by decide +kernel)
  exact ⟨Source.nodes_nines 309, congrArg some hnull⟩

end DefForms
