import DefForms.Json.Printer
import DefForms.Proofs.Json.Literal

set_option autoImplicit false

/-! # Reading compact JSON texts

A `Json` keeps literals as they are written, so it can hold literals that are none. If there are no
such literals in it (`Json.WellFormed`) then its compact text is read back to it, whatever it holds
and however deep it is (`Json.parse_compact`).

A value is read up to the place where what stands behind it begins, so the lemmas are about a value
in front of any text that no number goes on with. The reader lowers its bound at every step, and the
proof is by induction on that bound. Counted in the characters that are left, a step into an array
or an object uses up one of them, and the step to the first item or field uses up none, so twice
their number is enough. -/

namespace DefForms.Json

/-! ## Well-formed values -/

mutual

/-- The literals in the value are read whole where nothing follows them. -/
def WellFormed : Json → Prop
  | .null => True
  | .bool _ => True
  | .num literal => scanNumber literal = some (literal, [])
  | .str written => scanString (written ++ ['"']) = some (written, [])
  | .arr items => WellFormedItems items
  | .obj fields => WellFormedFields fields

/-- The items of an array are well formed. -/
def WellFormedItems : List Json → Prop
  | [] => True
  | item :: more => item.WellFormed ∧ WellFormedItems more

/-- The keys and the values of an object are well formed. -/
def WellFormedFields : List (List Char × Json) → Prop
  | [] => True
  | (key, value) :: more =>
      scanString (key ++ ['"']) = some (key, []) ∧ value.WellFormed ∧ WellFormedFields more

end

theorem wellFormedItems_iff {items : List Json} :
    WellFormedItems items ↔ ∀ item ∈ items, item.WellFormed := by
  induction items with
  | nil => simp [WellFormedItems]
  | cons item more ih => rw [WellFormedItems, ih, List.forall_mem_cons]

theorem wellFormed_text (content : String) : (Json.text content).WellFormed :=
  scanString_encode content.toList []

theorem wellFormed_nat (n : Nat) : (Json.nat n).WellFormed :=
  scanNumber_toDigits n

theorem wellFormed_record {fields : List (String × Json)}
    (h : ∀ field ∈ fields, field.2.WellFormed) : (Json.record fields).WellFormed := by
  unfold record
  rw [WellFormed]
  induction fields with
  | nil => trivial
  | cons field more ih =>
      obtain ⟨key, value⟩ := field
      rw [List.forall_mem_cons] at h
      obtain ⟨hvalue, hmore⟩ := h
      exact ⟨scanString_encode key.toList [], hvalue, ih hmore⟩

/-! ## What stands where -/

theorem skip_of_not_blank {c : Char} (hc : isBlank c = false) (text : List Char) :
    skip (c :: text) = c :: text :=
  List.dropWhile_cons_of_neg (by simp [hc])

theorem not_blank_of_isDigit {c : Char} (hc : c.isDigit = true) : isBlank c = false := by
  have hne : ∀ d : Char, d.isDigit = false → c ≠ d := by
    rintro d hd rfl
    simp [hc] at hd
  simp [isBlank, hne ' ' (by decide), hne '\t' (by decide), hne '\n' (by decide),
    hne '\r' (by decide)]

/-- The text of a value starts with no blank and no closing bracket. -/
theorem writeCompact_start {json : Json} (h : json.WellFormed) (rest : List Char) :
    ∃ first tail, json.writeCompact rest = first :: tail ∧ isBlank first = false
      ∧ first ≠ ']' := by
  cases json with
  | null => exact ⟨'n', _, rfl, by decide, by decide⟩
  | bool value =>
      cases value with
      | true => exact ⟨'t', _, rfl, by decide, by decide⟩
      | false => exact ⟨'f', _, rfl, by decide, by decide⟩
  | num literal =>
      obtain ⟨first, tail, rfl, hfirst⟩ := scanNumber_start h
      refine ⟨first, tail ++ rest, rfl, ?_⟩
      rcases hfirst with hdigit | rfl
      · refine ⟨not_blank_of_isDigit hdigit, ?_⟩
        rintro rfl
        simp at hdigit
      · exact ⟨by decide, by decide⟩
  | str written => exact ⟨'"', _, rfl, by decide, by decide⟩
  | arr items =>
      cases items with
      | nil => exact ⟨'[', _, rfl, by decide, by decide⟩
      | cons item more => exact ⟨'[', _, rfl, by decide, by decide⟩
  | obj fields =>
      cases fields with
      | nil => exact ⟨'\x7b', _, rfl, by decide, by decide⟩
      | cons field more => exact ⟨'\x7b', _, rfl, by decide, by decide⟩

mutual

/-- What stands behind a value is part of the text. -/
theorem le_length_writeCompact (json : Json) (rest : List Char) :
    rest.length ≤ (json.writeCompact rest).length := by
  match json with
  | .null | .num literal =>
      rw [writeCompact, List.length_append]
      omega
  | .bool value =>
      rw [writeCompact, writeBool, List.length_append]
      omega
  | .str written =>
      rw [writeCompact, writeQuoted, List.length_cons, List.length_append, List.length_cons]
      omega
  | .arr [] =>
      rw [writeCompact, List.length_cons, List.length_cons]
      omega
  | .arr (item :: more) =>
      have hmore := le_length_writeCompactItems more (']' :: rest)
      have hitem := le_length_writeCompact item (writeCompactItems more (']' :: rest))
      rw [List.length_cons] at hmore
      rw [writeCompact, List.length_cons]
      omega
  | .obj [] =>
      rw [writeCompact, List.length_cons, List.length_cons]
      omega
  | .obj ((key, value) :: more) =>
      have hmore := le_length_writeCompactFields more ('\x7d' :: rest)
      have hvalue := le_length_writeCompact value (writeCompactFields more ('\x7d' :: rest))
      rw [List.length_cons] at hmore
      rw [writeCompact, writeQuoted, List.length_cons, List.length_cons, List.length_append,
        List.length_cons, List.length_cons]
      omega

theorem le_length_writeCompactItems (items : List Json) (rest : List Char) :
    rest.length ≤ (writeCompactItems items rest).length := by
  match items with
  | [] => simp [writeCompactItems]
  | item :: more =>
      have hmore := le_length_writeCompactItems more rest
      have hitem := le_length_writeCompact item (writeCompactItems more rest)
      rw [writeCompactItems, List.length_cons]
      omega

theorem le_length_writeCompactFields (fields : List (List Char × Json)) (rest : List Char) :
    rest.length ≤ (writeCompactFields fields rest).length := by
  match fields with
  | [] => simp [writeCompactFields]
  | (key, value) :: more =>
      have hmore := le_length_writeCompactFields more rest
      have hvalue := le_length_writeCompact value (writeCompactFields more rest)
      rw [writeCompactFields, writeQuoted, List.length_cons, List.length_cons, List.length_append,
        List.length_cons, List.length_cons]
      omega

end

/-! ## Literals -/

/-- A string is read as one, whatever stands behind it. -/
theorem scanString_writeQuoted {written : List Char}
    (h : scanString (written ++ ['"']) = some (written, [])) (rest : List Char) :
    scanString (written ++ '"' :: rest) = some (written, rest) := by
  have hread := scanString_append h rest
  rwa [List.append_assoc] at hread

theorem key_writeQuoted {written : List Char}
    (h : scanString (written ++ ['"']) = some (written, [])) (rest : List Char) :
    key (writeQuoted written (':' :: rest)) = some (written, rest) := by
  unfold key writeQuoted
  rw [skip_of_not_blank (by decide)]
  simp only [scanString_writeQuoted h]
  rw [skip_of_not_blank (by decide)]
  rfl

/-- What is no array and no object is read as a literal. -/
theorem value_scalar {fuel : Nat} {c : Char} (hblank : isBlank c = false) (harray : c ≠ '[')
    (hobject : c ≠ '\x7b') (text : List Char) :
    value (fuel + 1) (c :: text) = scalar (c :: text) := by
  rw [value, skip_of_not_blank hblank]
  split
  · next heq => exact absurd (List.cons.inj heq).1 harray
  · next heq => exact absurd (List.cons.inj heq).1 hobject
  · rfl

theorem value_num {literal rest : List Char} (h : scanNumber literal = some (literal, []))
    (hrest : NumberEnds rest) (fuel : Nat) :
    value (fuel + 1) (literal ++ rest) = some (.num literal, rest) := by
  have hread := scanNumber_append h fun _ => hrest
  rw [List.nil_append] at hread
  obtain ⟨first, tail, rfl, hfirst⟩ := scanNumber_start h
  have hne : ∀ d : Char, d.isDigit = false → d ≠ '-' → first ≠ d := by
    rintro d hdigit hminus rfl
    rcases hfirst with hd | hd
    · simp [hd] at hdigit
    · exact hminus hd
  have hblank : isBlank first = false := by
    rcases hfirst with hd | rfl
    · exact not_blank_of_isDigit hd
    · decide
  rw [List.cons_append] at hread ⊢
  rw [value_scalar hblank (hne '[' (by decide) (by decide)) (hne '\x7b' (by decide) (by decide))]
  unfold scalar
  split
  · next heq => exact absurd (List.cons.inj heq).1 (hne '"' (by decide) (by decide))
  · next heq => exact absurd (List.cons.inj heq).1 (hne 'n' (by decide) (by decide))
  · next heq => exact absurd (List.cons.inj heq).1 (hne 't' (by decide) (by decide))
  · next heq => exact absurd (List.cons.inj heq).1 (hne 'f' (by decide) (by decide))
  · rw [hread]

/-! ## Values -/

theorem numberEnds_writeCompactItems (more : List Json) (rest : List Char) :
    NumberEnds (writeCompactItems more (']' :: rest)) := by
  cases more with
  | nil => exact numberEnds_cons (by decide) (by decide) rest
  | cons item more => exact numberEnds_cons (by decide) (by decide) _

theorem numberEnds_writeCompactFields (more : List (List Char × Json)) (rest : List Char) :
    NumberEnds (writeCompactFields more ('\x7d' :: rest)) := by
  cases more with
  | nil => exact numberEnds_cons (by decide) (by decide) rest
  | cons field more => exact numberEnds_cons (by decide) (by decide) _

mutual

/-- The text of a value is read up to what stands behind it. -/
theorem value_writeCompact (json : Json) (h : json.WellFormed) {rest : List Char}
    (hrest : NumberEnds rest) (fuel : Nat)
    (hfuel : 2 * (json.writeCompact rest).length ≤ fuel + 1) :
    value fuel (json.writeCompact rest) = some (json, rest) := by
  cases fuel with
  | zero =>
      obtain ⟨first, tail, hstart, -, -⟩ := writeCompact_start h rest
      rw [hstart, List.length_cons] at hfuel
      omega
  | succ fuel =>
      match json with
      | .null => rfl
      | .bool true => rfl
      | .bool false => rfl
      | .num literal => exact value_num h hrest fuel
      | .str written =>
          rw [writeCompact, writeQuoted, value_scalar (by decide) (by decide) (by decide), scalar,
            scanString_writeQuoted h]
      | .arr [] => rfl
      | .arr (item :: more) =>
          rw [writeCompact, List.length_cons] at hfuel
          have hitems := items_writeCompact item more h rest fuel (by omega)
          obtain ⟨first, tail, hstart, hblank, hclose⟩ :=
            writeCompact_start h.1 (writeCompactItems more (']' :: rest))
          rw [hstart] at hitems
          rw [writeCompact, value, skip_of_not_blank (by decide), hstart]
          simp only [skip_of_not_blank hblank]
          split
          · next heq => exact absurd (List.cons.inj heq).1 hclose
          · rw [hitems]
      | .obj [] => rfl
      | .obj ((key, item) :: more) =>
          rw [writeCompact, List.length_cons] at hfuel
          have hfields := fields_writeCompact key item more h rest fuel (by omega)
          rw [writeCompact, value, skip_of_not_blank (by decide)]
          unfold writeQuoted at hfields ⊢
          simp only [skip_of_not_blank (c := '"') (by decide)]
          split
          · next heq => exact absurd (List.cons.inj heq).1 (by decide)
          · rw [hfields]
termination_by fuel

/-- The items of an array are read with the bracket behind them. -/
theorem items_writeCompact (item : Json) (more : List Json)
    (h : WellFormedItems (item :: more)) (rest : List Char) (fuel : Nat)
    (hfuel : 2 * (item.writeCompact (writeCompactItems more (']' :: rest))).length ≤ fuel) :
    items fuel (item.writeCompact (writeCompactItems more (']' :: rest)))
      = some (item :: more, rest) := by
  obtain ⟨hitem, hmore⟩ := h
  cases fuel with
  | zero =>
      obtain ⟨first, tail, hstart, -, -⟩ :=
        writeCompact_start hitem (writeCompactItems more (']' :: rest))
      rw [hstart, List.length_cons] at hfuel
      omega
  | succ fuel =>
      have hvalue := value_writeCompact item hitem (numberEnds_writeCompactItems more rest)
        fuel (by omega)
      rw [items, hvalue]
      match more with
      | [] => rfl
      | next :: more =>
          have hlength := le_length_writeCompact item
            (writeCompactItems (next :: more) (']' :: rest))
          rw [writeCompactItems, List.length_cons] at hlength
          have hitems := items_writeCompact next more hmore rest fuel
            (by rw [writeCompactItems] at hfuel; omega)
          simp only [writeCompactItems, skip_of_not_blank (c := ',') (by decide), hitems]
termination_by fuel

/-- The fields of an object are read with the brace behind them. -/
theorem fields_writeCompact (name : List Char) (item : Json) (more : List (List Char × Json))
    (h : WellFormedFields ((name, item) :: more)) (rest : List Char) (fuel : Nat)
    (hfuel : 2 * (writeQuoted name (':' :: item.writeCompact
      (writeCompactFields more ('\x7d' :: rest)))).length ≤ fuel) :
    fields fuel (writeQuoted name (':' :: item.writeCompact
        (writeCompactFields more ('\x7d' :: rest))))
      = some ((name, item) :: more, rest) := by
  obtain ⟨hname, hitem, hmore⟩ := h
  have hquoted : ∀ text : List Char, text.length < (writeQuoted name (':' :: text)).length := by
    intro text
    rw [writeQuoted, List.length_cons, List.length_append, List.length_cons, List.length_cons]
    omega
  have hshorter := hquoted (item.writeCompact (writeCompactFields more ('\x7d' :: rest)))
  cases fuel with
  | zero => omega
  | succ fuel =>
      have hvalue := value_writeCompact item hitem (numberEnds_writeCompactFields more rest)
        fuel (by omega)
      rw [fields, key_writeQuoted hname]
      simp only [hvalue]
      match more with
      | [] => rfl
      | (next, value) :: more =>
          have hlength := le_length_writeCompact item
            (writeCompactFields ((next, value) :: more) ('\x7d' :: rest))
          rw [writeCompactFields, List.length_cons] at hlength
          have hfields := fields_writeCompact next value more hmore rest fuel
            (by rw [writeCompactFields] at hfuel hshorter; omega)
          simp only [writeCompactFields, skip_of_not_blank (c := ',') (by decide), hfields]
termination_by fuel

end

/-- What is written without spaces is read back. -/
theorem parse_compact {json : Json} (h : json.WellFormed) : parse json.compact = some json := by
  have hvalue := value_writeCompact json h numberEnds_nil
    (2 * json.compact.length + 2) (by rw [← compact]; omega)
  rw [← compact] at hvalue
  rw [parse, hvalue]
  rfl

end DefForms.Json
