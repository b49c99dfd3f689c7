import DefForms.Proofs.Text.Run
import DefForms.Reader.Token

set_option autoImplicit false

/-! # Words

A word is a part of a program that holds no other parts: a number, an operator or a name. `Leaf` says
how each of them is written, `Ends` where a word stops: at the first character that does not belong
to it. The two together are what `number` and `head` read: a leaf that ends is read as this leaf
(`number_of_leaf`, `head_of_leaf`), and what is read is a leaf that ends (`leaf_of_number`,
`leaf_of_head`). `EntryWord` does the same for the entries of a parameter list. -/

namespace DefForms.Reader

/-! ## Classes of characters -/

/-- The characters between the words of a program: blanks and the delimiters of forms. -/
def isStructural (c : Char) : Bool := isBlank c || ['(', ')', '[', ']'].contains c

theorem isStructural_of_isBlank {c : Char} (h : isBlank c = true) : isStructural c = true := by
  simp [isStructural, h]

theorem isBlank_of_isStructural {c : Char} (h : isStructural c = false) : isBlank c = false :=
  Bool.eq_false_iff.2 fun hc => absurd h (by simp [isStructural_of_isBlank hc])

theorem ne_of_isStructural {c d : Char} (h : isStructural c = false)
    (hd : isStructural d = true) : c ≠ d := by
  rintro rfl
  simp [h] at hd

theorem ne_of_isBlank {c d : Char} (h : isBlank c = true) (hd : isBlank d = false) : c ≠ d := by
  rintro rfl
  simp [h] at hd

theorem isNameChar_of_isDigit {c : Char} (h : c.isDigit = true) : isNameChar c = true := by
  simp [isNameChar, Char.isAlphanum, h]

theorem isNameChar_of_isAlpha {c : Char} (h : c.isAlpha = true) : isNameChar c = true := by
  simp [isNameChar, Char.isAlphanum, h]

theorem isDigit_of_isAlpha {c : Char} (h : c.isAlpha = true) : c.isDigit = false := by
  refine Bool.eq_false_iff.2 ?_
  intro hdigit
  have hbelow : c.val ≤ '9'.val := of_decide_eq_true (Bool.and_eq_true_iff.1 hdigit).2
  have habove : 'A'.val ≤ c.val := by
    rcases Bool.or_eq_true_iff.1 h with hupper | hlower
    · exact (of_decide_eq_true hupper).1
    · have hfrom : 'a'.val ≤ c.val := of_decide_eq_true (Bool.and_eq_true_iff.1 hlower).1
      exact UInt32.le_trans (by decide) hfrom
  exact absurd (UInt32.le_trans habove hbelow) (by decide)

theorem isOperator_cases {c : Char} (h : isOperator c = true) :
    c = '+' ∨ c = '-' ∨ c = '/' ∨ c = '*' ∨ c = '%' := by
  simpa [isOperator, Operator.symbols] using h

theorem isNameChar_of_isOperator {c : Char} (h : isOperator c = true) : isNameChar c = false := by
  rcases isOperator_cases h with rfl | rfl | rfl | rfl | rfl <;> decide

theorem isStructural_of_isOperator {c : Char} (h : isOperator c = true) :
    isStructural c = false := by
  rcases isOperator_cases h with rfl | rfl | rfl | rfl | rfl <;> decide

theorem isNameChar_of_isStructural {c : Char} (h : isStructural c = true) :
    isNameChar c = false := by
  simp only [isStructural, isBlank, List.contains_cons, List.contains_nil, Bool.or_false,
    Bool.or_eq_true, beq_iff_eq] at h
  rcases h with (rfl | rfl) | rfl | rfl | rfl | rfl <;> decide

theorem isStructural_of_isNameChar {c : Char} (h : isNameChar c = true) :
    isStructural c = false :=
  Bool.eq_false_iff.2 fun hc => absurd h (by simp [isNameChar_of_isStructural hc])

theorem isOperator_of_isNameChar {c : Char} (h : isNameChar c = true) : isOperator c = false :=
  Bool.eq_false_iff.2 fun hc => absurd h (by simp [isNameChar_of_isOperator hc])

theorem isDigit_of_isNameChar {c : Char} (h : isNameChar c = false) : c.isDigit = false :=
  Bool.eq_false_iff.2 fun hc => absurd h (by simp [isNameChar_of_isDigit hc])

theorem isAlpha_of_isNameChar {c : Char} (h : isNameChar c = false) : c.isAlpha = false :=
  Bool.eq_false_iff.2 fun hc => absurd h (by simp [isNameChar_of_isAlpha hc])

/-! ## Leaves -/

/-- A nonempty run of digits. -/
def IsInteger (word : List Char) : Prop :=
  word ≠ [] ∧ ∀ c ∈ word, c.isDigit = true

/-- An integer, one point, and a run of digits that may be empty. -/
def IsDecimal (word : List Char) : Prop :=
  ∃ whole fraction, IsInteger whole ∧ (∀ c ∈ fraction, c.isDigit = true)
    ∧ word = whole ++ '.' :: fraction

/-- A letter and a run of letters, digits and underscores. -/
def IsName (word : List Char) : Prop :=
  ∃ first rest, first.isAlpha = true ∧ (∀ c ∈ rest, isNameChar c = true) ∧ word = first :: rest

/-- The node that is written as the word when it stands on this line. -/
inductive Leaf (line : Nat) : List Char → Node → Prop where
  | int {word : List Char} (h : IsInteger word) : Leaf line word (.int ⟨line, String.ofList word⟩)
  | float {word : List Char} (h : IsDecimal word) :
      Leaf line word (.float ⟨line, String.ofList word⟩)
  | operator {c : Char} (h : isOperator c = true) : Leaf line [c] (.operator ⟨line, c⟩)
  | term {word : List Char} (h : IsName word) : Leaf line word (.term ⟨line, String.ofList word⟩)

/-- A leaf starts with a digit, an operator or a letter. -/
theorem leaf_start {line : Nat} {word : List Char} {node : Node} (h : Leaf line word node) :
    ∃ first rest, word = first :: rest ∧ isStructural first = false
      ∧ (first.isDigit = true ∨ isOperator first = true ∨ first.isAlpha = true) := by
  have integer : ∀ {whole}, IsInteger whole → ∃ first rest, whole = first :: rest
      ∧ first.isDigit = true := by
    rintro whole ⟨hne, hdigits⟩
    obtain ⟨first, rest, rfl⟩ := List.exists_cons_of_ne_nil hne
    exact ⟨first, rest, rfl, hdigits first (by simp)⟩
  cases h with
  | int h =>
      obtain ⟨first, rest, rfl, hfirst⟩ := integer h
      exact ⟨first, rest, rfl, isStructural_of_isNameChar (isNameChar_of_isDigit hfirst),
        Or.inl hfirst⟩
  | float h =>
      obtain ⟨whole, fraction, hwhole, -, rfl⟩ := h
      obtain ⟨first, rest, rfl, hfirst⟩ := integer hwhole
      exact ⟨first, _, rfl, isStructural_of_isNameChar (isNameChar_of_isDigit hfirst),
        Or.inl hfirst⟩
  | operator h => exact ⟨_, [], rfl, isStructural_of_isOperator h, Or.inr (Or.inl h)⟩
  | term h =>
      obtain ⟨first, rest, hfirst, -, rfl⟩ := h
      exact ⟨first, rest, rfl, isStructural_of_isNameChar (isNameChar_of_isAlpha hfirst),
        Or.inr (Or.inr hfirst)⟩

/-- No leaf holds a blank or a delimiter. -/
theorem leaf_plain {line : Nat} {word : List Char} {node : Node} (h : Leaf line word node) :
    ∀ c ∈ word, isStructural c = false := by
  have digits : ∀ {run : List Char}, (∀ c ∈ run, c.isDigit = true) →
      ∀ c ∈ run, isStructural c = false :=
    fun hrun c hc => isStructural_of_isNameChar (isNameChar_of_isDigit (hrun c hc))
  intro c hc
  cases h with
  | int h => exact digits h.2 c hc
  | float h =>
      obtain ⟨whole, fraction, hwhole, hfraction, rfl⟩ := h
      rcases List.mem_append.1 hc with hc | hc
      · exact digits hwhole.2 c hc
      · rcases List.mem_cons.1 hc with rfl | hc
        · decide
        · exact digits hfraction c hc
  | operator h =>
      rw [List.mem_singleton.1 hc]
      exact isStructural_of_isOperator h
  | term h =>
      obtain ⟨first, rest, hfirst, hrest, rfl⟩ := h
      rcases List.mem_cons.1 hc with rfl | hc
      · exact isStructural_of_isNameChar (isNameChar_of_isAlpha hfirst)
      · exact isStructural_of_isNameChar (hrest c hc)

theorem count_newline_of_plain {word : List Char} (h : ∀ c ∈ word, isStructural c = false) :
    word.count '\n' = 0 :=
  List.count_eq_zero.2 fun hc => absurd (h '\n' hc) (by decide)

/-! ## Where words end -/

/-- A word that starts with `first` goes on with `c`. -/
def continues (first c : Char) : Bool :=
  if first.isDigit then c.isDigit || c == '.' else first.isAlpha && isNameChar c

/-- The word stops in front of `rest`. -/
def Ends (word rest : List Char) : Prop :=
  ∀ first ∈ word.head?, ∀ c ∈ rest.head?, continues first c = false

/-- No word goes on into the text. -/
def Loose (text : List Char) : Prop :=
  ∀ c ∈ text.head?, isNameChar c = false ∧ c ≠ '.'

theorem loose_nil : Loose [] := by
  intro c hc
  simp at hc

theorem loose_of_isStructural {c : Char} (rest : List Char) (h : isStructural c = true) :
    Loose (c :: rest) := by
  intro d hd
  simp only [List.head?_cons, Option.mem_def, Option.some.injEq] at hd
  subst hd
  refine ⟨isNameChar_of_isStructural h, ?_⟩
  rintro rfl
  simp [isStructural, isBlank] at h

theorem ends_of_loose {word rest : List Char} (h : Loose rest) : Ends word rest := by
  intro first _ c hc
  obtain ⟨hname, hpoint⟩ := h c hc
  simp [continues, hname, isDigit_of_isNameChar hname, hpoint]

theorem ends_cons_of_isDigit {first : Char} {word rest : List Char} (hfirst : first.isDigit = true) :
    Ends (first :: word) rest ↔ ∀ c ∈ rest.head?, c.isDigit = false ∧ c ≠ '.' := by
  simp [Ends, continues, hfirst]

theorem ends_cons_of_isAlpha {first : Char} {word rest : List Char} (hfirst : first.isAlpha = true) :
    Ends (first :: word) rest ↔ ∀ c ∈ rest.head?, isNameChar c = false := by
  simp [Ends, continues, hfirst, isDigit_of_isAlpha hfirst]

theorem ends_of_isOperator {c : Char} (rest : List Char) (h : isOperator c = true) :
    Ends [c] rest := by
  have hname := isNameChar_of_isOperator h
  simp [Ends, continues, isDigit_of_isNameChar hname, isAlpha_of_isNameChar hname]

theorem ends_append {word front back : List Char} (h : Ends word front) (hback : Loose back) :
    Ends word (front ++ back) := by
  cases front with
  | nil => exact ends_of_loose hback
  | cons c rest => exact h

theorem Ends.front {word front back : List Char} (h : Ends word (front ++ back)) :
    Ends word front := by
  cases front with
  | nil => simp [Ends]
  | cons c front => exact h

/-- Whether a word ends is decided by the first character behind it. -/
theorem ends_congr {word front back back' : List Char} (h : Ends word (front ++ back))
    (hne : front ≠ []) : Ends word (front ++ back') := by
  obtain ⟨c, rest, rfl⟩ := List.exists_cons_of_ne_nil hne
  exact h

/-! ## Reading numbers -/

theorem isDigit_of_point (back : List Char) : ∀ x ∈ ('.' :: back).head?, x.isDigit = false := by
  intro x hx
  simp only [List.head?_cons, Option.mem_def, Option.some.injEq] at hx
  subst hx
  decide

/-- A number that ends is read as what it is. -/
theorem number_of_leaf {cur : Cursor} {c : Char} {word rest : List Char} {node : Node}
    (h : Leaf cur.line (c :: word) node) (hc : c.isDigit = true) (hends : Ends (c :: word) rest) :
    number cur (c :: word ++ rest) = .ok ⟨node, cur.past (c :: word), rest⟩ := by
  rw [ends_cons_of_isDigit hc] at hends
  have nodigit : ∀ x ∈ rest.head?, x.isDigit = false := fun x hx => (hends x hx).1
  have hname := isNameChar_of_isDigit hc
  cases h with
  | int h =>
      unfold number
      simp only [takeWhile_run h.2 nodigit, dropWhile_run h.2 nodigit]
      split
      · next behind => exact absurd rfl (hends '.' rfl).2
      · rfl
  | float h =>
      obtain ⟨whole, fraction, hwhole, hfraction, hword⟩ := h
      have hpoint := isDigit_of_point (fraction ++ rest)
      unfold number
      rw [hword, List.append_assoc, List.cons_append, takeWhile_run hwhole.2 hpoint,
        dropWhile_run hwhole.2 hpoint]
      simp only [takeWhile_run hfraction nodigit, dropWhile_run hfraction nodigit]
      split
      · next behind => exact absurd rfl (hends '.' rfl).2
      · rfl
  | operator h => simp [isNameChar_of_isOperator h] at hname
  | term h =>
      obtain ⟨first, tail, hfirst, -, hword⟩ := h
      simp only [List.cons.injEq] at hword
      simp [hword.1 ▸ isDigit_of_isAlpha hfirst] at hc

theorem isInteger_takeWhile {c : Char} (text : List Char) (hc : c.isDigit = true) :
    IsInteger ((c :: text).takeWhile Char.isDigit) := by
  refine ⟨?_, fun x hx => mem_takeWhile hx⟩
  rw [List.takeWhile_cons_of_pos hc]
  exact List.cons_ne_nil _ _

/-- What is read as a number is a leaf that ends. -/
theorem leaf_of_number {cur : Cursor} {c : Char} {text : List Char} {taken : Taken Node}
    (hc : c.isDigit = true) (h : number cur (c :: text) = .ok taken) :
    ∃ word, c :: text = word ++ taken.rest ∧ Leaf cur.line word taken.value
      ∧ Ends word taken.rest ∧ taken.cursor = cur.past word := by
  have hwhole := isInteger_takeWhile text hc
  have hsplit := List.takeWhile_append_dropWhile (p := Char.isDigit) (l := c :: text)
  have hstart : (c :: text).takeWhile Char.isDigit = c :: text.takeWhile Char.isDigit :=
    List.takeWhile_cons_of_pos hc
  unfold number at h
  split at h
  · next behind hbehind =>
      have hfraction : ∀ x ∈ behind.takeWhile Char.isDigit, x.isDigit = true :=
        fun x hx => mem_takeWhile hx
      have hsplit' := List.takeWhile_append_dropWhile (p := Char.isDigit) (l := behind)
      split at h
      · simp at h
      · next hpoint =>
          simp only [Except.ok.injEq] at h
          subst h
          refine ⟨_, ?_, .float ⟨_, _, hwhole, hfraction, rfl⟩, ?_, rfl⟩
          · simp only [List.append_assoc, List.cons_append, hsplit', ← hbehind, hsplit]
          · rw [hstart, List.cons_append, ends_cons_of_isDigit hc]
            intro x hx
            refine ⟨head?_dropWhile hx, ?_⟩
            rintro rfl
            obtain ⟨rest, hrest⟩ := List.head?_eq_some_iff.1 hx
            exact hpoint rest hrest
  · next hpoint =>
      simp only [Except.ok.injEq] at h
      subst h
      refine ⟨_, hsplit.symm, .int hwhole, ?_, rfl⟩
      rw [hstart, ends_cons_of_isDigit hc]
      intro x hx
      refine ⟨head?_dropWhile hx, ?_⟩
      rintro rfl
      obtain ⟨rest, hrest⟩ := List.head?_eq_some_iff.1 hx
      exact hpoint rest hrest

/-- The only trouble with a number is a second point. -/
theorem number_error {cur : Cursor} {c : Char} {text : List Char} {failure : Failure}
    (hc : c.isDigit = true) (h : number cur (c :: text) = .error failure) :
    ∃ word rest, c :: text = word ++ '.' :: rest ∧ IsDecimal word
      ∧ failure = .on (cur.past word) ['.'] .secondPoint := by
  have hsplit := List.takeWhile_append_dropWhile (p := Char.isDigit) (l := c :: text)
  unfold number at h
  split at h
  · next behind hbehind =>
      have hsplit' := List.takeWhile_append_dropWhile (p := Char.isDigit) (l := behind)
      split at h
      · next rest hrest =>
          simp only [Except.error.injEq] at h
          refine ⟨_, rest, ?_, ⟨_, _, isInteger_takeWhile text hc, fun x hx => mem_takeWhile hx, rfl⟩,
            h.symm⟩
          simp only [List.append_assoc, List.cons_append, ← hrest, hsplit', ← hbehind, hsplit]
      · simp at h
  · simp at h

/-- A second point is trouble whatever stands behind it. -/
theorem number_secondPoint {cur : Cursor} {word : List Char} (rest : List Char) (h : IsDecimal word) :
    number cur (word ++ '.' :: rest) = .error (.on (cur.past word) ['.'] .secondPoint) := by
  obtain ⟨whole, fraction, hwhole, hfraction, rfl⟩ := h
  have hpoint := isDigit_of_point (fraction ++ '.' :: rest)
  have hsecond := isDigit_of_point rest
  unfold number
  rw [List.append_assoc, List.cons_append, takeWhile_run hwhole.2 hpoint,
    dropWhile_run hwhole.2 hpoint]
  simp only [takeWhile_run hfraction hsecond, dropWhile_run hfraction hsecond]

/-! ## Reading heads -/

theorem skipBlanks_run (cur : Cursor) {blanks rest : List Char}
    (hblanks : ∀ c ∈ blanks, isBlank c = true) (hrest : ∀ c ∈ rest.head?, isBlank c = false) :
    skipBlanks cur (blanks ++ rest) = (cur.past blanks, rest) := by
  induction blanks generalizing cur with
  | nil =>
      cases rest with
      | nil => rfl
      | cons c rest =>
          have hc : isBlank c = false := hrest c rfl
          simp [skipBlanks, hc]
  | cons c blanks ih =>
      obtain ⟨hc, hblanks⟩ := List.forall_mem_cons.1 hblanks
      simp only [List.cons_append, skipBlanks, hc, if_true, ih _ hblanks, Cursor.past_cons]

/-- What is skipped is a run of blanks, and no blank follows it. -/
theorem exists_skipBlanks (cur : Cursor) (text : List Char) :
    ∃ blanks rest, text = blanks ++ rest ∧ (∀ c ∈ blanks, isBlank c = true)
      ∧ (∀ c ∈ rest.head?, isBlank c = false) ∧ skipBlanks cur text = (cur.past blanks, rest) := by
  have hblanks : ∀ c ∈ text.takeWhile isBlank, isBlank c = true := fun c hc => mem_takeWhile hc
  have hrest : ∀ c ∈ (text.dropWhile isBlank).head?, isBlank c = false :=
    fun c hc => head?_dropWhile hc
  have hsplit := List.takeWhile_append_dropWhile (p := isBlank) (l := text)
  refine ⟨_, _, hsplit.symm, hblanks, hrest, ?_⟩
  have hskip := skipBlanks_run cur hblanks hrest
  rwa [hsplit] at hskip

/-- A head that ends is read as what it is, past any blanks. -/
theorem head_of_leaf {beyond : Option Char} {cur : Cursor} {blanks word rest : List Char}
    {found : Head} (hblanks : ∀ c ∈ blanks, isBlank c = true)
    (hleaf : Leaf (cur.past blanks).line word found.toNode) (hends : Ends word rest) :
    head beyond cur (blanks ++ (word ++ rest)) = .ok ⟨found, cur.past (blanks ++ word), rest⟩ := by
  obtain ⟨first, tail, rfl, hfirst, -⟩ := leaf_start hleaf
  have hblank := isBlank_of_isStructural hfirst
  have hskip : skipBlanks cur (blanks ++ (first :: tail ++ rest))
      = (cur.past blanks, first :: tail ++ rest) :=
    skipBlanks_run cur hblanks (by simp [hblank])
  rw [head, hskip, List.cons_append, Cursor.past_append]
  cases found with
  | operator op =>
      cases hleaf with
      | operator hop => simp [hop]
  | term name =>
      cases hleaf with
      | term hname =>
          obtain ⟨_, _, halpha, hrun, hword⟩ := hname
          simp only [List.cons.injEq] at hword
          obtain ⟨rfl, rfl⟩ := hword
          rw [ends_cons_of_isAlpha halpha] at hends
          simp [isOperator_of_isNameChar (isNameChar_of_isAlpha halpha), halpha,
            takeWhile_run hrun hends, dropWhile_run hrun hends]

/-- What is read as a head is a leaf that ends, behind a run of blanks. -/
theorem leaf_of_head {beyond : Option Char} {cur : Cursor} {text : List Char} {taken : Taken Head}
    (h : head beyond cur text = .ok taken) :
    ∃ blanks word, text = blanks ++ (word ++ taken.rest) ∧ (∀ c ∈ blanks, isBlank c = true)
      ∧ Leaf (cur.past blanks).line word taken.value.toNode ∧ Ends word taken.rest
      ∧ taken.cursor = cur.past (blanks ++ word) := by
  obtain ⟨blanks, rest, rfl, hblanks, -, hskip⟩ := exists_skipBlanks cur text
  rw [head, hskip] at h
  cases rest with
  | nil => simp at h
  | cons c rest =>
      simp only at h
      split at h
      · next hop =>
          simp only [Except.ok.injEq] at h
          subst h
          refine ⟨blanks, [c], rfl, hblanks, .operator hop, ends_of_isOperator rest hop, ?_⟩
          rw [Cursor.past_append]
          rfl
      · split at h
        · next halpha =>
            simp only [Except.ok.injEq] at h
            subst h
            have hname : IsName (c :: rest.takeWhile isNameChar) :=
              ⟨c, _, halpha, fun x hx => mem_takeWhile hx, rfl⟩
            refine ⟨blanks, _, ?_, hblanks, .term hname, ?_, (Cursor.past_append _ _ _).symm⟩
            · simp only [List.cons_append, List.takeWhile_append_dropWhile]
            · rw [ends_cons_of_isAlpha halpha]
              exact fun x hx => head?_dropWhile hx
        · simp at h

/-- There is no head where the text is exhausted or goes on with a character that starts none. -/
theorem head_error {beyond : Option Char} {cur : Cursor} {text : List Char} {failure : Failure}
    (h : head beyond cur text = .error failure) :
    ∃ blanks rest, text = blanks ++ rest ∧ (∀ c ∈ blanks, isBlank c = true)
      ∧ (∀ c ∈ rest.head?, isBlank c = false ∧ isOperator c = false ∧ c.isAlpha = false)
      ∧ failure = .unexpected (cur.past blanks) (rest.head?.or beyond) := by
  obtain ⟨blanks, rest, rfl, hblanks, hrest, hskip⟩ := exists_skipBlanks cur text
  refine ⟨blanks, rest, rfl, hblanks, ?_⟩
  rw [head, hskip] at h
  cases rest with
  | nil =>
      simp only [Except.error.injEq] at h
      exact ⟨by simp, h.symm⟩
  | cons c rest =>
      simp only at h
      split at h
      · simp at h
      · next hop =>
          split at h
          · simp at h
          · next halpha =>
              simp only [Except.error.injEq] at h
              have hblank : isBlank c = false := hrest c rfl
              exact ⟨by simp [hblank, hop, halpha], h.symm⟩

theorem head_unexpected {beyond : Option Char} {cur : Cursor} {blanks rest : List Char}
    (hblanks : ∀ c ∈ blanks, isBlank c = true)
    (hrest : ∀ c ∈ rest.head?, isBlank c = false ∧ isOperator c = false ∧ c.isAlpha = false) :
    head beyond cur (blanks ++ rest)
      = .error (.unexpected (cur.past blanks) (rest.head?.or beyond)) := by
  rw [head, skipBlanks_run cur hblanks fun c hc => (hrest c hc).1]
  cases rest with
  | nil => rfl
  | cons c rest =>
      obtain ⟨-, hop, halpha⟩ := hrest c rfl
      simp [hop, halpha]

/-! ## Reading entries -/

/-- The entry that is written as the word when it stands on this line. -/
inductive EntryWord (line : Nat) : List Char → Param → Prop where
  | intro {name type : List Char} (hname : IsName name) (htype : IsName type) :
      EntryWord line (name ++ ':' :: type)
        ⟨line, ⟨line, String.ofList name⟩, ⟨line, String.ofList type⟩⟩

/-- The word of an entry stops in front of the text. -/
def EntryEnds (rest : List Char) : Prop := ∀ c ∈ rest.head?, isEntryChar c = false

theorem EntryEnds.front {front back : List Char} (h : EntryEnds (front ++ back)) :
    EntryEnds front := by
  cases front with
  | nil => simp [EntryEnds]
  | cons c front => exact h

theorem entryEnds_append {front back : List Char} (h : EntryEnds front) (hback : EntryEnds back) :
    EntryEnds (front ++ back) := by
  cases front with
  | nil => exact hback
  | cons c front => exact h

theorem isNameChar_of_isName {word : List Char} (h : IsName word) :
    ∀ c ∈ word, isNameChar c = true := by
  obtain ⟨first, rest, hfirst, hrest, rfl⟩ := h
  exact List.forall_mem_cons.2 ⟨isNameChar_of_isAlpha hfirst, hrest⟩

theorem colon_notMem_of_isName {word : List Char} (h : IsName word) : ':' ∉ word :=
  fun hc => absurd (isNameChar_of_isName h ':' hc) (by decide)

theorem entryWord_chars {line : Nat} {word : List Char} {param : Param}
    (h : EntryWord line word param) :
    ∃ first rest, word = first :: rest ∧ first.isAlpha = true
      ∧ ∀ c ∈ rest, isEntryChar c = true := by
  cases h with
  | intro hname htype =>
      have htypeRun := isNameChar_of_isName htype
      obtain ⟨first, rest, hfirst, hrest, rfl⟩ := hname
      refine ⟨first, _, rfl, hfirst, ?_⟩
      intro c hc
      rcases List.mem_append.1 hc with hc | hc
      · simp [isEntryChar, hrest c hc]
      · rcases List.mem_cons.1 hc with rfl | hc
        · decide
        · simp [isEntryChar, htypeRun c hc]

theorem entryWord_plain {line : Nat} {word : List Char} {param : Param}
    (h : EntryWord line word param) : ∀ c ∈ word, isStructural c = false := by
  obtain ⟨first, rest, rfl, hfirst, hrest⟩ := entryWord_chars h
  refine List.forall_mem_cons.2 ⟨isStructural_of_isNameChar (isNameChar_of_isAlpha hfirst), ?_⟩
  intro c hc
  have hentry := hrest c hc
  simp only [isEntryChar, Bool.or_eq_true, beq_iff_eq] at hentry
  rcases hentry with hname | rfl
  · exact isStructural_of_isNameChar hname
  · decide

/-- A word has no colon, or one between two sides, or more than one. -/
theorem splitOn_colon_cases (word : List Char) :
    word.splitOn ':' = [word]
      ∨ (∃ name type, word = name ++ ':' :: type ∧ ':' ∉ name ∧ ':' ∉ type
          ∧ word.splitOn ':' = [name, type])
      ∨ ∃ a b c more, word.splitOn ':' = a :: b :: c :: more := by
  by_cases hword : ':' ∈ word
  · obtain ⟨name, type, rfl, hname⟩ := List.eq_append_cons_of_mem hword
    have hsplit := List.splitOn_append_cons_self_of_not_mem hname type
    by_cases htype : ':' ∈ type
    · obtain ⟨front, back, rfl, hfront⟩ := List.eq_append_cons_of_mem htype
      rw [List.splitOn_append_cons_self_of_not_mem hfront back] at hsplit
      obtain ⟨c, more, hback⟩ := List.exists_cons_of_ne_nil (List.splitOn_ne_nil ':' back)
      exact Or.inr (Or.inr ⟨name, front, c, more, by rw [hsplit, hback]⟩)
    · rw [List.splitOn_eq_singleton htype] at hsplit
      exact Or.inr (Or.inl ⟨name, type, rfl, hname, htype, hsplit⟩)
  · exact Or.inl (List.splitOn_eq_singleton hword)

theorem entryOfWord_of_entryWord {cur : Cursor} {word : List Char} {param : Param}
    (h : EntryWord cur.line word param) : entryOfWord cur word = .ok param := by
  cases h with
  | @intro name type hname htype =>
      have hsplit : (name ++ ':' :: type).splitOn ':' = [name, type] := by
        rw [List.splitOn_append_cons_self_of_not_mem (colon_notMem_of_isName hname),
          List.splitOn_eq_singleton (colon_notMem_of_isName htype)]
      obtain ⟨first, rest, -, -, rfl⟩ := hname
      obtain ⟨first', rest', halpha, -, rfl⟩ := htype
      rw [entryOfWord, hsplit]
      simp [halpha]

/-- The two sides of a word whose only colon has something on both sides. -/
structure EntrySides (word name type : List Char) : Prop where
  eq : word = name ++ ':' :: type
  name : IsName name
  type_ne : type ≠ []
  chars : ∀ c ∈ type, isNameChar c = true

theorem entrySides_of_split {first : Char} {rest name type : List Char}
    (hfirst : isEntryStart first = true) (hrest : ∀ c ∈ rest, isEntryChar c = true)
    (heq : first :: rest = name ++ ':' :: type) (hname : ':' ∉ name) (htype : ':' ∉ type)
    (hne : (name.isEmpty || type.isEmpty) = false) : EntrySides (first :: rest) name type := by
  simp only [Bool.or_eq_false_iff, List.isEmpty_eq_false_iff] at hne
  obtain ⟨d, tail, rfl⟩ := List.exists_cons_of_ne_nil hne.1
  obtain ⟨rfl, hrun⟩ : first = d ∧ rest = tail ++ ':' :: type := List.cons.inj heq
  subst hrun
  have plain : ∀ {run : List Char}, (∀ c ∈ run, isEntryChar c = true) → ':' ∉ run →
      ∀ c ∈ run, isNameChar c = true := by
    intro run hrun hcolon c hc
    have hentry := hrun c hc
    have hne : c ≠ ':' := fun heq => hcolon (heq ▸ hc)
    simpa [isEntryChar, hne] using hentry
  have halpha : first.isAlpha = true := by
    have hne : first ≠ ':' := fun heq => hname (by simp [heq])
    simpa [isEntryStart, hne] using hfirst
  have htail : ∀ c ∈ tail, isNameChar c = true :=
    plain (fun c hc => hrest c (by simp [hc])) fun hc => hname (by simp [hc])
  exact ⟨heq, ⟨first, tail, halpha, htail, rfl⟩, hne.2,
    plain (fun c hc => hrest c (by simp [hc])) htype⟩

/-- What a word is taken for is an entry that is written this way. -/
theorem entryWord_of_entryOfWord {cur : Cursor} {first : Char} {rest : List Char} {param : Param}
    (hfirst : isEntryStart first = true) (hrest : ∀ c ∈ rest, isEntryChar c = true)
    (h : entryOfWord cur (first :: rest) = .ok param) :
    EntryWord cur.line (first :: rest) param := by
  rcases splitOn_colon_cases (first :: rest) with
    hsplit | ⟨name, type, heq, hname, htype, hsplit⟩ | ⟨_, _, _, _, hsplit⟩
  · simp [entryOfWord, hsplit] at h
  · rw [entryOfWord, hsplit] at h
    simp only at h
    split at h
    · simp at h
    · next hne =>
        split at h
        · next halpha =>
            simp only [Except.ok.injEq] at h
            subst h
            have sides := entrySides_of_split hfirst hrest heq hname htype (Bool.eq_false_iff.2 hne)
            obtain ⟨first', rest', rfl⟩ := List.exists_cons_of_ne_nil sides.type_ne
            have hchars := (List.forall_mem_cons.1 sides.chars).2
            rw [heq]
            exact ⟨sides.name, first', rest', by simpa using halpha, hchars, rfl⟩
        · simp at h
  · simp [entryOfWord, hsplit] at h

/-- The trouble with a word lies in the whole of it, or in a type that does not start with a
    letter. -/
theorem entryOfWord_error {cur : Cursor} {first : Char} {rest : List Char} {failure : Failure}
    (hfirst : isEntryStart first = true) (hrest : ∀ c ∈ rest, isEntryChar c = true)
    (h : entryOfWord cur (first :: rest) = .error failure) :
    (∃ problem ∈ [.missingColon (first :: rest), .tooManyColons, .missingSide (first :: rest)],
        failure = .on cur (first :: rest) problem)
      ∨ ∃ name type, EntrySides (first :: rest) name type
        ∧ failure = .on ((cur.past name).step ':') type (.badType type) := by
  rcases splitOn_colon_cases (first :: rest) with
    hsplit | ⟨name, type, heq, hname, htype, hsplit⟩ | ⟨_, _, _, _, hsplit⟩
  · rw [entryOfWord, hsplit] at h
    simp only [Except.error.injEq] at h
    exact Or.inl ⟨_, by simp, h.symm⟩
  · rw [entryOfWord, hsplit] at h
    simp only at h
    split at h
    · simp only [Except.error.injEq] at h
      exact Or.inl ⟨_, by simp, h.symm⟩
    · next hne =>
        split at h
        · simp at h
        · simp only [Except.error.injEq] at h
          have sides := entrySides_of_split hfirst hrest heq hname htype (Bool.eq_false_iff.2 hne)
          exact Or.inr ⟨name, type, sides, h.symm⟩
  · rw [entryOfWord, hsplit] at h
    simp only [Except.error.injEq] at h
    exact Or.inl ⟨_, by simp, h.symm⟩

/-- An entry that ends is read as what it is. -/
theorem entry_of_entryWord {cur : Cursor} {c : Char} {word rest : List Char} {param : Param}
    (h : EntryWord cur.line (c :: word) param) (hends : EntryEnds rest) :
    entry cur c (word ++ rest) = .ok ⟨param, cur.past (c :: word), rest⟩ := by
  obtain ⟨first, tail, heq, halpha, hrun⟩ := entryWord_chars h
  obtain ⟨rfl, rfl⟩ := List.cons.inj heq
  have hstart : isEntryStart c = true := by simp [isEntryStart, halpha]
  rw [entry, if_pos hstart, takeWhile_run hrun hends, dropWhile_run hrun hends,
    entryOfWord_of_entryWord h]

/-- What is read as an entry is the word of one that ends. -/
theorem entryWord_of_entry {cur : Cursor} {c : Char} {text : List Char} {taken : Taken Param}
    (h : entry cur c text = .ok taken) :
    ∃ word, text = word ++ taken.rest ∧ EntryWord cur.line (c :: word) taken.value
      ∧ EntryEnds taken.rest ∧ taken.cursor = cur.past (c :: word) := by
  unfold entry at h
  split at h
  · next hstart =>
      split at h
      · simp at h
      · next param hparam =>
          simp only [Except.ok.injEq] at h
          subst h
          exact ⟨_, List.takeWhile_append_dropWhile.symm,
            entryWord_of_entryOfWord hstart (fun x hx => mem_takeWhile hx) hparam,
            fun x hx => head?_dropWhile hx, rfl⟩
  · simp at h

end DefForms.Reader
