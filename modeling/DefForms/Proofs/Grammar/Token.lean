import DefForms.Proofs.Reader.Word

set_option autoImplicit false

/-! # Tokens

The tokens of a program and the division of a text into them. At each place the longest token is taken
(`Longest`), and nothing but spaces and line ends stands between two tokens. Entries of parameter
lists are tokens only between brackets, so the division keeps track of the last bracket.

Where the longest token ends can be said without comparing it with all others: at the first character
that does not belong to it (`longest_of_ends`, `ends_of_longest`). -/

namespace DefForms.Grammar

open DefForms.Reader

/-- A token of a program. -/
inductive Token where
  | callStart
  | callEnd
  | listStart
  | listEnd
  | operator (symbol : Char)
  | number (text : List Char)
  | term (text : List Char)
  | entry (name type : List Char)

namespace Token

def text : Token → List Char
  | .callStart => ['(']
  | .callEnd => [')']
  | .listStart => ['[']
  | .listEnd => [']']
  | .operator symbol => [symbol]
  | .number text => text
  | .term text => text
  | .entry name type => name ++ ':' :: type

/-- The token can stand at a place that is between brackets or not. -/
def Legal (between : Bool) : Token → Prop
  | .callStart | .callEnd | .listStart | .listEnd => True
  | .operator symbol => symbol ∈ Operator.symbols
  | .number text => IsInteger text ∨ IsDecimal text
  | .term text => IsName text
  | .entry name type => between = true ∧ IsName name ∧ IsName type

/-- Whether the place behind the token is between brackets. -/
def leaves (between : Bool) : Token → Bool
  | .listStart => true
  | .listEnd => false
  | _ => between

end Token

/-- No longer token than `token` stands at the front of `token.text ++ rest`. -/
structure Longest (between : Bool) (token : Token) (rest : List Char) : Prop where
  legal : token.Legal between
  longest : ∀ other : Token, other.Legal between → other.text <+: token.text ++ rest →
    other.text.length ≤ token.text.length

/-- The text is divided into these tokens, the first of which stands between brackets or not. -/
inductive Splits : Bool → List Char → List Token → Prop where
  | nil (between : Bool) : Splits between [] []
  | blank {between : Bool} {c : Char} {rest : List Char} {tokens : List Token}
      (hc : isBlank c = true) (hrest : Splits between rest tokens) :
      Splits between (c :: rest) tokens
  | token {between : Bool} {token : Token} {rest : List Char} {tokens : List Token}
      (hlongest : Longest between token rest) (hrest : Splits (token.leaves between) rest tokens) :
      Splits between (token.text ++ rest) (token :: tokens)

/-! ## The characters of a token -/

theorem isOperator_of_mem {c : Char} (h : c ∈ Operator.symbols) : isOperator c = true :=
  List.contains_iff_mem.2 h

theorem number_chars {word : List Char} (h : IsInteger word ∨ IsDecimal word) :
    ∃ first rest, word = first :: rest ∧ first.isDigit = true
      ∧ ∀ c ∈ rest, c.isDigit = true ∨ c = '.' := by
  rcases h with ⟨hne, hdigits⟩ | ⟨whole, fraction, ⟨hne, hdigits⟩, hfraction, rfl⟩
  · obtain ⟨first, rest, rfl⟩ := List.exists_cons_of_ne_nil hne
    obtain ⟨hfirst, hrest⟩ := List.forall_mem_cons.1 hdigits
    exact ⟨first, rest, rfl, hfirst, fun c hc => Or.inl (hrest c hc)⟩
  · obtain ⟨first, rest, rfl⟩ := List.exists_cons_of_ne_nil hne
    obtain ⟨hfirst, hrest⟩ := List.forall_mem_cons.1 hdigits
    refine ⟨first, _, rfl, hfirst, ?_⟩
    intro c hc
    rcases List.mem_append.1 hc with hc | hc
    · exact Or.inl (hrest c hc)
    · rcases List.mem_cons.1 hc with rfl | hc
      · exact Or.inr rfl
      · exact Or.inl (hfraction c hc)

/-- A token is a delimiter or an operator alone, or a digit or a letter with what may follow it. -/
theorem Token.text_cases {between : Bool} {token : Token} (h : token.Legal between) :
    ∃ first rest, token.text = first :: rest ∧ isBlank first = false ∧
      ((rest = [] ∧ isNameChar first = false ∧ first ≠ '.' ∧ first ≠ ':')
        ∨ (first.isDigit = true ∧ ∀ c ∈ rest, c.isDigit = true ∨ c = '.')
        ∨ (first.isAlpha = true ∧ ∀ c ∈ rest, isNameChar c = true ∨ between = true ∧ c = ':')) := by
  have plain : ∀ {c : Char}, isNameChar c = true → isBlank c = false :=
    fun hname => isBlank_of_isStructural (isStructural_of_isNameChar hname)
  cases token with
  | callStart => exact ⟨_, [], rfl, by decide, Or.inl (by decide)⟩
  | callEnd => exact ⟨_, [], rfl, by decide, Or.inl (by decide)⟩
  | listStart => exact ⟨_, [], rfl, by decide, Or.inl (by decide)⟩
  | listEnd => exact ⟨_, [], rfl, by decide, Or.inl (by decide)⟩
  | operator symbol =>
      have hop := isOperator_of_mem h
      refine ⟨symbol, [], rfl, isBlank_of_isStructural (isStructural_of_isOperator hop),
        Or.inl ⟨rfl, isNameChar_of_isOperator hop, ?_, ?_⟩⟩ <;>
        · rintro rfl
          simp [isOperator, Operator.symbols] at hop
  | number text =>
      obtain ⟨first, rest, rfl, hfirst, hrest⟩ := number_chars h
      exact ⟨first, rest, rfl, plain (isNameChar_of_isDigit hfirst), Or.inr (Or.inl ⟨hfirst, hrest⟩)⟩
  | term text =>
      obtain ⟨first, rest, hfirst, hrest, rfl⟩ := h
      exact ⟨first, rest, rfl, plain (isNameChar_of_isAlpha hfirst),
        Or.inr (Or.inr ⟨hfirst, fun c hc => Or.inl (hrest c hc)⟩)⟩
  | entry name type =>
      obtain ⟨hbetween, ⟨first, rest, hfirst, hrest, rfl⟩, htype⟩ := h
      refine ⟨first, rest ++ ':' :: type, rfl, plain (isNameChar_of_isAlpha hfirst),
        Or.inr (Or.inr ⟨hfirst, ?_⟩)⟩
      intro c hc
      rcases List.mem_append.1 hc with hc | hc
      · exact Or.inl (hrest c hc)
      · rcases List.mem_cons.1 hc with rfl | hc
        · exact Or.inr ⟨hbetween, rfl⟩
        · exact Or.inl (isNameChar_of_isName htype c hc)

/-- A text that is divided into tokens starts neither with a point nor with a colon. -/
theorem splits_start {between : Bool} {text : List Char} {tokens : List Token}
    (h : Splits between text tokens) : ∀ c ∈ text.head?, c ≠ '.' ∧ c ≠ ':' := by
  intro c hc
  cases h with
  | nil => simp at hc
  | blank hblank _ =>
      obtain rfl : _ = c := by simpa using hc
      exact ⟨ne_of_isBlank hblank (by decide), ne_of_isBlank hblank (by decide)⟩
  | token hlongest _ =>
      obtain ⟨first, rest, htext, -, hcases⟩ := Token.text_cases hlongest.legal
      rw [htext] at hc
      obtain rfl : first = c := by simpa using hc
      have ne_of_name : isNameChar first = true → first ≠ '.' ∧ first ≠ ':' := by
        intro hname
        constructor <;>
          · rintro rfl
            simp [isNameChar] at hname
      rcases hcases with ⟨-, -, hpoint, hcolon⟩ | ⟨hdigit, -⟩ | ⟨halpha, -⟩
      · exact ⟨hpoint, hcolon⟩
      · exact ne_of_name (isNameChar_of_isDigit hdigit)
      · exact ne_of_name (isNameChar_of_isAlpha halpha)

/-! ## Where the longest token ends -/

/-- A token is the longest one if the character behind it cannot follow its first one. -/
theorem longest_of_stop {between : Bool} {token : Token} {first : Char} {tail rest : List Char}
    (hlegal : token.Legal between) (htext : token.text = first :: tail)
    (hdigit : first.isDigit = true → ∀ d ∈ rest.head?, d.isDigit = false ∧ d ≠ '.')
    (halpha : first.isAlpha = true → ∀ d ∈ rest.head?, isNameChar d = false
      ∧ (between = true → d ≠ ':')) : Longest between token rest := by
  refine ⟨hlegal, ?_⟩
  intro other hother hle
  rcases Nat.lt_or_ge token.text.length other.text.length with hlt | hge
  · exfalso
    obtain ⟨more, hmore⟩ := List.prefix_of_prefix_length_le (List.prefix_append token.text rest)
      hle (Nat.le_of_lt hlt)
    -- the character of `other` behind `token`
    cases more with
    | nil => simp [← hmore] at hlt
    | cons d more =>
        have hd : d ∈ rest.head? := by
          rw [← hmore, List.prefix_append_right_inj] at hle
          obtain ⟨_, rfl⟩ := hle
          rfl
        obtain ⟨first', rest', htext', -, hcases⟩ := Token.text_cases hother
        rw [← hmore, htext, List.cons_append] at htext'
        obtain ⟨rfl, rfl⟩ := List.cons.inj htext'
        rcases hcases with ⟨hnil, -⟩ | ⟨hfirst, hrun⟩ | ⟨hfirst, hrun⟩
        · simp at hnil
        · rcases hrun d (by simp) with hd' | hd'
          · simp [(hdigit hfirst d hd).1] at hd'
          · exact (hdigit hfirst d hd).2 hd'
        · rcases hrun d (by simp) with hd' | ⟨hbetween, hd'⟩
          · simp [(halpha hfirst d hd).1] at hd'
          · exact (halpha hfirst d hd).2 hbetween hd'
  · exact hge

/-- Outside of brackets, a token that ends is the longest one. -/
theorem longest_of_ends {token : Token} {rest : List Char} (hlegal : token.Legal false)
    (hends : Ends token.text rest) : Longest false token rest := by
  obtain ⟨first, tail, htext, -⟩ := Token.text_cases hlegal
  rw [htext] at hends
  refine longest_of_stop hlegal htext (fun hfirst => (ends_cons_of_isDigit hfirst).1 hends) ?_
  intro hfirst d hd
  exact ⟨(ends_cons_of_isAlpha hfirst).1 hends d hd, by simp⟩

/-- A delimiter is always the longest token. -/
theorem longest_delimiter {between : Bool} {token : Token} {c : Char} {rest : List Char}
    (hlegal : token.Legal between) (htext : token.text = [c]) (hc : isNameChar c = false) :
    Longest between token rest := by
  refine longest_of_stop hlegal htext ?_ ?_
  · intro hdigit
    simp [isDigit_of_isNameChar hc] at hdigit
  · intro halpha
    simp [isAlpha_of_isNameChar hc] at halpha

/-- Between brackets, an entry that ends is the longest token. -/
theorem longest_entry {name type rest : List Char} (hname : IsName name) (htype : IsName type)
    (hends : EntryEnds rest) : Longest true (.entry name type) rest := by
  have hlegal : Token.Legal true (.entry name type) := ⟨rfl, hname, htype⟩
  obtain ⟨first, tail, hfirst, -, rfl⟩ := hname
  refine longest_of_stop hlegal rfl ?_ ?_
  · intro hdigit
    simp [isDigit_of_isAlpha hfirst] at hdigit
  · intro _ d hd
    have hd := hends d hd
    simp only [isEntryChar, Bool.or_eq_false_iff, beq_eq_false_iff_ne] at hd
    exact ⟨hd.1, fun _ => hd.2⟩

theorem number_longer {text : List Char} {d : Char} (h : IsInteger text ∨ IsDecimal text)
    (hd : d.isDigit = true) : IsInteger (text ++ [d]) ∨ IsDecimal (text ++ [d]) := by
  have snoc : ∀ {run : List Char}, (∀ c ∈ run, c.isDigit = true) →
      ∀ c ∈ run ++ [d], c.isDigit = true := by
    intro run hrun c hc
    rcases List.mem_append.1 hc with hc | hc
    · exact hrun c hc
    · exact List.mem_singleton.1 hc ▸ hd
  rcases h with ⟨-, hdigits⟩ | ⟨whole, fraction, hwhole, hfraction, rfl⟩
  · exact Or.inl ⟨by simp, snoc hdigits⟩
  · exact Or.inr ⟨whole, fraction ++ [d], hwhole, snoc hfraction, by simp⟩

theorem name_longer {text : List Char} {d : Char} (h : IsName text) (hd : isNameChar d = true) :
    IsName (text ++ [d]) := by
  obtain ⟨first, rest, hfirst, hrest, rfl⟩ := h
  refine ⟨first, rest ++ [d], hfirst, ?_, rfl⟩
  intro c hc
  rcases List.mem_append.1 hc with hc | hc
  · exact hrest c hc
  · exact List.mem_singleton.1 hc ▸ hd

/-- A token that could be written one character longer is not the longest one. -/
theorem Longest.false_of_longer {between : Bool} {token : Token} {d : Char} {rest : List Char}
    (other : Token) (h : Longest between token (d :: rest)) (hother : other.Legal between)
    (htext : other.text = token.text ++ [d]) : False := by
  have hle := h.longest other hother ⟨rest, by rw [htext]; simp⟩
  rw [htext, List.length_append, List.length_singleton] at hle
  omega

/-- Outside of brackets, the longest token ends, unless a point is behind it. -/
theorem ends_of_longest {token : Token} {rest : List Char} (h : Longest false token rest)
    (hpoint : ∀ d ∈ rest.head?, d ≠ '.') : Ends token.text rest := by
  cases rest with
  | nil => simp [Ends]
  | cons d rest =>
      have hd : d ≠ '.' := hpoint d rfl
      have hlegal := h.legal
      cases token with
      | callStart => simp [Ends, Token.text, continues]
      | callEnd => simp [Ends, Token.text, continues]
      | listStart => simp [Ends, Token.text, continues]
      | listEnd => simp [Ends, Token.text, continues]
      | operator symbol => exact ends_of_isOperator _ (isOperator_of_mem hlegal)
      | number text =>
          have hdigit : d.isDigit = false := by
            apply Bool.eq_false_iff.2
            intro hdigit
            exact h.false_of_longer (.number (text ++ [d])) (number_longer hlegal hdigit) rfl
          obtain ⟨first, tail, rfl, hfirst, -⟩ := number_chars hlegal
          rw [Token.text, ends_cons_of_isDigit hfirst]
          simp [hdigit, hd]
      | term text =>
          have hname : isNameChar d = false := by
            apply Bool.eq_false_iff.2
            intro hname
            exact h.false_of_longer (.term (text ++ [d])) (name_longer hlegal hname) rfl
          obtain ⟨first, tail, hfirst, -, rfl⟩ := hlegal
          rw [Token.text, ends_cons_of_isAlpha hfirst]
          simp [hname]
      | entry name type => simp [Token.Legal] at hlegal

/-- Between brackets, an entry that is the longest token ends, unless a colon is behind it. -/
theorem entryEnds_of_longest {name type rest : List Char}
    (h : Longest true (.entry name type) rest) (hcolon : ∀ d ∈ rest.head?, d ≠ ':') :
    EntryEnds rest := by
  intro d hd
  have hne : d ≠ ':' := hcolon d hd
  obtain ⟨rest, rfl⟩ := List.head?_eq_some_iff.1 hd
  obtain ⟨-, hname, htype⟩ := h.legal
  have hchar : isNameChar d = false := by
    apply Bool.eq_false_iff.2
    intro hchar
    have hother : Token.Legal true (.entry name (type ++ [d])) :=
      ⟨rfl, hname, name_longer htype hchar⟩
    exact h.false_of_longer _ hother (by simp [Token.text])
  simp [isEntryChar, hchar, hne]

/-! ## The division of a text -/

/-- A text without tokens consists of blanks. -/
theorem splits_nil {between : Bool} {text : List Char} (h : Splits between text []) :
    ∀ c ∈ text, isBlank c = true := by
  generalize htokens : [] = tokens at h
  induction h with
  | nil => simp
  | blank hc _ ih => exact List.forall_mem_cons.2 ⟨hc, ih htokens⟩
  | token => simp at htokens

theorem splits_blanks {between : Bool} {blanks rest : List Char} {tokens : List Token}
    (hblanks : ∀ c ∈ blanks, isBlank c = true) (h : Splits between rest tokens) :
    Splits between (blanks ++ rest) tokens := by
  induction blanks with
  | nil => exact h
  | cons c blanks ih =>
      obtain ⟨hc, hblanks⟩ := List.forall_mem_cons.1 hblanks
      exact .blank hc (ih hblanks)

theorem splits_delimiter {between : Bool} {c : Char} {rest : List Char} {tokens : List Token}
    (token : Token) (hlegal : token.Legal between) (htext : token.text = [c])
    (hc : isNameChar c = false) (hrest : Splits (token.leaves between) rest tokens) :
    Splits between (c :: rest) (token :: tokens) := by
  have h := Splits.token (longest_delimiter hlegal htext hc) hrest
  rwa [htext] at h

/-- The first token of a text stands behind a run of blanks. -/
theorem splits_cons {between : Bool} {text : List Char} {token : Token} {tokens : List Token}
    (h : Splits between text (token :: tokens)) :
    ∃ blanks rest, text = blanks ++ (token.text ++ rest) ∧ (∀ c ∈ blanks, isBlank c = true)
      ∧ Longest between token rest ∧ Splits (token.leaves between) rest tokens := by
  generalize htokens : token :: tokens = all at h
  induction h with
  | nil => simp at htokens
  | @blank between c rest all hc _ ih =>
      obtain ⟨blanks, rest, rfl, hblanks, hlongest, hrest⟩ := ih htokens
      exact ⟨c :: blanks, rest, rfl, List.forall_mem_cons.2 ⟨hc, hblanks⟩, hlongest, hrest⟩
  | token hlongest hrest =>
      obtain ⟨rfl, rfl⟩ := List.cons.inj htokens
      exact ⟨[], _, rfl, by simp, hlongest, hrest⟩

/-! ## There is only one division -/

/-- The token that is written as the text. -/
def Token.ofText : List Char → Token
  | [] => .callEnd
  | first :: rest =>
    if first = '(' then .callStart
    else if first = ')' then .callEnd
    else if first = '[' then .listStart
    else if first = ']' then .listEnd
    else if isOperator first then .operator first
    else if first.isDigit then .number (first :: rest)
    else if ':' ∈ first :: rest then
      .entry ((first :: rest).takeWhile (· != ':')) (((first :: rest).dropWhile (· != ':')).drop 1)
    else .term (first :: rest)

/-- A token can be told from its text. -/
theorem Token.ofText_text {between : Bool} {token : Token} (h : token.Legal between) :
    Token.ofText token.text = token := by
  have plain : ∀ {first : Char}, isNameChar first = true →
      first ≠ '(' ∧ first ≠ ')' ∧ first ≠ '[' ∧ first ≠ ']' := by
    intro first hname
    have hfirst := isStructural_of_isNameChar hname
    refine ⟨?_, ?_, ?_, ?_⟩ <;> exact ne_of_isStructural hfirst (by decide)
  cases token with
  | callStart => rfl
  | callEnd => rfl
  | listStart => rfl
  | listEnd => rfl
  | operator symbol =>
      have hop := isOperator_of_mem h
      have hstructural := isStructural_of_isOperator hop
      have hdelimiter : ∀ d, isStructural d = true → symbol ≠ d :=
        fun d hd => ne_of_isStructural hstructural hd
      simp [Token.text, Token.ofText, hop, hdelimiter '(' (by decide), hdelimiter ')' (by decide),
        hdelimiter '[' (by decide), hdelimiter ']' (by decide)]
  | number text =>
      obtain ⟨first, rest, rfl, hfirst, -⟩ := number_chars h
      have hname := isNameChar_of_isDigit hfirst
      simp [Token.text, Token.ofText, plain hname, isOperator_of_isNameChar hname, hfirst]
  | term text =>
      have hcolon := colon_notMem_of_isName h
      obtain ⟨first, rest, hfirst, -, rfl⟩ := h
      have hname := isNameChar_of_isAlpha hfirst
      rw [Token.text, Token.ofText, if_neg hcolon]
      simp [plain hname, isOperator_of_isNameChar hname, isDigit_of_isAlpha hfirst]
  | entry name type =>
      obtain ⟨-, hname, -⟩ := h
      have hstop : ∀ c ∈ name, (c != ':') = true := fun c hc =>
        bne_iff_ne.2 fun heq => colon_notMem_of_isName hname (heq ▸ hc)
      have hcolon : ∀ c ∈ (':' :: type).head?, (c != ':') = false := by simp
      have htake := takeWhile_run hstop hcolon
      have hdrop := dropWhile_run hstop hcolon
      obtain ⟨first, rest, hfirst, -, rfl⟩ := hname
      have hname := isNameChar_of_isAlpha hfirst
      have hmem : ':' ∈ first :: (rest ++ ':' :: type) := by simp
      rw [List.cons_append] at htake hdrop
      rw [Token.text, List.cons_append, Token.ofText, if_pos hmem, htake, hdrop]
      simp [plain hname, isOperator_of_isNameChar hname, isDigit_of_isAlpha hfirst]

/-- Only one token is the longest one at the front of a text. -/
theorem Longest.unique {between : Bool} {token token' : Token} {rest rest' : List Char}
    (h : Longest between token rest) (h' : Longest between token' rest')
    (htext : token.text ++ rest = token'.text ++ rest') : token = token' ∧ rest = rest' := by
  have hle := h'.longest token h.legal (htext ▸ List.prefix_append _ _)
  have hge := h.longest token' h'.legal (htext ▸ List.prefix_append _ _)
  obtain ⟨hsame, hrest⟩ := List.append_inj htext (Nat.le_antisymm hle hge)
  refine ⟨?_, hrest⟩
  rw [← Token.ofText_text h.legal, hsame, Token.ofText_text h'.legal]

/-- There is at most one way to divide a text into tokens. -/
theorem splits_unique {between : Bool} {text : List Char} {tokens tokens' : List Token}
    (h : Splits between text tokens) (h' : Splits between text tokens') : tokens = tokens' := by
  -- a blank and a token never stand at the same place
  have start : ∀ {between : Bool} {token : Token} {c : Char} {text rest : List Char},
      token.Legal between → isBlank c = true → token.text ++ rest ≠ c :: text := by
    intro between token c text rest hlegal hc heq
    obtain ⟨first, tail, htext, hfirst, -⟩ := Token.text_cases hlegal
    rw [htext] at heq
    exact absurd hc (by simp [← (List.cons.inj heq).1, hfirst])
  induction h generalizing tokens' with
  | nil between =>
      cases tokens' with
      | nil => rfl
      | cons token tokens' =>
          obtain ⟨blanks, rest, htext, -, hlongest, -⟩ := splits_cons h'
          obtain ⟨first, tail, htoken, -⟩ := Token.text_cases hlongest.legal
          simp [htoken] at htext
  | @blank between c rest tokens hc _ ih =>
      generalize htext : c :: rest = text at h'
      cases h' with
      | nil => simp at htext
      | blank _ hrest' =>
          obtain ⟨-, rfl⟩ := List.cons.inj htext
          exact ih hrest'
      | token hlongest _ => exact absurd htext.symm (start hlongest.legal hc)
  | @token between token rest tokens hlongest _ ih =>
      generalize htext : token.text ++ rest = text at h'
      cases h' with
      | nil =>
          obtain ⟨first, tail, htoken, -⟩ := Token.text_cases hlongest.legal
          simp [htoken] at htext
      | blank hc _ => exact absurd htext (start hlongest.legal hc)
      | token hlongest' hrest' =>
          obtain ⟨rfl, rfl⟩ := hlongest.unique hlongest' htext
          rw [ih hrest']

end DefForms.Grammar
