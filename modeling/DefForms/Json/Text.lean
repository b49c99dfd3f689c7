set_option autoImplicit false

/-! # The inside of a JSON string

`JsonText.encode` writes a text between the quotes of a JSON string: quotes, backslashes and
controls are escaped and everything else stands for itself. `JsonText.decode` reads any well-formed
inside back. It knows every escape of JSON, so it accepts more spellings than `encode` writes, and
`decode (encode text) = some text` (`decode_encode`). -/

namespace DefForms.JsonText

/-- A digit of a number written in base 16. -/
def hexDigit? (c : Char) : Option Nat :=
  if '0' ≤ c ∧ c ≤ '9' then some (c.toNat - '0'.toNat)
  else if 'a' ≤ c ∧ c ≤ 'f' then some (c.toNat - 'a'.toNat + 10)
  else if 'A' ≤ c ∧ c ≤ 'F' then some (c.toNat - 'A'.toNat + 10)
  else none

/-- The number that four hexadecimal digits stand for. -/
def hexUnit? (a b c d : Char) : Option Nat :=
  match hexDigit? a, hexDigit? b, hexDigit? c, hexDigit? d with
  | some a, some b, some c, some d => some (((a * 16 + b) * 16 + c) * 16 + d)
  | _, _, _, _ => none

/-- The characters that write one character of a text. -/
def encodeChar (c : Char) : List Char :=
  match c with
  | '"' => ['\\', '"']
  | '\\' => ['\\', '\\']
  | '\x08' => ['\\', 'b']
  | '\x0c' => ['\\', 'f']
  | '\n' => ['\\', 'n']
  | '\r' => ['\\', 'r']
  | '\t' => ['\\', 't']
  | c =>
    if c.toNat < 32 then
      ['\\', 'u', '0', '0', Nat.digitChar (c.toNat / 16), Nat.digitChar (c.toNat % 16)]
    else [c]

/-- Write a text. -/
def encode (text : List Char) : List Char :=
  text.flatMap encodeChar

/-- The character behind a backslash stands for this character, if it is a short escape. -/
def shortEscape? (c : Char) : Option Char :=
  match c with
  | '"' => some '"'
  | '\\' => some '\\'
  | '/' => some '/'
  | 'b' => some '\x08'
  | 'f' => some '\x0c'
  | 'n' => some '\n'
  | 'r' => some '\r'
  | 't' => some '\t'
  | _ => none

/-- The first half of a surrogate pair. -/
def isHighSurrogate (unit : Nat) : Bool := decide (0xd800 ≤ unit) && decide (unit < 0xdc00)

/-- The second half of a surrogate pair. -/
def isLowSurrogate (unit : Nat) : Bool := decide (0xdc00 ≤ unit) && decide (unit < 0xe000)

/-- The character beyond U+FFFF that a surrogate pair stands for. -/
def joinSurrogates (high low : Nat) : Char :=
  Char.ofNat (0x10000 + (high - 0xd800) * 0x400 + (low - 0xdc00))

/-- Put a character in front of a decoded text. -/
def withFront (c : Char) : Option (List Char) → Option (List Char)
  | some text => some (c :: text)
  | none => none

/-- Read the inside of a string. An escape with half of a surrogate pair denotes no text. -/
def decode : List Char → Option (List Char)
  | [] => some []
  | '\\' :: 'u' :: a :: b :: c :: d :: rest =>
    match hexUnit? a b c d with
    | none => none
    | some unit =>
      if isHighSurrogate unit then
        match rest with
        | '\\' :: 'u' :: a' :: b' :: c' :: d' :: rest' =>
          match hexUnit? a' b' c' d' with
          | some low =>
            if isLowSurrogate low then withFront (joinSurrogates unit low) (decode rest') else none
          | none => none
        | _ => none
      else if isLowSurrogate unit then none
      else withFront (Char.ofNat unit) (decode rest)
  | '\\' :: c :: rest =>
    match shortEscape? c with
    | some plain => withFront plain (decode rest)
    | none => none
  | c :: rest => if c = '\\' then none else withFront c (decode rest)

/-! ## Reading back what is written -/

theorem decode_encodeChar_append (c : Char) (rest : List Char) :
    decode (encodeChar c ++ rest) = withFront c (decode rest) := by
  unfold encodeChar
  split
  case h_8 _ h1 h2 h3 h4 h5 h6 h7 =>
    split
    · next hc =>
        have small : ∀ n < 32, decode ('\\' :: 'u' :: '0' :: '0' :: Nat.digitChar (n / 16)
            :: Nat.digitChar (n % 16) :: rest) = withFront (Char.ofNat n) (decode rest) := by
          intro n hn
          have cases : ∀ n < 32, hexUnit? '0' '0' (Nat.digitChar (n / 16)) (Nat.digitChar (n % 16))
              = some n := by decide
          rw [decode, cases n hn]
          have notHigh : isHighSurrogate n = false := by simp [isHighSurrogate]; omega
          have notLow : isLowSurrogate n = false := by simp [isLowSurrogate]; omega
          simp [notHigh, notLow]
        have := small c.toNat hc
        rwa [Char.ofNat_toNat] at this
    · have hb : c ≠ '\\' := h2
      rw [List.singleton_append, decode] <;> simp [hb]
  all_goals rfl

/-- Reading undoes writing. -/
theorem decode_encode (text : List Char) : decode (encode text) = some text := by
  induction text with
  | nil => rfl
  | cons c rest ih =>
    rw [encode, List.flatMap_cons, decode_encodeChar_append, ← encode, ih]
    rfl

end DefForms.JsonText
