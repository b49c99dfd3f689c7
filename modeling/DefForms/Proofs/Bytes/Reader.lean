import DefForms.Proofs.Bytes.Encoding
import DefForms.Reader.Basic

set_option autoImplicit false

/-! # Reading byte by byte

`Reader.nodes` cuts up a row of characters, so it cannot leave the span that it reads. Here the same
is done as a machine does it: one place moves over the bytes of the whole text, a span is an offset at
which to stop, and words are taken from between two offsets. Nothing keeps such a reader in its
bounds. Whatever it could do wrong is checked wherever it could happen, and is a `Breach`.

The order of the steps and of the checks for problems is the same as in `Reader.nodes`. -/

namespace DefForms.Bytewise

open Reader

/-- What a reader that moves a place over bytes could do wrong. -/
inductive Breach where
  /-- The place is behind the end of a span around it, or behind the end of the text. -/
  | bounds
  /-- Text is taken from between offsets that do not lie between characters, or not in this order. -/
  | cut
  /-- A search closes a delimiter while none is open. -/
  | count
  /-- More forms than `maxDepth` are open, or fewer than none, or behind a form not as many as in
      front of it. -/
  | depth
  /-- A span is not left at its end, or a form not at its closing delimiter. -/
  | exit
  /-- A loop has not moved forward. -/
  | stuck
deriving DecidableEq

/-- Why reading stops: the text is at fault, or the reader is. -/
inductive Stop where
  | failure (failure : Failure)
  | breach (breach : Breach)
deriving DecidableEq

/-- The span that is read. -/
structure Scope where
  /-- The whole text. -/
  text : String
  /-- The offset where the span ends. -/
  stop : Nat
  /-- The offsets where the spans around it end. -/
  outer : List Nat

/-- The span of a whole text. -/
def Scope.whole (text : String) : Scope := ⟨text, text.utf8ByteSize, []⟩

/-- The span inside a form that is closed at this offset. -/
def Scope.within (scope : Scope) (close : Nat) : Scope :=
  ⟨scope.text, close, scope.stop :: scope.outer⟩

/-! ## Moving -/

/-- Go to a place. It must not be behind the end of a span around it or of the text, and not more than
    `maxDepth` forms may be open there. -/
def moveTo (scope : Scope) (cur : Cursor) : Except Stop Cursor :=
  if (∀ bound ∈ scope.stop :: scope.outer, cur.offset ≤ bound)
      ∧ cur.offset ≤ scope.text.utf8ByteSize then
    if cur.depth ≤ maxDepth then .ok cur else .error (.breach .depth)
  else .error (.breach .bounds)

/-- The byte at the place, as the character with this code, unless the span ends there. -/
def peek (scope : Scope) (cur : Cursor) : Option Char :=
  if cur.offset < scope.stop then (utf8Bytes scope.text)[cur.offset]?.map Char.ofUInt8 else none

/-- Go over the byte `c`. -/
def advance (scope : Scope) (cur : Cursor) (c : Char) : Except Stop Cursor :=
  moveTo scope ⟨cur.offset + 1, if c = '\n' then cur.line + 1 else cur.line, cur.depth⟩

/-- A problem of the bytes from `start` on, found at the place. -/
def problemAt (cur : Cursor) (start width : Nat) (problem : Problem) : Stop :=
  .failure ⟨problem, cur.line, ⟨start, start + width⟩⟩

/-- The character at the place can start nothing. It may stand behind the span. -/
def unexpected (scope : Scope) (cur : Cursor) : Stop :=
  .failure (.unexpected cur (charAt? scope.text cur.offset))

/-- The text between two offsets. -/
def slice (scope : Scope) (start stop : Nat) : Except Stop String :=
  match between? scope.text start stop with
  | none => .error (.breach .cut)
  | some part => .ok part

theorem peek_lt {scope : Scope} {cur : Cursor} {c : Char} (h : peek scope cur = some c) :
    cur.offset < scope.stop := by
  rw [peek] at h
  split at h
  · assumption
  · simp at h

theorem eq_of_moveTo {scope : Scope} {cur next : Cursor} (h : moveTo scope cur = .ok next) :
    next = cur := by
  rw [moveTo] at h
  split at h
  · split at h
    · exact (Except.ok.inj h).symm
    · simp at h
  · simp at h

theorem advance_offset {scope : Scope} {cur next : Cursor} {c : Char}
    (h : advance scope cur c = .ok next) : next.offset = cur.offset + 1 := by
  rw [eq_of_moveTo h]

/-! ## Words -/

/-- Go over bytes as long as they are in the class. -/
def skipWhile (p : Char → Bool) (scope : Scope) (cur : Cursor) : Except Stop Cursor :=
  match _ : peek scope cur with
  | none => .ok cur
  | some c =>
    if p c then
      match _ : advance scope cur c with
      | .error stop => .error stop
      | .ok next => skipWhile p scope next
    else .ok cur
termination_by scope.stop - cur.offset
decreasing_by
  have hoffset := advance_offset ‹_›
  have hlt := peek_lt ‹_›
  omega

section Skipping

variable {p : Char → Bool} {scope : Scope} {cur : Cursor} {c : Char}

theorem skipWhile_none (h : peek scope cur = none) : skipWhile p scope cur = .ok cur := by
  rw [skipWhile]
  split
  · rfl
  · next heq => simp [h] at heq

theorem skipWhile_some (h : peek scope cur = some c) :
    skipWhile p scope cur
      = if p c then
          match advance scope cur c with
          | .error stop => .error stop
          | .ok next => skipWhile p scope next
        else .ok cur := by
  rw [skipWhile]
  split
  · next heq => simp [h] at heq
  · next heq =>
      obtain rfl := Option.some.inj (h.symm.trans heq)
      cases advance scope cur c <;> rfl

end Skipping

theorem le_of_skipWhile {p : Char → Bool} {scope : Scope} {cur last : Cursor}
    (h : skipWhile p scope cur = .ok last) : cur.offset ≤ last.offset := by
  fun_induction skipWhile p scope cur with
  | case1 | case4 => exact Nat.le_of_eq (congrArg Cursor.offset (Except.ok.inj h))
  | case2 => simp at h
  | case3 cur c _ _ next hnext ih =>
      have hoffset := advance_offset hnext
      have hle := ih h
      omega

/-- Go over a number, with at most one decimal point in or behind it. The result also says whether
    there was one. -/
def numberEnd (scope : Scope) (cur : Cursor) (sawPoint : Bool) : Except Stop (Cursor × Bool) :=
  match _ : peek scope cur with
  | none => .ok (cur, sawPoint)
  | some c =>
    if c.isDigit then
      match _ : advance scope cur c with
      | .error stop => .error stop
      | .ok next => numberEnd scope next sawPoint
    else if c = '.' then
      if sawPoint then .error (problemAt cur cur.offset 1 .secondPoint)
      else
        match _ : advance scope cur c with
        | .error stop => .error stop
        | .ok next => numberEnd scope next true
    else .ok (cur, sawPoint)
termination_by scope.stop - cur.offset
decreasing_by
  all_goals
    have hoffset := advance_offset ‹_›
    have hlt := peek_lt ‹_›
    omega

section Numbers

variable {scope : Scope} {cur : Cursor} {c : Char} {sawPoint : Bool}

theorem numberEnd_none (h : peek scope cur = none) :
    numberEnd scope cur sawPoint = .ok (cur, sawPoint) := by
  rw [numberEnd]
  split
  · rfl
  · next heq => simp [h] at heq

theorem numberEnd_some (h : peek scope cur = some c) :
    numberEnd scope cur sawPoint
      = if c.isDigit then
          match advance scope cur c with
          | .error stop => .error stop
          | .ok next => numberEnd scope next sawPoint
        else if c = '.' then
          if sawPoint then .error (problemAt cur cur.offset 1 .secondPoint)
          else
            match advance scope cur c with
            | .error stop => .error stop
            | .ok next => numberEnd scope next true
        else .ok (cur, sawPoint) := by
  rw [numberEnd]
  split
  · next heq => simp [h] at heq
  · next heq =>
      obtain rfl := Option.some.inj (h.symm.trans heq)
      cases advance scope cur c <;> rfl

end Numbers

def number (scope : Scope) (cur : Cursor) : Except Stop (Node × Cursor) :=
  match numberEnd scope cur false with
  | .error stop => .error stop
  | .ok (last, sawPoint) =>
    match slice scope cur.offset last.offset with
    | .error stop => .error stop
    | .ok text => .ok (if sawPoint then .float ⟨cur.line, text⟩ else .int ⟨cur.line, text⟩, last)

/-- Go over a word: one byte of the class `first`, if there is one, and those of the class `more`. -/
def wordEnd (first more : Char → Bool) (scope : Scope) (cur : Cursor) : Except Stop Cursor :=
  match peek scope cur with
  | none => .ok cur
  | some c =>
    if first c then
      match advance scope cur c with
      | .error stop => .error stop
      | .ok next => skipWhile more scope next
    else .ok cur

/-- Read a word that is not empty. -/
def word (first more : Char → Bool) (scope : Scope) (cur : Cursor) :
    Except Stop (String × Cursor) :=
  match wordEnd first more scope cur with
  | .error stop => .error stop
  | .ok last =>
    if last.offset = cur.offset then .error (unexpected scope cur)
    else
      match slice scope cur.offset last.offset with
      | .error stop => .error stop
      | .ok text => .ok (text, last)

def term (scope : Scope) (cur : Cursor) : Except Stop (Term × Cursor) :=
  match skipWhile isBlank scope cur with
  | .error stop => .error stop
  | .ok start =>
    match word Char.isAlpha isNameChar scope start with
    | .error stop => .error stop
    | .ok (text, last) => .ok (⟨start.line, text⟩, last)

/-- Read an operator or a name, past any blanks. -/
def head (scope : Scope) (cur : Cursor) : Except Stop (Head × Cursor) :=
  match skipWhile isBlank scope cur with
  | .error stop => .error stop
  | .ok start =>
    match (peek scope start).filter isOperator with
    | some c =>
      match advance scope start c with
      | .error stop => .error stop
      | .ok last => .ok (.operator ⟨start.line, c⟩, last)
    | none =>
      match term scope start with
      | .error stop => .error stop
      | .ok (name, last) => .ok (.term name, last)

/-! ## Forms -/

/-- Look for the byte that closes what is open, with `count` open in front of the byte at `index`. -/
def closeByte (opener closer : UInt8) (index count : Nat) : List UInt8 → Except Stop (Option Nat)
  | [] => .ok none
  | b :: rest =>
    if b = opener then closeByte opener closer (index + 1) (count + 1) rest
    else if b = closer then
      if count = 0 then .error (.breach .count)
      else if count - 1 = 0 then .ok (some index)
      else closeByte opener closer (index + 1) (count - 1) rest
    else closeByte opener closer (index + 1) count rest

/-- The offset of the delimiter that closes the one at `start`, if the span holds it. -/
def findClose (scope : Scope) (start : Nat) (opener closer : Char) : Except Stop (Option Nat) :=
  closeByte opener.toUInt8 closer.toUInt8 start 0
    (((utf8Bytes scope.text).take scope.stop).drop start)

theorem lt_of_closeByte {opener closer : UInt8} {index count found : Nat} {bytes : List UInt8}
    (h : closeByte opener closer index count bytes = .ok (some found)) :
    found < index + bytes.length := by
  induction bytes generalizing index count with
  | nil => simp [closeByte] at h
  | cons b rest ih =>
      have later : ∀ count', closeByte opener closer (index + 1) count' rest = .ok (some found) →
          found < index + (b :: rest).length := by
        intro count' h'
        have hlt := ih h'
        rw [List.length_cons]
        omega
      rw [closeByte] at h
      split at h
      · exact later _ h
      · split at h
        · split at h
          · simp at h
          · split at h
            · simp only [Except.ok.injEq, Option.some.injEq] at h
              rw [← h, List.length_cons]
              omega
            · exact later _ h
        · exact later _ h

theorem lt_stop_of_findClose {scope : Scope} {start close : Nat} {opener closer : Char}
    (h : findClose scope start opener closer = .ok (some close)) : close < scope.stop := by
  rw [findClose] at h
  -- a search in no bytes finds nothing, so the span goes on behind `start`
  have hne : ((utf8Bytes scope.text).take scope.stop).drop start ≠ [] := by
    intro hnil
    rw [hnil] at h
    simp [closeByte] at h
  have hpos := List.length_pos_iff.2 hne
  have hlt := lt_of_closeByte h
  rw [List.length_drop, List.length_take] at hpos hlt
  omega

/-- Open one more form. -/
def enter (scope : Scope) (cur : Cursor) : Except Stop Cursor :=
  if cur.depth = maxDepth then .error (problemAt cur cur.offset 1 .tooDeep)
  else moveTo scope cur.enter

/-- Go into the form whose opening delimiter is at the place. The result is the first place inside and
    the offset of the closing delimiter. -/
def openForm (scope : Scope) (cur : Cursor) (opener closer : Char) (unmatched : Problem) :
    Except Stop (Cursor × Nat) :=
  match enter scope cur with
  | .error stop => .error stop
  | .ok entered =>
    match findClose scope cur.offset opener closer with
    | .error stop => .error stop
    | .ok none => .error (problemAt entered cur.offset 1 unmatched)
    | .ok (some close) =>
      match moveTo (scope.within close) { entered with offset := cur.offset + 1 } with
      | .error stop => .error stop
      | .ok inside => .ok (inside, close)

theorem lt_stop_of_openForm {scope : Scope} {cur inside : Cursor} {opener closer : Char}
    {unmatched : Problem} {close : Nat}
    (h : openForm scope cur opener closer unmatched = .ok (inside, close)) :
    close < scope.stop := by
  rw [openForm] at h
  split at h
  · simp at h
  · split at h
    · simp at h
    · simp at h
    · next hclose =>
        split at h
        · simp at h
        · simp only [Except.ok.injEq, Prod.mk.injEq] at h
          exact h.2 ▸ lt_stop_of_findClose hclose

/-- Leave the form that was opened at `opened` and whose contents end at `last`. -/
def closeForm (scope : Scope) (opened last : Cursor) (closer : Char) (close : Nat) :
    Except Stop Cursor :=
  if last.offset = close ∧ (utf8Bytes scope.text)[close]? = some closer.toUInt8 then
    if 0 < last.depth ∧ last.depth - 1 = opened.depth then
      moveTo scope ⟨close + 1, last.line, last.depth - 1⟩
    else .error (.breach .depth)
  else .error (.breach .exit)

/-! ## Parameter lists -/

def entry (scope : Scope) (cur : Cursor) : Except Stop (Param × Cursor) :=
  match word isEntryStart isEntryChar scope cur with
  | .error stop => .error stop
  | .ok (text, last) =>
    match entryOfWord cur text.toList with
    | .error failure => .error (.failure failure)
    | .ok param => .ok (param, last)

/-- The entries up to the end of the span. -/
def entries (scope : Scope) (cur : Cursor) : Except Stop (List Param × Cursor) :=
  match _ : skipWhile isBlank scope cur with
  | .error stop => .error stop
  | .ok start =>
    if _ : start.offset < scope.stop then
      match entry scope start with
      | .error stop => .error stop
      | .ok (param, next) =>
        if _ : start.offset < next.offset then
          match entries scope next with
          | .error stop => .error stop
          | .ok (params, last) => .ok (param :: params, last)
        else .error (.breach .stuck)
    else .ok ([], start)
termination_by scope.stop - cur.offset
decreasing_by
  have hle := le_of_skipWhile ‹_›
  omega

theorem entries_of_skip {scope : Scope} {cur start : Cursor}
    (h : skipWhile isBlank scope cur = .ok start) :
    entries scope cur
      = if start.offset < scope.stop then
          match entry scope start with
          | .error stop => .error stop
          | .ok (param, next) =>
            if start.offset < next.offset then
              match entries scope next with
              | .error stop => .error stop
              | .ok (params, last) => .ok (param :: params, last)
            else .error (.breach .stuck)
        else .ok ([], start) := by
  rw [entries]
  split
  · next heq => simp [h] at heq
  · next start' heq =>
      obtain rfl := Except.ok.inj (h.symm.trans heq)
      rfl

def paramList (scope : Scope) (cur : Cursor) : Except Stop (Node × Cursor) :=
  match openForm scope cur '[' ']' .unmatchedBracket with
  | .error stop => .error stop
  | .ok (inside, close) =>
    match entries (scope.within close) inside with
    | .error stop => .error stop
    | .ok (params, last) =>
      match closeForm scope cur last ']' close with
      | .error stop => .error stop
      | .ok behind => .ok (.paramList ⟨cur.line, params⟩, behind)

/-! ## Nodes -/

/-- What was read at a place: a node that is complete, or the head of a call. -/
inductive Piece where
  | node (found : Node) (behind : Cursor)
  /-- The place behind the head and the offset of the closing parenthesis go with it. -/
  | call (head : Head) (behind : Cursor) (close : Nat)

def openCall (scope : Scope) (cur : Cursor) : Except Stop Piece :=
  match openForm scope cur '(' ')' .unmatchedParenthesis with
  | .error stop => .error stop
  | .ok (inside, close) =>
    match head (scope.within close) inside with
    | .error stop => .error stop
    | .ok (found, behind) => .ok (.call found behind close)

/-- Read what starts with the byte `c`, which is not a blank. -/
def next (scope : Scope) (cur : Cursor) (c : Char) : Except Stop Piece :=
  if c.isDigit then
    match number scope cur with
    | .error stop => .error stop
    | .ok (found, behind) => .ok (.node found behind)
  else if c = '(' then openCall scope cur
  else if c = ')' then .error (unexpected scope cur)
  else if c = '[' then
    match paramList scope cur with
    | .error stop => .error stop
    | .ok (found, behind) => .ok (.node found behind)
  else if c = ']' then .error (unexpected scope cur)
  else
    match head scope cur with
    | .error stop => .error stop
    | .ok (found, behind) => .ok (.node found.toNode behind)

theorem lt_stop_of_next {scope : Scope} {cur behind : Cursor} {c : Char} {found : Head}
    {close : Nat} (h : next scope cur c = .ok (.call found behind close)) :
    close < scope.stop := by
  have hcall : openCall scope cur = .ok (.call found behind close) := by
    rw [next] at h
    split at h
    · split at h <;> simp at h
    · split at h
      · exact h
      · split at h
        · simp at h
        · split at h
          · split at h <;> simp at h
          · split at h
            · simp at h
            · split at h <;> simp at h
  rw [openCall] at hcall
  split at hcall
  · simp at hcall
  · next hform =>
      split at hcall
      · simp at hcall
      · simp only [Except.ok.injEq, Piece.call.injEq] at hcall
        obtain ⟨-, -, rfl⟩ := hcall
        exact lt_stop_of_openForm hform

/-- The nodes up to the end of the span. -/
def nodes (scope : Scope) (cur : Cursor) : Except Stop (List Node × Cursor) :=
  match _ : peek scope cur with
  | none => if cur.offset = scope.stop then .ok ([], cur) else .error (.breach .exit)
  | some c =>
    if isBlank c then
      match _ : advance scope cur c with
      | .error stop => .error stop
      | .ok behind => nodes scope behind
    else
      match _ : next scope cur c with
      | .error stop => .error stop
      | .ok (.node found behind) =>
        if _ : cur.offset < behind.offset then
          match nodes scope behind with
          | .error stop => .error stop
          | .ok (more, last) => .ok (found :: more, last)
        else .error (.breach .stuck)
      | .ok (.call found inside close) =>
        match nodes (scope.within close) inside with
        | .error stop => .error stop
        | .ok (args, last) =>
          match closeForm scope cur last ')' close with
          | .error stop => .error stop
          | .ok behind =>
            if _ : cur.offset < behind.offset then
              match nodes scope behind with
              | .error stop => .error stop
              | .ok (more, last) => .ok (.call cur.line found args :: more, last)
            else .error (.breach .stuck)
termination_by (scope.stop, scope.stop - cur.offset)
decreasing_by
  · have hoffset := advance_offset ‹_›
    have hlt := peek_lt ‹_›
    exact .right _ (by omega)
  · have hlt := peek_lt ‹_›
    exact .right _ (by omega)
  · exact .left _ _ (lt_stop_of_next ‹_›)
  · have hlt := peek_lt ‹_›
    exact .right _ (by omega)

section Nodes

variable {scope : Scope} {cur : Cursor} {c : Char}

theorem nodes_none (h : peek scope cur = none) :
    nodes scope cur
      = if cur.offset = scope.stop then .ok ([], cur) else .error (.breach .exit) := by
  rw [nodes]
  split
  · rfl
  · next heq => simp [h] at heq

theorem nodes_some (h : peek scope cur = some c) :
    nodes scope cur
      = if isBlank c then
          match advance scope cur c with
          | .error stop => .error stop
          | .ok behind => nodes scope behind
        else
          match next scope cur c with
          | .error stop => .error stop
          | .ok (.node found behind) =>
            if cur.offset < behind.offset then
              match nodes scope behind with
              | .error stop => .error stop
              | .ok (more, last) => .ok (found :: more, last)
            else .error (.breach .stuck)
          | .ok (.call found inside close) =>
            match nodes (scope.within close) inside with
            | .error stop => .error stop
            | .ok (args, last) =>
              match closeForm scope cur last ')' close with
              | .error stop => .error stop
              | .ok behind =>
                if cur.offset < behind.offset then
                  match nodes scope behind with
                  | .error stop => .error stop
                  | .ok (more, last) => .ok (.call cur.line found args :: more, last)
                else .error (.breach .stuck) := by
  rw [nodes]
  split
  · next heq => simp [h] at heq
  · next heq =>
      obtain rfl := Option.some.inj (h.symm.trans heq)
      cases isBlank c with
      | true => cases advance scope cur c <;> rfl
      | false =>
          cases next scope cur c with
          | error stop => rfl
          | ok piece => cases piece <;> rfl

end Nodes

/-- The nodes of a whole text. -/
def program (text : String) : Except Stop (List Node) :=
  match nodes (.whole text) .start with
  | .error stop => .error stop
  | .ok (found, _) => .ok found

end DefForms.Bytewise
