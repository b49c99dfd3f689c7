import DefForms.Proofs.Grammar.Token
import DefForms.Proofs.Reader.Reading

set_option autoImplicit false

/-! # The grammar

The grammar of programs, over tokens:

    seq  ::= node*
    node ::= number | operator | term | `(` (term | operator) seq `)` | `[` entry* `]`

`Derives` builds the tree of a derivation without line numbers. A text that is spelled is divided into
tokens that derive its nodes (`tokens_of_spells`), and where derivable tokens stand in a text, the
nodes are spelled (`spells_of_tokens`). -/

namespace DefForms.Grammar

open DefForms.Reader

/-! ## Derivations -/

/-- The node that a number, an operator or a term is. -/
def Token.leaf? : Token → Option Node
  | .operator symbol => some (.operator ⟨0, symbol⟩)
  | .number text =>
      some (if '.' ∈ text then .float ⟨0, String.ofList text⟩ else .int ⟨0, String.ofList text⟩)
  | .term text => some (.term ⟨0, String.ofList text⟩)
  | .callStart | .callEnd | .listStart | .listEnd | .entry _ _ => none

/-- The head that an operator or a term is. -/
def Token.head? : Token → Option Head
  | .operator symbol => some (.operator ⟨0, symbol⟩)
  | .term text => some (.term ⟨0, String.ofList text⟩)
  | .number _ | .callStart | .callEnd | .listStart | .listEnd | .entry _ _ => none

/-- The entry of a parameter list that a token is. -/
def Token.param? : Token → Option Param
  | .entry name type => some ⟨0, ⟨0, String.ofList name⟩, ⟨0, String.ofList type⟩⟩
  | .number _ | .operator _ | .term _ | .callStart | .callEnd | .listStart | .listEnd => none

/-- `entry*` derives these entries. -/
inductive DerivesEntries : List Token → List Param → Prop where
  | nil : DerivesEntries [] []
  | entry {token : Token} {tokens : List Token} {param : Param} {params : List Param}
      (hparam : token.param? = some param) (hrest : DerivesEntries tokens params) :
      DerivesEntries (token :: tokens) (param :: params)

/-- `seq` derives these nodes. -/
inductive Derives : List Token → List Node → Prop where
  | nil : Derives [] []
  | leaf {token : Token} {rest : List Token} {node : Node} {nodes : List Node}
      (hleaf : token.leaf? = some node) (hrest : Derives rest nodes) :
      Derives (token :: rest) (node :: nodes)
  | call {token : Token} {inner rest : List Token} {head : Head} {args nodes : List Node}
      (hhead : token.head? = some head) (hinner : Derives inner args)
      (hrest : Derives rest nodes) :
      Derives (.callStart :: token :: (inner ++ .callEnd :: rest)) (.call 0 head args :: nodes)
  | list {inner rest : List Token} {params : List Param} {nodes : List Node}
      (hinner : DerivesEntries inner params) (hrest : Derives rest nodes) :
      Derives (.listStart :: (inner ++ .listEnd :: rest)) (.paramList ⟨0, params⟩ :: nodes)

/-! ## Tokens that are nodes -/

theorem point_notMem_of_isInteger {text : List Char} (h : IsInteger text) : '.' ∉ text :=
  fun hc => absurd (h.2 '.' hc) (by decide)

/-- A leaf is a token that stands wherever it is not between brackets. -/
theorem token_of_leaf {line : Nat} {word : List Char} {node : Node} (h : Leaf line word node) :
    ∃ token : Token, token.text = word ∧ token.Legal false ∧ token.leaves false = false
      ∧ token.leaf? = some node.unlined := by
  cases h with
  | int h =>
      refine ⟨.number word, rfl, Or.inl h, rfl, ?_⟩
      rw [Token.leaf?, if_neg (point_notMem_of_isInteger h)]
      rfl
  | float h =>
      refine ⟨.number word, rfl, Or.inr h, rfl, ?_⟩
      obtain ⟨whole, fraction, -, -, rfl⟩ := h
      rw [Token.leaf?, if_pos (by simp)]
      rfl
  | @operator c h => exact ⟨.operator c, rfl, List.contains_iff_mem.1 h, rfl, rfl⟩
  | term h => exact ⟨.term word, rfl, h, rfl, rfl⟩

theorem token_of_head {line : Nat} {word : List Char} {head : Head}
    (h : Leaf line word head.toNode) :
    ∃ token : Token, token.text = word ∧ token.Legal false ∧ token.leaves false = false
      ∧ token.head? = some (head.relined fun _ => 0) := by
  cases head with
  | operator op =>
      cases h with
      | @operator c h => exact ⟨.operator c, rfl, List.contains_iff_mem.1 h, rfl, rfl⟩
  | term name =>
      cases h with
      | term h => exact ⟨.term word, rfl, h, rfl, rfl⟩

/-- The token of a leaf is written as the leaf, on whatever line. -/
theorem leaf_of_token {token : Token} {node : Node} (line : Nat) (hlegal : token.Legal false)
    (h : token.leaf? = some node) : ∃ found, Leaf line token.text found ∧ found.unlined = node
      ∧ token.leaves false = false := by
  cases token with
  | operator symbol =>
      simp only [Token.leaf?, Option.some.injEq] at h
      exact ⟨_, .operator (isOperator_of_mem hlegal), h, rfl⟩
  | number text =>
      simp only [Token.leaf?, Option.some.injEq] at h
      rcases hlegal with hinteger | hdecimal
      · rw [if_neg (point_notMem_of_isInteger hinteger)] at h
        exact ⟨_, .int hinteger, h, rfl⟩
      · have hpoint : '.' ∈ text := by
          obtain ⟨whole, fraction, -, -, rfl⟩ := hdecimal
          simp
        rw [if_pos hpoint] at h
        exact ⟨_, .float hdecimal, h, rfl⟩
  | term text =>
      simp only [Token.leaf?, Option.some.injEq] at h
      exact ⟨_, .term hlegal, h, rfl⟩
  | callStart | callEnd | listStart | listEnd | entry => simp [Token.leaf?] at h

theorem head_of_token {token : Token} {head : Head} (line : Nat) (hlegal : token.Legal false)
    (h : token.head? = some head) :
    ∃ found : Head, Leaf line token.text found.toNode ∧ found.relined (fun _ => 0) = head
      ∧ token.leaves false = false := by
  cases token with
  | operator symbol =>
      simp only [Token.head?, Option.some.injEq] at h
      exact ⟨.operator ⟨line, symbol⟩, .operator (isOperator_of_mem hlegal), h, rfl⟩
  | term text =>
      simp only [Token.head?, Option.some.injEq] at h
      exact ⟨.term ⟨line, String.ofList text⟩, .term hlegal, h, rfl⟩
  | number | callStart | callEnd | listStart | listEnd | entry => simp [Token.head?] at h

/-- The token of an entry is the word of the entry, on whatever line. -/
theorem entryWord_of_token {token : Token} {param : Param} (line : Nat)
    (hlegal : token.Legal true) (h : token.param? = some param) :
    ∃ name type, token = .entry name type
      ∧ ∃ found, EntryWord line token.text found ∧ found.relined (fun _ => 0) = param := by
  cases token with
  | entry name type =>
      simp only [Token.param?, Option.some.injEq] at h
      exact ⟨name, type, rfl, _, .intro hlegal.2.1 hlegal.2.2, h⟩
  | operator | number | term | callStart | callEnd | listStart | listEnd =>
      simp [Token.param?] at h

/-! ## From spelled texts to derivations -/

/-- The text of entries is divided into tokens that derive them, whatever stands behind it. -/
theorem tokens_of_entries {line : Nat} {text back : List Char} {params : List Param}
    {more : List Token} (h : SpellsEntries line text params) (hends : EntryEnds back)
    (hback : Splits true back more) :
    ∃ tokens, Splits true (text ++ back) (tokens ++ more)
      ∧ DerivesEntries tokens (params.map (Param.relined fun _ => 0)) := by
  induction h with
  | nil => exact ⟨[], hback, .nil⟩
  | blank hc _ ih =>
      obtain ⟨tokens, hsplits, hderives⟩ := ih
      exact ⟨tokens, .blank hc hsplits, hderives⟩
  | @entry line word rest param params hword hends' _ ih =>
      obtain ⟨tokens, hsplits, hderives⟩ := ih
      cases hword with
      | @intro name type hname htype =>
          have hlongest := longest_entry hname htype (entryEnds_append hends' hends)
          refine ⟨.entry name type :: tokens, ?_, .entry rfl hderives⟩
          rw [List.append_assoc]
          exact .token hlongest hsplits

/-- A spelled text is divided into tokens that derive its nodes, whatever stands behind it. -/
theorem tokens_of_spells {line : Nat} {text back : List Char} {nodes : List Node}
    {more : List Token} (h : Spells line text nodes) (hloose : Loose back)
    (hback : Splits false back more) :
    ∃ tokens, Splits false (text ++ back) (tokens ++ more)
      ∧ Derives tokens (nodes.map Node.unlined) := by
  induction h generalizing back more with
  | nil => exact ⟨[], hback, .nil⟩
  | blank hc _ ih =>
      obtain ⟨tokens, hsplits, hderives⟩ := ih hloose hback
      exact ⟨tokens, .blank hc hsplits, hderives⟩
  | @leaf line word rest node nodes hword hends _ ih =>
      obtain ⟨tokens, hsplits, hderives⟩ := ih hloose hback
      obtain ⟨token, rfl, hlegal, hleaves, hleaf⟩ := token_of_leaf hword
      have hlongest := longest_of_ends hlegal (ends_append hends hloose)
      refine ⟨token :: tokens, ?_, .leaf hleaf hderives⟩
      rw [List.append_assoc]
      exact .token hlongest (hleaves.symm ▸ hsplits)
  | @list line inner rest params nodes hinner _ ih =>
      obtain ⟨tokens, hsplits, hderives⟩ := ih hloose hback
      have hclose : Splits true (']' :: (rest ++ back)) (.listEnd :: (tokens ++ more)) :=
        splits_delimiter .listEnd trivial rfl (by decide) hsplits
      obtain ⟨entries, hsplits', hderives'⟩ :=
        tokens_of_entries hinner (by simp [EntryEnds, isEntryChar, isNameChar]) hclose
      refine ⟨.listStart :: (entries ++ .listEnd :: tokens), ?_, .list hderives' hderives⟩
      simp only [List.cons_append, List.append_assoc]
      exact splits_delimiter .listStart trivial rfl (by decide) hsplits'
  | @call line blanks word inner rest head args nodes hblanks hhead hends _ _ ihinner ih =>
      -- from the back to the front: what follows, the closing parenthesis, the arguments, the head
      obtain ⟨tokens, hsplits, hderives⟩ := ih hloose hback
      have hclose : Splits false (')' :: (rest ++ back)) (.callEnd :: (tokens ++ more)) :=
        splits_delimiter .callEnd trivial rfl (by decide) hsplits
      have hparen : Loose (')' :: (rest ++ back)) := loose_of_isStructural _ (by decide)
      obtain ⟨inside, hsplits', hderives'⟩ := ihinner hparen hclose
      obtain ⟨token, rfl, hlegal, hleaves, htoken⟩ := token_of_head hhead
      have hlongest := longest_of_ends hlegal (ends_append hends hparen)
      refine ⟨.callStart :: token :: (inside ++ .callEnd :: tokens), ?_, ?_⟩
      · simp only [List.cons_append, List.append_assoc]
        exact splits_delimiter .callStart trivial rfl (by decide)
          (splits_blanks hblanks (.token hlongest (hleaves.symm ▸ hsplits')))
      · rw [List.map_cons, Node.unlined, Node.relined, Node.relinedAll_eq_map]
        exact .call htoken hderives' hderives

/-! ## From derivations to spelled texts -/

/-- Where tokens stand that derive entries, these are spelled. -/
theorem entries_of_tokens {tokens more : List Token} {params : List Param}
    (h : DerivesEntries tokens params) (line : Nat) {text : List Char}
    (hsplits : Splits true text (tokens ++ more)) :
    ∃ front back found, text = front ++ back ∧ Splits true back more
      ∧ SpellsEntries line front found ∧ found.map (Param.relined fun _ => 0) = params := by
  induction h generalizing line text with
  | nil => exact ⟨[], text, [], rfl, hsplits, .nil line, rfl⟩
  | entry hparam _ ih =>
      obtain ⟨blanks, rest, rfl, hblanks, hlongest, hrest⟩ := splits_cons hsplits
      obtain ⟨name, type, rfl, found, hword, hfound⟩ :=
        entryWord_of_token (line + blanks.count '\n') hlongest.legal hparam
      have hends := entryEnds_of_longest hlongest fun d hd => (splits_start hrest d hd).2
      obtain ⟨front, back, more', rfl, hback, hspells, hmore⟩ := ih (line + blanks.count '\n') hrest
      refine ⟨blanks ++ (_ ++ front), back, found :: more', by simp, hback,
        spellsEntries_blanks hblanks (.entry hword hends.front hspells), ?_⟩
      rw [List.map_cons, hfound, hmore]

/-- Where tokens stand that derive nodes, these are spelled. -/
theorem spells_of_tokens {tokens more : List Token} {nodes : List Node}
    (h : Derives tokens nodes) (line : Nat) {text : List Char}
    (hsplits : Splits false text (tokens ++ more)) :
    ∃ front back found, text = front ++ back ∧ Splits false back more
      ∧ Spells line front found ∧ found.map Node.unlined = nodes := by
  induction h generalizing line text more with
  | nil => exact ⟨[], text, [], rfl, hsplits, .nil line, rfl⟩
  | @leaf token rest node nodes hleaf _ ih =>
      obtain ⟨blanks, rest, rfl, hblanks, hlongest, hrest⟩ := splits_cons hsplits
      obtain ⟨found, hword, hfound, hleaves⟩ :=
        leaf_of_token (line + blanks.count '\n') hlongest.legal hleaf
      rw [hleaves] at hrest
      have hends := ends_of_longest hlongest fun d hd => (splits_start hrest d hd).1
      obtain ⟨front, back, more', rfl, hback, hspells, hmore⟩ := ih (line + blanks.count '\n') hrest
      refine ⟨blanks ++ (token.text ++ front), back, found :: more', by simp, hback,
        spells_blanks hblanks (.leaf hword hends.front hspells), ?_⟩
      rw [List.map_cons, hfound, hmore]
  | @list inner rest params nodes hinner _ ih =>
      rw [List.cons_append, List.append_assoc] at hsplits
      obtain ⟨blanks, text, rfl, hblanks, -, hinside⟩ := splits_cons hsplits
      obtain ⟨front, back, found, rfl, hback, hentries, hfound⟩ :=
        entries_of_tokens hinner (line + blanks.count '\n') hinside
      -- the blanks in front of the closing bracket belong to the contents
      obtain ⟨blanks', text, rfl, hblanks', -, hrest⟩ := splits_cons hback
      have hentries' := spellsEntries_append_blanks hentries hblanks'
      obtain ⟨front', back, more', rfl, hback, hspells, hmore⟩ :=
        ih (line + blanks.count '\n' + (front ++ blanks').count '\n') hrest
      refine ⟨blanks ++ '[' :: (front ++ blanks' ++ ']' :: front'), back, _, ?_, hback,
        spells_blanks hblanks (.list hentries' hspells), ?_⟩
      · simp [Token.text]
      · rw [List.map_cons, hmore, ← hfound]
        rfl
  | @call token inner rest head args nodes hhead _ _ ihinner ih =>
      rw [List.cons_append, List.cons_append, List.append_assoc] at hsplits
      obtain ⟨blanks, text, rfl, hblanks, -, hinside⟩ := splits_cons hsplits
      obtain ⟨blanks', text, rfl, hblanks', hlongest, hinside⟩ := splits_cons hinside
      obtain ⟨found, hword, hfound, hleaves⟩ :=
        head_of_token (line + blanks.count '\n' + blanks'.count '\n') hlongest.legal hhead
      change Splits (token.leaves false) _ _ at hinside
      rw [hleaves] at hinside
      -- the head was the longest token there, so it ends in front of the arguments
      have hends := ends_of_longest hlongest fun d hd => (splits_start hinside d hd).1
      obtain ⟨front, back, args', rfl, hback, hargs, hargs'⟩ :=
        ihinner (line + blanks.count '\n' + blanks'.count '\n') hinside
      obtain ⟨blanks'', text, rfl, hblanks'', -, hrest⟩ := splits_cons hback
      rw [← List.append_assoc] at hends
      obtain ⟨front', back, more', rfl, hback, hspells, hmore⟩ :=
        ih (line + blanks.count '\n' + (blanks' ++ (front ++ blanks'')).count '\n') hrest
      have hcontents := spells_append_blanks hargs hblanks''
      refine ⟨blanks ++ '(' :: (blanks' ++ (token.text ++ (front ++ blanks'')) ++ ')' :: front'),
        back, _, ?_, hback,
        spells_blanks hblanks (.call hblanks' hword hends.front hcontents hspells), ?_⟩
      · simp [Token.text]
      · rw [List.map_cons, hmore, Node.unlined, Node.relined, Node.relinedAll_eq_map, hfound,
          ← hargs']
        rfl

end DefForms.Grammar
