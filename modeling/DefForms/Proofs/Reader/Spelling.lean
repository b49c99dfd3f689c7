import DefForms.Proofs.Node.Shape
import DefForms.Proofs.Reader.Delimiter
import DefForms.Proofs.Reader.Word

set_option autoImplicit false

/-! # How programs are written

`Spells line text nodes` says that `text`, which starts on `line`, is written for `nodes`: it is a row
of leaves, parameter lists and calls with blanks between them, and every node has the line on which
it starts. The relation knows neither a search for closing delimiters nor a bound on the depth.

The delimiters of a spelled text are balanced (`spells_balanced`, `entries_balanced`), so the search
for the end of a form stops where the form ends. `Proofs/Reader/Reading` shows that what is spelled is
what is read. -/

namespace DefForms.Reader

/-! ## Entries of parameter lists -/

/-- The text, which starts on `line`, is written for these entries. -/
inductive SpellsEntries : Nat → List Char → List Param → Prop where
  | nil (line : Nat) : SpellsEntries line [] []
  | blank {line : Nat} {c : Char} {rest : List Char} {params : List Param}
      (hc : isBlank c = true) (hrest : SpellsEntries (line + [c].count '\n') rest params) :
      SpellsEntries line (c :: rest) params
  | entry {line : Nat} {word rest : List Char} {param : Param} {params : List Param}
      (hword : EntryWord line word param) (hends : EntryEnds rest)
      (hrest : SpellsEntries line rest params) :
      SpellsEntries line (word ++ rest) (param :: params)

/-! ## Nodes -/

/-- The text, which starts on `line`, is written for these nodes. -/
inductive Spells : Nat → List Char → List Node → Prop where
  | nil (line : Nat) : Spells line [] []
  | blank {line : Nat} {c : Char} {rest : List Char} {nodes : List Node}
      (hc : isBlank c = true) (hrest : Spells (line + [c].count '\n') rest nodes) :
      Spells line (c :: rest) nodes
  | leaf {line : Nat} {word rest : List Char} {node : Node} {nodes : List Node}
      (hword : Leaf line word node) (hends : Ends word rest) (hrest : Spells line rest nodes) :
      Spells line (word ++ rest) (node :: nodes)
  | list {line : Nat} {inner rest : List Char} {params : List Param} {nodes : List Node}
      (hinner : SpellsEntries line inner params)
      (hrest : Spells (line + inner.count '\n') rest nodes) :
      Spells line ('[' :: (inner ++ ']' :: rest)) (.paramList ⟨line, params⟩ :: nodes)
  | call {line : Nat} {blanks word inner rest : List Char} {head : Head} {args nodes : List Node}
      (hblanks : ∀ c ∈ blanks, isBlank c = true)
      (hhead : Leaf (line + blanks.count '\n') word head.toNode) (hends : Ends word inner)
      (hinner : Spells (line + blanks.count '\n') inner args)
      (hrest : Spells (line + (blanks ++ inner).count '\n') rest nodes) :
      Spells line ('(' :: (blanks ++ (word ++ inner) ++ ')' :: rest))
        (.call line head args :: nodes)

theorem spells_leaf {line : Nat} {word : List Char} {node : Node} (h : Leaf line word node) :
    Spells line word [node] := by
  have hspells := Spells.leaf h (ends_of_loose loose_nil) (.nil line)
  rwa [List.append_nil] at hspells

/-! ## Texts in a row -/

theorem add_count_newline_cons (line : Nat) (c : Char) (rest : List Char) :
    line + (c :: rest).count '\n' = line + [c].count '\n' + rest.count '\n' := by
  rw [Nat.add_assoc, ← List.count_append, List.singleton_append]

theorem spellsEntries_blanks {line : Nat} {blanks rest : List Char} {params : List Param}
    (hblanks : ∀ c ∈ blanks, isBlank c = true)
    (h : SpellsEntries (line + blanks.count '\n') rest params) :
    SpellsEntries line (blanks ++ rest) params := by
  induction blanks generalizing line with
  | nil => exact h
  | cons c blanks ih =>
      obtain ⟨hc, hblanks⟩ := List.forall_mem_cons.1 hblanks
      rw [add_count_newline_cons] at h
      exact .blank hc (ih hblanks h)

theorem spells_blanks {line : Nat} {blanks rest : List Char} {nodes : List Node}
    (hblanks : ∀ c ∈ blanks, isBlank c = true)
    (h : Spells (line + blanks.count '\n') rest nodes) : Spells line (blanks ++ rest) nodes := by
  induction blanks generalizing line with
  | nil => exact h
  | cons c blanks ih =>
      obtain ⟨hc, hblanks⟩ := List.forall_mem_cons.1 hblanks
      rw [add_count_newline_cons] at h
      exact .blank hc (ih hblanks h)

theorem spellsEntries_append {line : Nat} {front back : List Char} {params more : List Param}
    (h : SpellsEntries line front params) (hends : EntryEnds back)
    (hback : SpellsEntries (line + front.count '\n') back more) :
    SpellsEntries line (front ++ back) (params ++ more) := by
  induction h with
  | nil => exact hback
  | @blank line c rest params hc _ ih =>
      rw [add_count_newline_cons] at hback
      exact .blank hc (ih hback)
  | @entry line word rest param params hword hends' _ ih =>
      rw [List.count_append, count_newline_of_plain (entryWord_plain hword), Nat.zero_add] at hback
      rw [List.append_assoc]
      exact .entry hword (entryEnds_append hends' hends) (ih hback)

/-- What is spelled in front of a loose text is spelled there as it is alone. -/
theorem spells_append {line : Nat} {front back : List Char} {nodes more : List Node}
    (h : Spells line front nodes) (hloose : Loose back)
    (hback : Spells (line + front.count '\n') back more) :
    Spells line (front ++ back) (nodes ++ more) := by
  induction h with
  | nil => exact hback
  | @blank line c rest nodes hc _ ih =>
      rw [add_count_newline_cons] at hback
      exact .blank hc (ih hback)
  | @leaf line word rest node nodes hword hends _ ih =>
      rw [List.count_append, count_newline_of_plain (leaf_plain hword), Nat.zero_add] at hback
      rw [List.append_assoc]
      exact .leaf hword (ends_append hends hloose) (ih hback)
  | @list line inner rest params nodes hinner _ ih =>
      have hcount : ('[' :: (inner ++ ']' :: rest)).count '\n'
          = inner.count '\n' + rest.count '\n' := by simp
      rw [hcount, ← Nat.add_assoc] at hback
      rw [List.cons_append, List.append_assoc]
      exact .list hinner (ih hback)
  | @call line blanks word inner rest head args nodes hblanks hhead hends hinner _ _ ih =>
      have hcount : ('(' :: (blanks ++ (word ++ inner) ++ ')' :: rest)).count '\n'
          = (blanks ++ inner).count '\n' + rest.count '\n' := by
        simp [count_newline_of_plain (leaf_plain hhead), Nat.add_assoc]
      rw [hcount, ← Nat.add_assoc] at hback
      rw [List.cons_append, List.append_assoc]
      exact .call hblanks hhead hends hinner (ih hback)

theorem entryEnds_of_blanks {blanks : List Char} (h : ∀ c ∈ blanks, isBlank c = true) :
    EntryEnds blanks := by
  intro c hc
  have hblank := isStructural_of_isBlank (h c (List.mem_of_mem_head? hc))
  have hcolon : c ≠ ':' := ne_of_isBlank (h c (List.mem_of_mem_head? hc)) (by decide)
  simp [isEntryChar, isNameChar_of_isStructural hblank, hcolon]

theorem loose_of_blanks {blanks : List Char} (h : ∀ c ∈ blanks, isBlank c = true) :
    Loose blanks := by
  cases blanks with
  | nil => exact loose_nil
  | cons c blanks => exact loose_of_isStructural _ (isStructural_of_isBlank (h c (by simp)))

theorem spellsEntries_append_blanks {line : Nat} {text blanks : List Char} {params : List Param}
    (h : SpellsEntries line text params) (hblanks : ∀ c ∈ blanks, isBlank c = true) :
    SpellsEntries line (text ++ blanks) params := by
  have hback : SpellsEntries (line + text.count '\n') (blanks ++ []) [] :=
    spellsEntries_blanks hblanks (.nil _)
  rw [List.append_nil] at hback
  have hwhole := spellsEntries_append h (entryEnds_of_blanks hblanks) hback
  rwa [List.append_nil] at hwhole

theorem spells_append_blanks {line : Nat} {text blanks : List Char} {nodes : List Node}
    (h : Spells line text nodes) (hblanks : ∀ c ∈ blanks, isBlank c = true) :
    Spells line (text ++ blanks) nodes := by
  have hback : Spells (line + text.count '\n') (blanks ++ []) [] := spells_blanks hblanks (.nil _)
  rw [List.append_nil] at hback
  have hwhole := spells_append h (loose_of_blanks hblanks) hback
  rwa [List.append_nil] at hwhole

/-! ## Delimiters of spelled texts -/

/-- There is no delimiter in the text of entries. -/
theorem entries_balanced {opener closer : Char} {line : Nat} {text : List Char}
    {params : List Param} (hopener : isStructural opener = true ∧ isBlank opener = false)
    (hcloser : isStructural closer = true ∧ isBlank closer = false)
    (h : SpellsEntries line text params) : Balanced opener closer text := by
  induction h with
  | nil => exact balanced_nil
  | blank hc _ ih => exact balanced_cons (ne_of_isBlank hc hopener.2) (ne_of_isBlank hc hcloser.2) ih
  | entry hword _ _ ih =>
      have hplain := entryWord_plain hword
      exact balanced_append (balanced_of_forall (by simp [hopener.1]) (by simp [hcloser.1]) hplain) ih

theorem balanced_of_plain {word : List Char} (h : ∀ c ∈ word, isStructural c = false) :
    Balanced '(' ')' word :=
  balanced_of_forall (by decide) (by decide) h

theorem balanced_of_blanks {blanks : List Char} (h : ∀ c ∈ blanks, isBlank c = true) :
    Balanced '(' ')' blanks :=
  balanced_of_forall (by decide) (by decide) h

/-- The parentheses of a spelled text are balanced. -/
theorem spells_balanced {line : Nat} {text : List Char} {nodes : List Node}
    (h : Spells line text nodes) : Balanced '(' ')' text := by
  induction h with
  | nil => exact balanced_nil
  | blank hc _ ih =>
      exact balanced_cons (ne_of_isBlank hc (by decide)) (ne_of_isBlank hc (by decide)) ih
  | leaf hword _ _ ih => exact balanced_append (balanced_of_plain (leaf_plain hword)) ih
  | list hinner _ ih =>
      refine balanced_cons (by decide) (by decide) (balanced_append ?_ ?_)
      · exact entries_balanced (by decide) (by decide) hinner
      · exact balanced_cons (by decide) (by decide) ih
  | call hblanks hhead _ _ _ ihinner ihrest =>
      have hinside := balanced_append (balanced_of_blanks hblanks)
        (balanced_append (balanced_of_plain (leaf_plain hhead)) ihinner)
      simpa using balanced_append (balanced_form (by decide) hinside) ihrest

end DefForms.Reader
