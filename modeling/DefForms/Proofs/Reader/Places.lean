import DefForms.Proofs.Bytes.Encoding
import DefForms.Proofs.Reader.Depth

set_option autoImplicit false

/-! # Where the parts of a program start

`Places offset text places` says where everything in a text stands. The tree `places` has the byte at
which a construct starts in place of its line: for a call that of its opening parenthesis, for a
parameter list that of its opening bracket, for an entry and both of its terms that of its first
character, and for any other word that of the word. The relation follows the text, and no line
enters it.

The lines of a tree that is read are those of its places (`Source.nodes_lines`). -/

namespace DefForms.Reader

/-! ## Places -/

/-- The entries in the text, which starts at byte `offset`, start at these places. -/
inductive PlacesEntries : Nat → List Char → List Param → Prop where
  | nil (offset : Nat) : PlacesEntries offset [] []
  | blank {offset : Nat} {c : Char} {rest : List Char} {places : List Param}
      (hc : isBlank c = true) (hrest : PlacesEntries (offset + byteSize [c]) rest places) :
      PlacesEntries offset (c :: rest) places
  | entry {offset : Nat} {word rest : List Char} {place : Param} {places : List Param}
      (hword : EntryWord offset word place) (hends : EntryEnds rest)
      (hrest : PlacesEntries (offset + byteSize word) rest places) :
      PlacesEntries offset (word ++ rest) (place :: places)

/-- The nodes in the text, which starts at byte `offset`, and all their parts start at these
    places. -/
inductive Places : Nat → List Char → List Node → Prop where
  | nil (offset : Nat) : Places offset [] []
  | blank {offset : Nat} {c : Char} {rest : List Char} {places : List Node}
      (hc : isBlank c = true) (hrest : Places (offset + byteSize [c]) rest places) :
      Places offset (c :: rest) places
  | leaf {offset : Nat} {word rest : List Char} {place : Node} {places : List Node}
      (hword : Leaf offset word place) (hends : Ends word rest)
      (hrest : Places (offset + byteSize word) rest places) :
      Places offset (word ++ rest) (place :: places)
  | list {offset : Nat} {inner rest : List Char} {params : List Param} {places : List Node}
      (hinner : PlacesEntries (offset + byteSize ['[']) inner params)
      (hrest : Places (offset + byteSize ('[' :: (inner ++ [']']))) rest places) :
      Places offset ('[' :: (inner ++ ']' :: rest)) (.paramList ⟨offset, params⟩ :: places)
  | call {offset : Nat} {blanks word inner rest : List Char} {head : Head}
      {args places : List Node} (hblanks : ∀ c ∈ blanks, isBlank c = true)
      (hhead : Leaf (offset + byteSize ('(' :: blanks)) word head.toNode) (hends : Ends word inner)
      (hinner : Places (offset + byteSize ('(' :: (blanks ++ word))) inner args)
      (hrest : Places (offset + byteSize ('(' :: (blanks ++ (word ++ inner) ++ [')']))) rest
        places) :
      Places offset ('(' :: (blanks ++ (word ++ inner) ++ ')' :: rest))
        (.call offset head args :: places)

/-! ## Words at other places -/

theorem leaf_relined (f : Nat → Nat) {line : Nat} {word : List Char} {node : Node}
    (h : Leaf line word node) : Leaf (f line) word (node.relined f) := by
  cases h with
  | int h => exact .int h
  | float h => exact .float h
  | operator h => exact .operator h
  | term h => exact .term h

theorem entryWord_relined (f : Nat → Nat) {line : Nat} {word : List Char} {param : Param}
    (h : EntryWord line word param) : EntryWord (f line) word (param.relined f) := by
  cases h with
  | intro hname htype => exact .intro hname htype

/-! ## Every spelled text has places -/

theorem exists_placesEntries {line : Nat} {text : List Char} {params : List Param}
    (h : SpellsEntries line text params) (offset : Nat) :
    ∃ places, PlacesEntries offset text places := by
  induction h generalizing offset with
  | nil => exact ⟨[], .nil offset⟩
  | blank hc _ ih =>
      obtain ⟨places, hplaces⟩ := ih _
      exact ⟨places, .blank hc hplaces⟩
  | entry hword hends _ ih =>
      obtain ⟨places, hplaces⟩ := ih _
      exact ⟨_, .entry (entryWord_relined (fun _ => offset) hword) hends hplaces⟩

theorem exists_places {line : Nat} {text : List Char} {nodes : List Node}
    (h : Spells line text nodes) (offset : Nat) : ∃ places, Places offset text places := by
  induction h generalizing offset with
  | nil => exact ⟨[], .nil offset⟩
  | blank hc _ ih =>
      obtain ⟨places, hplaces⟩ := ih _
      exact ⟨places, .blank hc hplaces⟩
  | leaf hword hends _ ih =>
      obtain ⟨places, hplaces⟩ := ih _
      exact ⟨_, .leaf (leaf_relined (fun _ => offset) hword) hends hplaces⟩
  | list hinner _ ih =>
      obtain ⟨params, hparams⟩ := exists_placesEntries hinner _
      obtain ⟨places, hplaces⟩ := ih _
      exact ⟨_, .list hparams hplaces⟩
  | @call line blanks word inner rest head args nodes hblanks hhead hends _ _ ihinner ih =>
      obtain ⟨args, hargs⟩ := ihinner _
      obtain ⟨places, hplaces⟩ := ih _
      have hplace := leaf_relined (fun _ => offset + byteSize ('(' :: blanks)) hhead
      rw [← Head.relined_toNode] at hplace
      exact ⟨_, .call hblanks hplace hends hargs hplaces⟩

/-! ## The lines of places -/

section Lines

variable {source : String} {offset : Nat}

theorem spellsEntries_of_places {text : List Char} {places : List Param}
    (h : PlacesEntries offset text places) (hstands : StandsAt source offset text) :
    SpellsEntries (lineAt source offset) text (places.map (Param.relined (lineAt source))) := by
  induction h with
  | nil offset => exact .nil _
  | @blank offset c rest places hc _ ih =>
      have hblank : StandsAt source offset ([c] ++ rest) := hstands
      exact .blank hc (hblank.lineAt ▸ ih hblank.behind)
  | @entry offset word rest place places hword hends _ ih =>
      have hline := hstands.lineAt
      rw [count_newline_of_plain (entryWord_plain hword), Nat.add_zero] at hline
      exact .entry (entryWord_relined _ hword) hends (hline ▸ ih hstands.behind)

/-- A text with these places is spelled for the tree that has the lines of the places. -/
theorem spells_of_places {text : List Char} {places : List Node} (h : Places offset text places)
    (hstands : StandsAt source offset text) :
    Spells (lineAt source offset) text (places.map (Node.relined (lineAt source))) := by
  induction h with
  | nil offset => exact .nil _
  | @blank offset c rest places hc _ ih =>
      have hblank : StandsAt source offset ([c] ++ rest) := hstands
      exact .blank hc (hblank.lineAt ▸ ih hblank.behind)
  | @leaf offset word rest place places hword hends _ ih =>
      have hline := hstands.lineAt
      rw [count_newline_of_plain (leaf_plain hword), Nat.add_zero] at hline
      exact .leaf (leaf_relined _ hword) hends (hline ▸ ih hstands.behind)
  | @list offset inner rest params places hinner _ ih =>
      have hentries : StandsAt source offset (['['] ++ (inner ++ ']' :: rest)) := hstands
      have hbehind : StandsAt source offset ('[' :: (inner ++ [']']) ++ rest) := by
        simpa using hstands
      have hspells := spellsEntries_of_places hinner hentries.behind.front
      rw [hentries.lineAt] at hspells
      have hmore := ih hbehind.behind
      rw [hbehind.lineAt] at hmore
      exact .list (by simpa using hspells) (by simpa using hmore)
  | @call offset blanks word inner rest head args places hblanks hhead hends _ _ ihinner ih =>
      have hplain := count_newline_of_plain (leaf_plain hhead)
      -- the same text, cut in front of the head, of the arguments and of what follows
      have hword : StandsAt source offset ('(' :: blanks ++ (word ++ inner ++ ')' :: rest)) := by
        simpa using hstands
      have hargs : StandsAt source offset ('(' :: (blanks ++ word) ++ (inner ++ ')' :: rest)) := by
        simpa using hstands
      have hbehind : StandsAt source offset
          ('(' :: (blanks ++ (word ++ inner) ++ [')']) ++ rest) := by
        simpa using hstands
      have hleaf := leaf_relined (lineAt source) hhead
      rw [hword.lineAt, ← Head.relined_toNode] at hleaf
      have hinside := ihinner hargs.behind.front
      rw [hargs.lineAt] at hinside
      have hmore := ih hbehind.behind
      rw [hbehind.lineAt] at hmore
      rw [List.map_cons, Node.relined, Node.relinedAll_eq_map]
      exact .call hblanks (by simpa using hleaf) hends (by simpa [hplain] using hinside)
        (by simpa [hplain] using hmore)

end Lines

end DefForms.Reader

namespace DefForms.Source

open Reader

/-- The parts of a source that is read have places, and the line of every part is the line of its
    place. -/
theorem nodes_lines {source : Source} {nodes : List Node} (h : source.nodes = .ok nodes) :
    (∃ places, Places 0 source.text.toList places)
      ∧ ∀ places, Places 0 source.text.toList places →
        nodes = places.map (Node.relined (lineAt source.text)) := by
  obtain ⟨hspells, hfits⟩ := nodes_eq_ok_iff.1 h
  refine ⟨exists_places hspells 0, ?_⟩
  intro places hplaces
  have hread := spells_of_places hplaces (standsAt_start source.text)
  exact (eq_of_spells (program_eq_ok_iff.2 ⟨hspells, hfits⟩) hread).symm

theorem nodes_lines_of_call :
    Source.nodes ⟨"s", "(\nf [x:A\ny:B]\n1.) z"⟩ = .ok [.call 1 (.term ⟨2, "f"⟩)
        [.paramList ⟨2, [⟨2, ⟨2, "x"⟩, ⟨2, "A"⟩⟩, ⟨3, ⟨3, "y"⟩, ⟨3, "B"⟩⟩]⟩, .float ⟨4, "1."⟩],
        .term ⟨4, "z"⟩]
      ∧ (∃ places, Places 0 "(\nf [x:A\ny:B]\n1.) z".toList places)
      ∧ ∀ places, Places 0 "(\nf [x:A\ny:B]\n1.) z".toList places →
        [.call 1 (.term ⟨2, "f"⟩)
          [.paramList ⟨2, [⟨2, ⟨2, "x"⟩, ⟨2, "A"⟩⟩, ⟨3, ⟨3, "y"⟩, ⟨3, "B"⟩⟩]⟩, .float ⟨4, "1."⟩],
          .term ⟨4, "z"⟩]
          = places.map (Node.relined (lineAt "(\nf [x:A\ny:B]\n1.) z")) := by
  have hread : Source.nodes ⟨"s", "(\nf [x:A\ny:B]\n1.) z"⟩ = .ok [.call 1 (.term ⟨2, "f"⟩)
      [.paramList ⟨2, [⟨2, ⟨2, "x"⟩, ⟨2, "A"⟩⟩, ⟨3, ⟨3, "y"⟩, ⟨3, "B"⟩⟩]⟩, .float ⟨4, "1."⟩],
      .term ⟨4, "z"⟩] := by
    decide +kernel
  exact ⟨hread, nodes_lines hread⟩

end DefForms.Source
