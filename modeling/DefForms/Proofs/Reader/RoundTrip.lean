import DefForms.Proofs.Reader.Reading

set_option autoImplicit false

/-! # Reading what was written

`Node.surface` and the reader are inverse to each other. The trees that can be read are those that
are `WellFormed`: every text in them is one of the notation, entries stand in parameter lists only,
and there are no definitions, which are calls in the notation. The surface text of such a tree is
spelled for the tree (`spells_surface`), so it is read as this tree, only with new lines. -/

namespace DefForms

open Reader

/-! ## Trees that can be written -/

/-- The term is written as a name. -/
def Term.Spellable (term : Term) : Prop := IsName term.text.toList

def Operator.Spellable (op : Operator) : Prop := op.symbol ∈ Operator.symbols

def Param.Spellable (entry : Param) : Prop := entry.name.Spellable ∧ entry.type.Spellable

def ParamList.Spellable (params : ParamList) : Prop := ∀ entry ∈ params.entries, entry.Spellable

def Head.Spellable : Head → Prop
  | .term name => name.Spellable
  | .operator op => op.Spellable

mutual

/-- The texts of the tree are those of its kinds, and every part of the tree has a notation of its
    own. -/
def Node.Spellable : Node → Prop
  | .int numeral => IsInteger numeral.text.toList
  | .float numeral => IsDecimal numeral.text.toList
  | .operator op => op.Spellable
  | .term name => name.Spellable
  | .call _ head args => head.Spellable ∧ Node.SpellableAll args
  | .paramList params => params.Spellable
  | .param _ | .definition _ _ _ _ => False

def Node.SpellableAll : List Node → Prop
  | [] => True
  | node :: rest => node.Spellable ∧ Node.SpellableAll rest

end

theorem Node.spellableAll_iff {nodes : List Node} :
    Node.SpellableAll nodes ↔ ∀ node ∈ nodes, node.Spellable := by
  induction nodes with
  | nil => simp [Node.SpellableAll]
  | cons node rest ih => rw [Node.SpellableAll, ih, List.forall_mem_cons]

/-- The trees can be written, and their notation can be read. -/
structure WellFormed (nodes : List Node) : Prop where
  spellable : ∀ node ∈ nodes, node.Spellable
  nesting_le : ∀ node ∈ nodes, node.nesting ≤ maxDepth

namespace Reader

/-! ## What is spelled can be written -/

theorem spellable_of_leaf {line : Nat} {word : List Char} {node : Node} (h : Leaf line word node) :
    node.Spellable := by
  cases h with
  | int h => simpa [Node.Spellable] using h
  | float h => simpa [Node.Spellable] using h
  | operator h => exact List.contains_iff_mem.1 h
  | term h => simpa [Node.Spellable, Term.Spellable] using h

theorem spellable_of_entries {line : Nat} {text : List Char} {params : List Param}
    (h : SpellsEntries line text params) : ∀ param ∈ params, param.Spellable := by
  induction h with
  | nil => simp
  | blank _ _ ih => exact ih
  | entry hword _ _ ih =>
      cases hword with
      | intro hname htype =>
          refine List.forall_mem_cons.2 ⟨?_, ih⟩
          simpa [Param.Spellable, Term.Spellable] using ⟨hname, htype⟩

theorem spellable_of_spells {line : Nat} {text : List Char} {nodes : List Node}
    (h : Spells line text nodes) : Node.SpellableAll nodes := by
  induction h with
  | nil => trivial
  | blank _ _ ih => exact ih
  | leaf hword _ _ ih => exact ⟨spellable_of_leaf hword, ih⟩
  | list hinner _ ih => exact ⟨spellable_of_entries hinner, ih⟩
  | @call line blanks word inner rest head args nodes _ hhead _ _ _ ihinner ih =>
      have hspellable := spellable_of_leaf hhead
      cases head with
      | term | operator => exact ⟨⟨hspellable, ihinner⟩, ih⟩

/-! ## What is written is spelled -/

theorem leaf_of_spellable {head : Head} (line : Nat) (h : head.Spellable) :
    Leaf line head.text.toList (head.relined fun _ => line).toNode := by
  cases head with
  | operator op =>
      have hop : isOperator op.symbol = true := List.contains_iff_mem.2 h
      rw [Head.text, String.toList_singleton]
      exact .operator hop
  | term name =>
      have hleaf : Leaf line _ _ := .term h
      rwa [String.ofList_toList] at hleaf

theorem entryWord_of_spellable {entry : Param} (line : Nat) (h : entry.Spellable) :
    EntryWord line entry.surface (entry.relined fun _ => line) := by
  have hword : EntryWord line _ _ := .intro h.1 h.2
  rwa [String.ofList_toList, String.ofList_toList] at hword

theorem entries_surface {entries : List Param} (line : Nat) (h : ∀ entry ∈ entries, entry.Spellable) :
    SpellsEntries line (Param.surfaceAll entries) (entries.map (Param.relined fun _ => line)) := by
  induction entries with
  | nil => exact .nil line
  | cons entry rest ih =>
      obtain ⟨hentry, hrest⟩ := List.forall_mem_cons.1 h
      have hword := entryWord_of_spellable line hentry
      cases rest with
      | nil =>
          have hlast := SpellsEntries.entry hword (by simp [EntryEnds]) (.nil line)
          rwa [List.append_nil] at hlast
      | cons next rest =>
          exact .entry hword (by simp [EntryEnds, isEntryChar, isNameChar])
            (.blank (by decide) (ih hrest))

theorem loose_surfaceSpaced (nodes : List Node) : Loose (Node.surfaceSpaced nodes) := by
  cases nodes with
  | nil => exact loose_nil
  | cons node rest => exact loose_of_isStructural _ (by decide)

theorem count_newline_entries {entries : List Param} (h : ∀ entry ∈ entries, entry.Spellable) :
    (Param.surfaceAll entries).count '\n' = 0 := by
  induction entries with
  | nil => rfl
  | cons entry rest ih =>
      obtain ⟨hentry, hrest⟩ := List.forall_mem_cons.1 h
      have hword := count_newline_of_plain (entryWord_plain (entryWord_of_spellable 0 hentry))
      cases rest with
      | nil => exact hword
      | cons next rest => simp [Param.surfaceAll, hword, ih hrest]

mutual

/-- A tree is written on one line. -/
theorem count_newline_surface (node : Node) (h : node.Spellable) :
    node.surface.count '\n' = 0 := by
  cases node with
  | int numeral => exact count_newline_of_plain (leaf_plain (.int h : Leaf 0 _ _))
  | float numeral => exact count_newline_of_plain (leaf_plain (.float h : Leaf 0 _ _))
  | operator op =>
      have hleaf : Leaf 0 [op.symbol] _ := .operator (List.contains_iff_mem.2 h)
      exact count_newline_of_plain (leaf_plain hleaf)
  | term name => exact count_newline_of_plain (leaf_plain (.term h : Leaf 0 _ _))
  | call line head args =>
      have hhead := count_newline_of_plain (leaf_plain (leaf_of_spellable 0 h.1))
      have hargs := count_newline_surfaceSpaced args h.2
      simp [Node.surface, hhead, hargs]
  | paramList params => simp [Node.surface, ParamList.surface, count_newline_entries h]
  | param | definition => exact h.elim

theorem count_newline_surfaceSpaced (nodes : List Node) (h : Node.SpellableAll nodes) :
    (Node.surfaceSpaced nodes).count '\n' = 0 := by
  cases nodes with
  | nil => rfl
  | cons node rest =>
      have hnode := count_newline_surface node h.1
      have hrest := count_newline_surfaceSpaced rest h.2
      simp [Node.surfaceSpaced, hnode, hrest]

end

mutual

/-- A tree is spelled as it is written, with all its parts on the line where it starts. -/
theorem spells_surface (line : Nat) (node : Node) (h : node.Spellable) :
    Spells line node.surface [node.relined fun _ => line] := by
  cases node with
  | int numeral =>
      have hleaf : Leaf line _ _ := .int h
      rw [String.ofList_toList] at hleaf
      exact spells_leaf hleaf
  | float numeral =>
      have hleaf : Leaf line _ _ := .float h
      rw [String.ofList_toList] at hleaf
      exact spells_leaf hleaf
  | operator op => exact spells_leaf (.operator (List.contains_iff_mem.2 h))
  | term name =>
      have hleaf : Leaf line _ _ := .term h
      rw [String.ofList_toList] at hleaf
      exact spells_leaf hleaf
  | call line' head args =>
      have hends : Ends head.text.toList (Node.surfaceSpaced args) :=
        ends_of_loose (loose_surfaceSpaced args)
      have hblanks : ∀ c ∈ ([] : List Char), isBlank c = true := by simp
      rw [Node.surface, ← List.append_assoc]
      exact .call hblanks (leaf_of_spellable line h.1) hends (spells_surfaceSpaced line args h.2)
        (.nil _)
  | paramList params => exact .list (entries_surface line h) (.nil _)
  | param | definition => exact h.elim

theorem spells_surfaceSpaced (line : Nat) (nodes : List Node) (h : Node.SpellableAll nodes) :
    Spells line (Node.surfaceSpaced nodes) (Node.relinedAll (fun _ => line) nodes) := by
  cases nodes with
  | nil => exact .nil line
  | cons node rest =>
      have hnode := spells_surface line node h.1
      have hrest := spells_surfaceSpaced line rest h.2
      -- the space in front of the next argument ends the text of this one
      refine .blank (by decide) (spells_append hnode (loose_surfaceSpaced rest) ?_)
      rwa [count_newline_surface node h.1]

end

/-- Every tree of a program is written on a line of its own. -/
theorem spells_surfaceLines (line : Nat) {nodes : List Node} (h : ∀ node ∈ nodes, node.Spellable) :
    Spells line (Node.surfaceLines nodes)
      (nodes.mapIdx fun index node => node.relined fun _ => index + line) := by
  induction nodes generalizing line with
  | nil => exact .nil line
  | cons node rest ih =>
      obtain ⟨hnode, hrest⟩ := List.forall_mem_cons.1 h
      have hfirst := spells_surface line node hnode
      rw [List.mapIdx_cons, Nat.zero_add]
      cases rest with
      | nil => exact hfirst
      | cons next rest =>
          have hmore := ih (line + 1) hrest
          refine spells_append hfirst (loose_of_isStructural _ (by decide)) (.blank (by decide) ?_)
          simp only [count_newline_surface node hnode, Nat.add_assoc, Nat.add_comm 1 line]
          exact hmore

end Reader

/-- What is read is well-formed, and whatever is well-formed is read from its surface text, with
    the number of the line on which it is written in place of every line in it. -/
theorem Source.nodes_surface :
    (∀ (source : Source) (nodes : List Node), source.nodes = .ok nodes → WellFormed nodes)
      ∧ ∀ (name : String) (nodes : List Node), WellFormed nodes →
        Source.nodes ⟨name, String.ofList (Format.render nodes .pretty)⟩
          = .ok (nodes.mapIdx fun index node => node.relined fun _ => index + 1) := by
  constructor
  · intro source nodes h
    obtain ⟨hspells, hfits⟩ := nodes_eq_ok_iff.1 h
    exact ⟨Node.spellableAll_iff.1 (spellable_of_spells hspells), Node.nestingAll_le_iff.1 hfits⟩
  · intro name nodes h
    refine nodes_eq_ok_iff.2 ⟨?_, Node.nestingAll_le_iff.2 ?_⟩
    · rw [String.toList_ofList]
      exact spells_surfaceLines 1 h.spellable
    · intro node hnode
      obtain ⟨index, hindex, rfl⟩ := List.mem_mapIdx.1 hnode
      rw [Node.nesting_relined]
      exact h.nesting_le _ (List.getElem_mem hindex)

theorem Source.nodes_surface_of_call :
    WellFormed [.call 1 (.term ⟨1, "f"⟩) [.paramList ⟨1, [⟨1, ⟨1, "x"⟩, ⟨1, "Int"⟩⟩]⟩,
        .float ⟨2, "1."⟩], .operator ⟨2, '-'⟩]
      ∧ Source.nodes ⟨"b", String.ofList (Format.render [.call 1 (.term ⟨1, "f"⟩)
          [.paramList ⟨1, [⟨1, ⟨1, "x"⟩, ⟨1, "Int"⟩⟩]⟩, .float ⟨2, "1."⟩], .operator ⟨2, '-'⟩]
          .pretty)⟩
        = .ok [.call 1 (.term ⟨1, "f"⟩) [.paramList ⟨1, [⟨1, ⟨1, "x"⟩, ⟨1, "Int"⟩⟩]⟩,
          .float ⟨1, "1."⟩], .operator ⟨2, '-'⟩] := by
  have hread : Source.nodes ⟨"a", "(f [x:Int]\n1.)-"⟩
      = .ok [.call 1 (.term ⟨1, "f"⟩) [.paramList ⟨1, [⟨1, ⟨1, "x"⟩, ⟨1, "Int"⟩⟩]⟩,
        .float ⟨2, "1."⟩], .operator ⟨2, '-'⟩] := by decide +kernel
  have hformed := nodes_surface.1 _ _ hread
  exact ⟨hformed, nodes_surface.2 "b" _ hformed⟩

end DefForms
