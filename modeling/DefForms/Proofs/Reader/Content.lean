import DefForms.Proofs.Definition.Expansion
import DefForms.Proofs.Reader.Reading

set_option autoImplicit false

/-! # Nothing is lost

Reading drops the blanks of a text and the surface text of a tree has blanks of its own; apart from
blanks, the two hold the same characters in the same order. A spelled text is compared with the
surface texts of its nodes in a row (`withoutBlanks_of_spells`), and so is what is printed
(`withoutBlanks_surfaceLines`). -/

namespace DefForms

open Reader

/-- The text with its spaces and line ends deleted. -/
def withoutBlanks (text : List Char) : List Char := text.filter fun c => !isBlank c

@[simp]
theorem withoutBlanks_nil : withoutBlanks [] = [] := rfl

@[simp]
theorem withoutBlanks_append (front back : List Char) :
    withoutBlanks (front ++ back) = withoutBlanks front ++ withoutBlanks back :=
  List.filter_append ..

theorem withoutBlanks_cons_of_isBlank {c : Char} (rest : List Char) (h : isBlank c = true) :
    withoutBlanks (c :: rest) = withoutBlanks rest :=
  List.filter_cons_of_neg (by simp [h])

theorem withoutBlanks_cons {c : Char} (rest : List Char) (h : isBlank c = false) :
    withoutBlanks (c :: rest) = c :: withoutBlanks rest :=
  List.filter_cons_of_pos (by simp [h])

theorem withoutBlanks_blanks {blanks : List Char} (h : ∀ c ∈ blanks, isBlank c = true) :
    withoutBlanks blanks = [] :=
  List.filter_eq_nil_iff.2 fun c hc => by simp [h c hc]

/-! ## What is printed -/

/-- The blanks that separate the parts of a form are all that is printed besides the parts. -/
theorem withoutBlanks_surfaceAll (entries : List Param) :
    withoutBlanks (Param.surfaceAll entries) = withoutBlanks (entries.flatMap Param.surface) := by
  induction entries with
  | nil => rfl
  | cons entry rest ih =>
      cases rest with
      | nil => simp [Param.surfaceAll]
      | cons next rest =>
          rw [Param.surfaceAll, withoutBlanks_append, withoutBlanks_cons_of_isBlank _ (by decide), ih,
            ← withoutBlanks_append, ← List.flatMap_cons]

theorem withoutBlanks_surfaceSpaced (nodes : List Node) :
    withoutBlanks (Node.surfaceSpaced nodes) = withoutBlanks (nodes.flatMap Node.surface) := by
  induction nodes with
  | nil => rfl
  | cons node rest ih =>
      rw [Node.surfaceSpaced, withoutBlanks_cons_of_isBlank _ (by decide), withoutBlanks_append, ih,
        List.flatMap_cons, withoutBlanks_append]

theorem withoutBlanks_surfaceLines (nodes : List Node) :
    withoutBlanks (Node.surfaceLines nodes) = withoutBlanks (nodes.flatMap Node.surface) := by
  induction nodes with
  | nil => rfl
  | cons node rest ih =>
      cases rest with
      | nil => simp [Node.surfaceLines]
      | cons next rest =>
          rw [Node.surfaceLines, withoutBlanks_append, withoutBlanks_cons_of_isBlank _ (by decide), ih,
            ← withoutBlanks_append, ← List.flatMap_cons]

/-! ## What is read -/

theorem surface_leaf {line : Nat} {word : List Char} {node : Node} (h : Leaf line word node) :
    node.surface = word := by
  cases h with
  | int | float | term => exact String.toList_ofList
  | operator => rfl

theorem surface_entryWord {line : Nat} {word : List Char} {param : Param}
    (h : EntryWord line word param) : param.surface = word := by
  cases h with
  | intro => simp [Param.surface]

theorem surface_toNode (head : Head) : head.toNode.surface = head.text.toList := by
  cases head with
  | term => rfl
  | operator => simp [Head.toNode, Head.text, Node.surface]

theorem withoutBlanks_of_entries {line : Nat} {text : List Char} {params : List Param}
    (h : SpellsEntries line text params) :
    withoutBlanks text = withoutBlanks (params.flatMap Param.surface) := by
  induction h with
  | nil => rfl
  | blank hc _ ih => rw [withoutBlanks_cons_of_isBlank _ hc, ih]
  | entry hword _ _ ih =>
      rw [withoutBlanks_append, ih, List.flatMap_cons, withoutBlanks_append,
        surface_entryWord hword]

/-- Without its blanks, a spelled text is the texts of its nodes in a row. -/
theorem withoutBlanks_of_spells {line : Nat} {text : List Char} {nodes : List Node}
    (h : Spells line text nodes) :
    withoutBlanks text = withoutBlanks (nodes.flatMap Node.surface) := by
  induction h with
  | nil => rfl
  | blank hc _ ih => rw [withoutBlanks_cons_of_isBlank _ hc, ih]
  | leaf hword _ _ ih =>
      rw [withoutBlanks_append, ih, List.flatMap_cons, withoutBlanks_append, surface_leaf hword]
  | @list line inner rest params nodes hinner _ ih =>
      have hform : withoutBlanks (Node.paramList ⟨line, params⟩).surface
          = '[' :: (withoutBlanks inner ++ [']']) := by
        rw [Node.surface, ParamList.surface, withoutBlanks_cons _ (by decide), withoutBlanks_append,
          withoutBlanks_surfaceAll, withoutBlanks_of_entries hinner]
        rfl
      rw [List.flatMap_cons, withoutBlanks_append, hform, ← ih, withoutBlanks_cons _ (by decide),
        withoutBlanks_append, withoutBlanks_cons _ (by decide)]
      simp
  | @call line blanks word inner rest head args nodes hblanks hhead _ _ _ ihinner ih =>
      have hword : head.text.toList = word := (surface_toNode head).symm.trans (surface_leaf hhead)
      have hform : withoutBlanks (Node.call line head args).surface
          = '(' :: (withoutBlanks word ++ (withoutBlanks inner ++ [')'])) := by
        rw [Node.surface, hword, withoutBlanks_cons _ (by decide), withoutBlanks_append,
          withoutBlanks_append, withoutBlanks_surfaceSpaced, ihinner]
        rfl
      -- the blanks in front of the head are the only ones that no part of the call holds
      rw [List.flatMap_cons, withoutBlanks_append, hform, ← ih, withoutBlanks_cons _ (by decide),
        withoutBlanks_append, withoutBlanks_append, withoutBlanks_append,
        withoutBlanks_blanks hblanks, withoutBlanks_cons _ (by decide)]
      simp

/-- What is printed of a source that is read, as it is or with its definitions expanded, is the source
    itself with other blanks. -/
theorem Source.withoutBlanks_render (source : Source) :
    (∀ nodes, source.nodes = .ok nodes →
        withoutBlanks (Format.render nodes .pretty) = withoutBlanks source.text.toList)
      ∧ ∀ nodes, source.expanded = .ok nodes →
        withoutBlanks (Format.render nodes .pretty) = withoutBlanks source.text.toList := by
  have hread : ∀ nodes, source.nodes = .ok nodes →
      withoutBlanks (Node.surfaceLines nodes) = withoutBlanks source.text.toList := by
    intro nodes h
    obtain ⟨hspells, -⟩ := nodes_eq_ok_iff.1 h
    rw [withoutBlanks_surfaceLines, withoutBlanks_of_spells hspells]
  refine ⟨hread, ?_⟩
  intro nodes h
  rw [expanded] at h
  split at h
  · next found hfound =>
      rw [expand] at h
      split at h
      · next expanded hexpanded =>
          obtain rfl := Except.ok.inj h
          rw [← hread found hfound, Format.render, surfaceLines_expandDefinitions hexpanded]
      · simp at h
  · simp at h

theorem Source.withoutBlanks_render_of_definition :
    withoutBlanks (Format.render [.call 1 (.term ⟨1, "def"⟩) [.term ⟨1, "f"⟩,
        .paramList ⟨2, [⟨2, ⟨2, "x"⟩, ⟨2, "Int"⟩⟩]⟩, .float ⟨2, "1."⟩]] .pretty)
      = withoutBlanks "(def f\n[ x:Int]1.)".toList
      ∧ withoutBlanks (Format.render [.definition 1 ⟨1, "f"⟩ ⟨2, [⟨2, ⟨2, "x"⟩, ⟨2, "Int"⟩⟩]⟩
        [.float ⟨2, "1."⟩]] .pretty) = withoutBlanks "(def f\n[ x:Int]1.)".toList := by
  have hnodes : Source.nodes ⟨"s", "(def f\n[ x:Int]1.)"⟩ = .ok [.call 1 (.term ⟨1, "def"⟩)
      [.term ⟨1, "f"⟩, .paramList ⟨2, [⟨2, ⟨2, "x"⟩, ⟨2, "Int"⟩⟩]⟩, .float ⟨2, "1."⟩]] := by
    decide +kernel
  have hexpanded : Source.expanded ⟨"s", "(def f\n[ x:Int]1.)"⟩ = .ok [.definition 1 ⟨1, "f"⟩
      ⟨2, [⟨2, ⟨2, "x"⟩, ⟨2, "Int"⟩⟩]⟩ [.float ⟨2, "1."⟩]] := by
    decide +kernel
  have h := withoutBlanks_render ⟨"s", "(def f\n[ x:Int]1.)"⟩
  exact ⟨h.1 _ hnodes, h.2 _ hexpanded⟩

end DefForms
