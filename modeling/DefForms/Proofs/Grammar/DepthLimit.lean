import DefForms.Proofs.Grammar.Derivation
import DefForms.Proofs.Reader.Places
import DefForms.Proofs.Reader.RoundTrip

set_option autoImplicit false

/-! # What the bound on the depth does

The grammar has no bound on the depth, and the reader has one. `nodes_of_derives` says that the bound
is all that lies between them: what is derived is read if it is not nested too deep, and otherwise it
is turned down at the first delimiter that is opened inside `maxDepth` open forms. -/

namespace DefForms.Grammar

open Reader

/-- A text whose tokens derive a tree is spelled for it. -/
theorem spells_of_derives {text : List Char} {tokens : List Token} {tree : List Node}
    (hsplits : Splits false text tokens) (hderives : Derives tokens tree) (line : Nat) :
    ∃ found, Spells line text found ∧ found.map Node.unlined = tree := by
  rw [← List.append_nil tokens] at hsplits
  obtain ⟨front, back, found, rfl, hback, hspells, hfound⟩ := spells_of_tokens hderives line hsplits
  -- no token is left, so only blanks are
  exact ⟨found, spells_append_blanks hspells (splits_nil hback), hfound⟩

theorem byteSize_opener {c : Char} (h : isOpener c = true) : byteSize [c] = 1 := by
  rcases isOpener_iff.1 h with rfl | rfl <;> rfl

/-- A source whose text derives a tree is read as this tree, with the lines of its places, if the tree
    is not nested too deep. Otherwise it is turned down at the first delimiter of the text that stands
    inside `maxDepth` open ones. -/
theorem nodes_of_derives {source : Source} {tokens : List Token} {tree : List Node}
    (hsplits : Splits false source.text.toList tokens) (hderives : Derives tokens tree) :
    ((∀ node ∈ tree, node.nesting ≤ maxDepth) →
        ∃ places, Places 0 source.text.toList places ∧ places.map Node.unlined = tree
          ∧ source.nodes = .ok (places.map (Node.relined (lineAt source.text))))
      ∧ ((∃ node ∈ tree, maxDepth < node.nesting) →
        ∃ before c after, FirstDeep 0 source.text.toList before c after
          ∧ source.nodes = .error ⟨.parse, "nesting too deep; at most 256 levels are allowed",
            some (lineAt source.text (byteSize before)), some source,
            some ⟨byteSize before, byteSize before + 1⟩, none⟩) := by
  obtain ⟨found, hspells, rfl⟩ := spells_of_derives hsplits hderives 1
  constructor
  · intro hfits
    rw [← Node.nestingAll_le_iff, Node.nestingAll_unlined] at hfits
    obtain ⟨places, hplaces⟩ := exists_places hspells 0
    have hlined := spells_of_places hplaces (standsAt_start source.text)
    have hfound := eq_of_spells (program_eq_ok_iff.2 ⟨hspells, hfits⟩) hlined
    refine ⟨places, hplaces, ?_, ?_⟩
    · rw [← hfound, List.map_map]
      exact List.map_congr_left fun place _ => (Node.unlined_relined _ place).symm
    · rw [hfound]
      exact Source.nodes_eq_ok_iff.2 ⟨hspells, hfits⟩
  · rintro ⟨node, hnode, hdeep⟩
    have hdeeper : maxDepth < Node.nestingAll found := by
      refine Nat.lt_of_not_le fun hfits => ?_
      rw [← Node.nestingAll_unlined, Node.nestingAll_le_iff] at hfits
      exact Nat.not_le.2 hdeep (hfits node hnode)
    obtain ⟨before, c, after, hfirst, hread⟩ := program_of_deep hspells hdeeper
    refine ⟨before, c, after, hfirst, ?_⟩
    rw [Source.nodes_eq_error_iff.2 ⟨_, hread, rfl⟩]
    have hline : (Cursor.start.past before).line = lineAt source.text (byteSize before) := by
      rw [Cursor.past_line, lineAt_of_append hfirst.text_eq]
      rfl
    have hspan : (Cursor.start.past before).span [c]
        = ⟨byteSize before, byteSize before + 1⟩ := by
      rw [Cursor.span, Cursor.past_offset, byteSize_opener hfirst.isOpener]
      simp [Cursor.start]
    rw [Failure.on, Failure.diagnostic, hline, hspan]
    rfl

/-! ## Trees at the bound -/

/-- As many calls inside each other, around a number. -/
def nested : Nat → Node
  | 0 => .int ⟨0, "0"⟩
  | depth + 1 => .call 0 (.term ⟨0, "f"⟩) [nested depth]

theorem nesting_nested (depth : Nat) : (nested depth).nesting = depth := by
  induction depth with
  | zero => rfl
  | succ depth ih => rw [nested, Node.nesting, Node.nestingAll, ih, Node.nestingAll, Nat.max_zero]

theorem spellable_nested (depth : Nat) : (nested depth).Spellable := by
  induction depth with
  | zero => exact ⟨by decide, by simp⟩
  | succ depth ih => exact ⟨⟨'f', [], by decide, by simp, rfl⟩, ih, trivial⟩

theorem unlined_nested (depth : Nat) : (nested depth).unlined = nested depth := by
  induction depth with
  | zero => rfl
  | succ depth ih =>
    rw [Node.unlined] at ih ⊢
    rw [nested, Node.relined, Node.relinedAll, ih]
    rfl

/-- The source in which these nodes are written. -/
def written (nodes : List Node) : Source := ⟨"s", String.ofList (Node.surfaceLines nodes)⟩

/-- What is written is derived. -/
theorem derives_written {nodes : List Node} (h : ∀ node ∈ nodes, node.Spellable) :
    ∃ tokens, Splits false (written nodes).text.toList tokens
      ∧ Derives tokens (nodes.map Node.unlined) := by
  obtain ⟨tokens, hsplits, hderives⟩ :=
    tokens_of_spells (spells_surfaceLines 1 h) loose_nil (.nil false)
  have hunlined : (nodes.mapIdx fun index node => node.relined fun _ => index + 1).map Node.unlined
      = nodes.map Node.unlined := by
    refine List.ext_getElem (by simp) ?_
    intro index hindex hindex'
    rw [List.getElem_map, List.getElem_map, List.getElem_mapIdx, Node.unlined_relined]
  rw [List.append_nil, List.append_nil] at hsplits
  rw [written, String.toList_ofList]
  exact ⟨tokens, hsplits, hunlined ▸ hderives⟩

theorem derives_nested (depth depth' : Nat) :
    ∃ tokens, Splits false (written [nested depth, nested depth']).text.toList tokens
      ∧ Derives tokens [nested depth, nested depth'] := by
  have hspellable : ∀ node ∈ [nested depth, nested depth'], node.Spellable := by
    simp [spellable_nested]
  have hderives := derives_written hspellable
  rwa [List.map_cons, List.map_cons, List.map_nil, unlined_nested, unlined_nested] at hderives

theorem nodes_of_derives_at_limit :
    (∃ tokens, Splits false (written [nested 256, nested 256]).text.toList tokens
        ∧ Derives tokens [nested 256, nested 256]
        ∧ (∀ node ∈ [nested 256, nested 256], node.nesting ≤ maxDepth)
        ∧ ∃ places, Places 0 (written [nested 256, nested 256]).text.toList places
          ∧ places.map Node.unlined = [nested 256, nested 256]
          ∧ (written [nested 256, nested 256]).nodes
            = .ok (places.map (Node.relined (lineAt (written [nested 256, nested 256]).text))))
      ∧ ∃ tokens, Splits false (written [nested 256, nested 257]).text.toList tokens
        ∧ Derives tokens [nested 256, nested 257]
        ∧ (∃ node ∈ [nested 256, nested 257], maxDepth < node.nesting)
        ∧ ∃ before c after,
          FirstDeep 0 (written [nested 256, nested 257]).text.toList before c after
          ∧ (written [nested 256, nested 257]).nodes
            = .error ⟨.parse, "nesting too deep; at most 256 levels are allowed",
              some (lineAt (written [nested 256, nested 257]).text (byteSize before)),
              some (written [nested 256, nested 257]),
              some ⟨byteSize before, byteSize before + 1⟩, none⟩ := by
  constructor
  · obtain ⟨tokens, hsplits, hderives⟩ := derives_nested 256 256
    have hfits : ∀ node ∈ [nested 256, nested 256], node.nesting ≤ maxDepth := by
      simp [nesting_nested, maxDepth]
    exact ⟨tokens, hsplits, hderives, hfits, (nodes_of_derives hsplits hderives).1 hfits⟩
  · obtain ⟨tokens, hsplits, hderives⟩ := derives_nested 256 257
    have hdeep : ∃ node ∈ [nested 256, nested 257], maxDepth < node.nesting :=
      ⟨nested 257, by simp, by rw [nesting_nested]; decide⟩
    exact ⟨tokens, hsplits, hderives, hdeep, (nodes_of_derives hsplits hderives).2 hdeep⟩

end DefForms.Grammar
