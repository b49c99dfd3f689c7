import DefForms.Proofs.Definition.NormalForm

set_option autoImplicit false

/-! # Expanded trees are read back

A definition has no notation of its own: it is written as the call that it stands for.
`Node.demoted` puts this call into the tree. A demoted tree is written like the tree, is nested as
deep and holds no definition, so the reader returns it (`ExpandedForm.nodes_written`); expansion
turns it into the tree again (`transformAll_demotedAll`). -/

namespace DefForms

/-! ## Definitions as calls -/

mutual

/-- The tree with each definition replaced by the call that it stands for. -/
def Node.demoted : Node → Node
  | .int numeral => .int numeral
  | .float numeral => .float numeral
  | .operator op => .operator op
  | .term name => .term name
  | .call line head args => .call line head (Node.demotedAll args)
  | .param entry => .param entry
  | .paramList params => .paramList params
  | .definition line name params body =>
      .call line (.term ⟨line, definitionKeyword⟩)
        (.term name :: .paramList params :: Node.demotedAll body)

/-- The trees with the definitions in them demoted. -/
def Node.demotedAll : List Node → List Node
  | [] => []
  | node :: rest => node.demoted :: Node.demotedAll rest

end

theorem demotedAll_eq_map (nodes : List Node) : Node.demotedAll nodes = nodes.map Node.demoted := by
  induction nodes with
  | nil => rfl
  | cons node rest ih => rw [Node.demotedAll, ih, List.map_cons]

theorem isNamed_keyword (line : Nat) :
    Head.isNamed definitionKeyword (.term ⟨line, definitionKeyword⟩) = true :=
  isNamed_eq_true_iff.2 ⟨_, rfl, rfl⟩

/-! ## What demotion keeps -/

mutual

theorem surface_demoted (node : Node) : node.demoted.surface = node.surface := by
  cases node with
  | int | float | operator | term | param | paramList => rfl
  | call line head args =>
      rw [Node.demoted, Node.surface, Node.surface, surfaceSpaced_demotedAll args]
  | definition line name params body =>
      have hcall : (Node.definition line name params (Node.demotedAll body)).surface
          = (Node.definition line name params body).demoted.surface :=
        surface_definition name params _ (isNamed_keyword line)
      rw [← hcall, Node.surface, Node.surface, surfaceSpaced_demotedAll body]

theorem surfaceSpaced_demotedAll (nodes : List Node) :
    Node.surfaceSpaced (Node.demotedAll nodes) = Node.surfaceSpaced nodes := by
  cases nodes with
  | nil => rfl
  | cons node rest =>
      rw [Node.demotedAll, Node.surfaceSpaced, Node.surfaceSpaced, surface_demoted node,
        surfaceSpaced_demotedAll rest]

end

theorem surfaceLines_demotedAll (nodes : List Node) :
    Node.surfaceLines (Node.demotedAll nodes) = Node.surfaceLines nodes := by
  have hsurface : Node.surface ∘ Node.demoted = Node.surface := funext surface_demoted
  rw [surfaceLines_eq_intercalate, surfaceLines_eq_intercalate, demotedAll_eq_map, List.map_map,
    hsurface]

mutual

theorem nesting_demoted (node : Node) : node.demoted.nesting = node.nesting := by
  cases node with
  | int | float | operator | term | param | paramList => rfl
  | call line head args => rw [Node.demoted, Node.nesting, Node.nesting, nestingAll_demotedAll args]
  | definition line name params body =>
      rw [Node.demoted, Node.nesting, Node.nesting, Node.nestingAll, Node.nestingAll,
        nestingAll_demotedAll body]
      simp [Node.nesting]

theorem nestingAll_demotedAll (nodes : List Node) :
    Node.nestingAll (Node.demotedAll nodes) = Node.nestingAll nodes := by
  cases nodes with
  | nil => rfl
  | cons node rest =>
      rw [Node.demotedAll, Node.nestingAll, Node.nestingAll, nesting_demoted node,
        nestingAll_demotedAll rest]

end

mutual

theorem demoted_relined (f : Nat → Nat) (node : Node) :
    (node.relined f).demoted = node.demoted.relined f := by
  cases node with
  | int | float | operator | term | param | paramList => rfl
  | call line head args =>
      rw [Node.relined, Node.demoted, demotedAll_relinedAll f args, Node.demoted, Node.relined]
  | definition line name params body =>
      rw [Node.relined, Node.demoted, demotedAll_relinedAll f body, Node.demoted, Node.relined]
      rfl

theorem demotedAll_relinedAll (f : Nat → Nat) (nodes : List Node) :
    Node.demotedAll (Node.relinedAll f nodes) = Node.relinedAll f (Node.demotedAll nodes) := by
  cases nodes with
  | nil => rfl
  | cons node rest =>
      rw [Node.relinedAll, Node.demotedAll, demoted_relined f node, demotedAll_relinedAll f rest,
        Node.demotedAll, Node.relinedAll]

end

/-! ## Demotion and expansion -/

mutual

/-- Expansion undoes demotion: the only calls of the keyword in a demoted tree are those that its
    definitions stand for. -/
theorem transform_demoted (node : Node) (h : NoDefinitionCall node.postorder) :
    node.demoted.transform definitionHandlers = .ok node := by
  cases node with
  | int | float | operator | term | param | paramList => exact transform_plain rfl
  | call line head args =>
      obtain ⟨hargs, hcall⟩ := noDefinitionCall_append.1 h
      have hhead : head.isNamed definitionKeyword = false := noDefinitionCall_singleton.1 hcall
      rw [Node.demoted, transform_call, transformAll_demotedAll args hargs]
      exact expandDefinition_call_eq_ok_iff.2 (.inl ⟨hhead, rfl⟩)
  | definition line name params body =>
      have hbody := transformAll_demotedAll body (noDefinitionCall_definition.1 h)
      have hargs : Node.transformAll definitionHandlers
          (.term name :: .paramList params :: Node.demotedAll body)
            = .ok (.term name :: .paramList params :: body) := by
        rw [transformAll_cons, transformAll_cons, transform_plain rfl, transform_plain rfl, hbody]
      rw [Node.demoted, transform_call, hargs]
      exact expandDefinition_call_eq_ok_iff.2
        (.inr ⟨isNamed_keyword line, name, params, body, rfl, rfl⟩)

theorem transformAll_demotedAll (nodes : List Node)
    (h : NoDefinitionCall (Node.postorderAll nodes)) :
    Node.transformAll definitionHandlers (Node.demotedAll nodes) = .ok nodes := by
  cases nodes with
  | nil => rfl
  | cons node rest =>
      obtain ⟨hnode, hrest⟩ := noDefinitionCall_append.1 h
      rw [Node.demotedAll, transformAll_cons, transform_demoted node hnode,
        transformAll_demotedAll rest hrest]

end

/-! ## Lines -/

theorem isDefinitionCall_relined (f : Nat → Nat) (node : Node) :
    (node.relined f).isDefinitionCall = node.isDefinitionCall := by
  cases node with
  | call line head args => cases head <;> rfl
  | _ => rfl

theorem noDefinitionCall_relined {f : Nat → Nat} {node : Node}
    (h : NoDefinitionCall node.postorder) : NoDefinitionCall (node.relined f).postorder := by
  intro found hfound
  rw [postorder_relined] at hfound
  obtain ⟨inner, hinner, rfl⟩ := List.mem_map.1 hfound
  rw [isDefinitionCall_relined]
  exact h inner hinner

/-! ## Trees that are written and read back -/

mutual

/-- The texts of the tree are those of its kinds, and entries stand in parameter lists only. -/
def Node.Writable : Node → Prop
  | .int numeral => Reader.IsInteger numeral.text.toList
  | .float numeral => Reader.IsDecimal numeral.text.toList
  | .operator op => op.Spellable
  | .term name => name.Spellable
  | .call _ head args => head.Spellable ∧ Node.WritableAll args
  | .param _ => False
  | .paramList params => params.Spellable
  | .definition _ name params body =>
      name.Spellable ∧ params.Spellable ∧ Node.WritableAll body

def Node.WritableAll : List Node → Prop
  | [] => True
  | node :: rest => node.Writable ∧ Node.WritableAll rest

end

theorem Node.writableAll_iff {nodes : List Node} :
    Node.WritableAll nodes ↔ ∀ node ∈ nodes, node.Writable := by
  induction nodes with
  | nil => simp [Node.WritableAll]
  | cons node rest ih => rw [Node.WritableAll, ih, List.forall_mem_cons]

/-- The trees can be written, their notation can be read, and nothing in them is left to expand. -/
structure ExpandedForm (nodes : List Node) : Prop where
  writable : ∀ node ∈ nodes, node.Writable
  nesting_le : ∀ node ∈ nodes, node.nesting ≤ Reader.maxDepth
  expanded : NoDefinitionCall (Node.postorderAll nodes)

theorem isName_keyword : Reader.IsName definitionKeyword.toList := by
  have hrest : ['e', 'f'].all Reader.isNameChar = true := by decide
  exact ⟨'d', ['e', 'f'], by decide, List.all_eq_true.1 hrest, by decide⟩

mutual

theorem spellable_demoted (node : Node) (h : node.Writable) : node.demoted.Spellable := by
  cases node with
  | int | float | operator | term | paramList => exact h
  | param => exact h.elim
  | call line head args => exact ⟨h.1, spellableAll_demotedAll args h.2⟩
  | definition line name params body =>
      exact ⟨isName_keyword, h.1, h.2.1, spellableAll_demotedAll body h.2.2⟩

theorem spellableAll_demotedAll (nodes : List Node) (h : Node.WritableAll nodes) :
    Node.SpellableAll (Node.demotedAll nodes) := by
  cases nodes with
  | nil => trivial
  | cons node rest => exact ⟨spellable_demoted node h.1, spellableAll_demotedAll rest h.2⟩

end

mutual

theorem writable_promoted (node : Node) (h : node.Spellable) : node.promoted.Writable := by
  cases node with
  | int | float | operator | term | paramList => exact h
  | param | definition => exact h.elim
  | call line head args =>
      have hargs := writableAll_promotedAll args h.2
      unfold Node.promoted
      split
      · next name params body _ => exact ⟨hargs.1, hargs.2.1, hargs.2.2⟩
      · exact ⟨h.1, hargs⟩

theorem writableAll_promotedAll (nodes : List Node) (h : Node.SpellableAll nodes) :
    Node.WritableAll (Node.promotedAll nodes) := by
  cases nodes with
  | nil => trivial
  | cons node rest => exact ⟨writable_promoted node h.1, writableAll_promotedAll rest h.2⟩

end

mutual

/-- A definition is nested as deep as the call that stands for it. -/
theorem nesting_promoted (node : Node) : node.promoted.nesting = node.nesting := by
  cases node with
  | int | float | operator | term | param | paramList => rfl
  | call line head args =>
      have hargs := nestingAll_promotedAll args
      unfold Node.promoted
      split
      · next name params body _ =>
          simp only [Node.promotedAll, Node.promoted, Node.nestingAll, Node.nesting] at hargs ⊢
          omega
      · rw [Node.nesting, Node.nesting, hargs]
  | definition line name params body =>
      rw [Node.promoted, Node.nesting, Node.nesting, nestingAll_promotedAll body]

theorem nestingAll_promotedAll (nodes : List Node) :
    Node.nestingAll (Node.promotedAll nodes) = Node.nestingAll nodes := by
  cases nodes with
  | nil => rfl
  | cons node rest =>
      rw [Node.promotedAll, Node.nestingAll, Node.nestingAll, nesting_promoted node,
        nestingAll_promotedAll rest]

end

/-- The trees with the number of the line on which each is written in place of every line in it. -/
def Node.numbered (nodes : List Node) : List Node :=
  nodes.mapIdx fun index node => node.relined fun _ => index + 1

theorem mem_numbered {nodes : List Node} {found : Node} (h : found ∈ Node.numbered nodes) :
    ∃ node ∈ nodes, ∃ f, found = node.relined f := by
  obtain ⟨index, hindex, rfl⟩ := List.mem_mapIdx.1 h
  exact ⟨nodes[index], List.getElem_mem hindex, _, rfl⟩

theorem demotedAll_numbered (nodes : List Node) :
    Node.demotedAll (Node.numbered nodes) = Node.numbered (Node.demotedAll nodes) := by
  rw [demotedAll_eq_map, demotedAll_eq_map]
  refine List.ext_getElem? fun index => ?_
  simp [Node.numbered, Function.comp_def, demoted_relined]

theorem ExpandedForm.noDefinitionCall_numbered {nodes : List Node} (h : ExpandedForm nodes) :
    NoDefinitionCall (Node.postorderAll (Node.numbered nodes)) := by
  refine Node.forall_mem_postorderAll.2 fun found hfound => ?_
  obtain ⟨node, hnode, f, rfl⟩ := mem_numbered hfound
  exact noDefinitionCall_relined (Node.forall_mem_postorderAll.1 h.expanded node hnode)

/-- The surface text of expanded trees is read as the calls that their definitions stand for. -/
theorem ExpandedForm.nodes_written {nodes : List Node} (h : ExpandedForm nodes) (name : String) :
    Source.nodes ⟨name, String.ofList (Node.surfaceLines nodes)⟩
      = .ok (Node.demotedAll (Node.numbered nodes)) := by
  refine Source.nodes_eq_ok_iff.2 ⟨?_, ?_⟩
  · have hspellable := Node.spellableAll_iff.1
      (spellableAll_demotedAll nodes (Node.writableAll_iff.2 h.writable))
    rw [String.toList_ofList, ← surfaceLines_demotedAll, demotedAll_numbered]
    exact Reader.spells_surfaceLines 1 hspellable
  · rw [nestingAll_demotedAll, Node.nestingAll_le_iff]
    intro found hfound
    obtain ⟨node, hnode, f, rfl⟩ := mem_numbered hfound
    rw [Node.nesting_relined]
    exact h.nesting_le node hnode

/-- What a source expands to is in expanded form, and whatever is in expanded form is what its
    surface text expands to, with the number of the line on which it is written in place of every
    line in it. -/
theorem Source.expanded_surface :
    (∀ (source : Source) (nodes : List Node), source.expanded = .ok nodes → ExpandedForm nodes)
      ∧ ∀ (name : String) (nodes : List Node), ExpandedForm nodes →
        Source.expanded ⟨name, String.ofList (Format.render nodes .pretty)⟩
          = .ok (nodes.mapIdx fun index node => node.relined fun _ => index + 1) := by
  constructor
  · intro source nodes h
    obtain ⟨parsed, hread, hexpand⟩ := Source.expanded_eq_ok_iff.1 h
    obtain ⟨hspells, hfits⟩ := Source.nodes_eq_ok_iff.1 hread
    obtain ⟨hformed, rfl⟩ := expandDefinitions_eq_ok_iff.1 hexpand
    have hspellable := Reader.spellable_of_spells hspells
    have hnesting : Node.nestingAll (Node.promotedAll parsed) ≤ Reader.maxDepth := by
      rwa [nestingAll_promotedAll]
    exact {
      writable := Node.writableAll_iff.1 (writableAll_promotedAll parsed hspellable)
      nesting_le := Node.nestingAll_le_iff.1 hnesting
      expanded := noDefinitionCall_promotedAll parsed hformed }
  · intro name nodes h
    have hexpand := transformAll_demotedAll _ h.noDefinitionCall_numbered
    exact Source.expanded_eq_ok_iff.2 ⟨_, h.nodes_written name, hexpand⟩

theorem Source.expanded_surface_of_nested :
    ExpandedForm [.definition 1 ⟨1, "f"⟩ ⟨1, [⟨1, ⟨1, "x"⟩, ⟨1, "Int"⟩⟩]⟩
        [.definition 2 ⟨2, "g"⟩ ⟨2, []⟩ [.float ⟨3, "1."⟩]], .operator ⟨3, '-'⟩]
      ∧ Source.expanded ⟨"b", String.ofList (Format.render
          [.definition 1 ⟨1, "f"⟩ ⟨1, [⟨1, ⟨1, "x"⟩, ⟨1, "Int"⟩⟩]⟩
            [.definition 2 ⟨2, "g"⟩ ⟨2, []⟩ [.float ⟨3, "1."⟩]], .operator ⟨3, '-'⟩] .pretty)⟩
        = .ok [.definition 1 ⟨1, "f"⟩ ⟨1, [⟨1, ⟨1, "x"⟩, ⟨1, "Int"⟩⟩]⟩
          [.definition 1 ⟨1, "g"⟩ ⟨1, []⟩ [.float ⟨1, "1."⟩]], .operator ⟨2, '-'⟩] := by
  have hexpanded : Source.expanded ⟨"a", "(def f [x:Int]\n(def g []\n1.))-"⟩
      = .ok [.definition 1 ⟨1, "f"⟩ ⟨1, [⟨1, ⟨1, "x"⟩, ⟨1, "Int"⟩⟩]⟩
        [.definition 2 ⟨2, "g"⟩ ⟨2, []⟩ [.float ⟨3, "1."⟩]], .operator ⟨3, '-'⟩] := by
    decide +kernel
  have hform := expanded_surface.1 _ _ hexpanded
  exact ⟨hform, expanded_surface.2 "b" _ hform⟩

end DefForms
