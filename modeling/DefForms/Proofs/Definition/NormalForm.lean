import DefForms.Command.Run
import DefForms.Proofs.Definition.Blame
import DefForms.Proofs.Reader.RoundTrip

set_option autoImplicit false

/-! # Expanded trees

Expansion leaves no call of the keyword behind, although the pass never looks again at what it has
built: a definition is made of arguments that have been expanded before
(`noDefinitionCall_promoted`). A tree without calls of the keyword is its own expansion
(`promoted_eq_self`), so a second pass changes nothing. Each call of the keyword has become one
definition more (`countDefinitions_promoted`). -/

namespace DefForms

/-- There is no call of the keyword among the nodes. -/
def NoDefinitionCall (nodes : List Node) : Prop :=
  ∀ node ∈ nodes, node.isDefinitionCall = false

@[simp]
theorem noDefinitionCall_append {front back : List Node} :
    NoDefinitionCall (front ++ back) ↔ NoDefinitionCall front ∧ NoDefinitionCall back :=
  List.forall_mem_append

@[simp]
theorem noDefinitionCall_singleton {node : Node} :
    NoDefinitionCall [node] ↔ node.isDefinitionCall = false :=
  List.forall_mem_singleton

theorem definitionsFormed_append {front back : List Node} :
    DefinitionsFormed (front ++ back) ↔ DefinitionsFormed front ∧ DefinitionsFormed back := by
  simp only [definitionsFormed_iff, List.forall_mem_append]

/-- Without a call of the keyword there is nothing that has to be formed. -/
theorem NoDefinitionCall.formed {nodes : List Node} (h : NoDefinitionCall nodes) :
    DefinitionsFormed nodes :=
  definitionsFormed_iff.2 fun node hnode => complaint?_eq_none (h node hnode)

theorem noDefinitionCall_params (params : ParamList) : NoDefinitionCall params.postorder := by
  refine noDefinitionCall_append.2 ⟨?_, noDefinitionCall_singleton.2 rfl⟩
  intro node hnode
  obtain ⟨entry, -, rfl⟩ := List.mem_map.1 hnode
  rfl

theorem noDefinitionCall_definition {line : Nat} {name : Term} {params : ParamList}
    {body : List Node} :
    NoDefinitionCall (Node.definition line name params body).postorder
      ↔ NoDefinitionCall (Node.postorderAll body) := by
  simp [Node.postorder, noDefinitionCall_params, Node.isDefinitionCall]

theorem definitionsFormed_definition {line : Nat} {name : Term} {params : ParamList}
    {body : List Node} :
    DefinitionsFormed (Node.definition line name params body).postorder
      ↔ DefinitionsFormed (Node.postorderAll body) := by
  have hself : NoDefinitionCall [.definition line name params body] :=
    noDefinitionCall_singleton.2 rfl
  simp only [Node.postorder, definitionsFormed_append, (noDefinitionCall_params params).formed,
    hself.formed, true_and, and_true]

theorem noDefinitionCall_definitionArgs {name : Term} {params : ParamList} {body : List Node} :
    NoDefinitionCall (Node.postorderAll (.term name :: .paramList params :: body))
      ↔ NoDefinitionCall (Node.postorderAll body) := by
  simp only [Node.postorderAll, Node.postorder, noDefinitionCall_append, noDefinitionCall_singleton,
    noDefinitionCall_params, Node.isDefinitionCall, true_and]

/-- A call that is formed is a definition or has another head. -/
theorem call_cases {line : Nat} {head : Head} {args : List Node}
    (h : DefinitionsFormed [.call line head args]) :
    head.isNamed definitionKeyword = false
      ∨ head.isNamed definitionKeyword = true ∧ FormDefinition args := by
  cases hhead : head.isNamed definitionKeyword with
  | false => exact .inl rfl
  | true =>
      have hcall := definitionsFormed_iff.1 h _ List.mem_cons_self
      exact .inr ⟨rfl, complaint?_call_eq_none_iff.1 hcall hhead⟩

/-! ## Nothing is left to expand -/

mutual

theorem noDefinitionCall_promoted (node : Node) (h : DefinitionsFormed node.postorder) :
    NoDefinitionCall node.promoted.postorder := by
  cases node with
  | int | float | operator | term | param =>
      simp [Node.promoted, Node.postorder, Node.isDefinitionCall]
  | paramList params => exact noDefinitionCall_params params
  | call line head args =>
      obtain ⟨hargs, hcall⟩ := definitionsFormed_append.1 h
      have hexpanded := noDefinitionCall_promotedAll args hargs
      rcases call_cases hcall with hhead | ⟨hhead, name, params, body, rfl⟩
      · rw [promoted_otherCall hhead, Node.postorder]
        exact noDefinitionCall_append.2 ⟨hexpanded, noDefinitionCall_singleton.2 hhead⟩
      · -- the definition holds what stands behind its name and its parameter list
        rw [promoted_definitionCall hhead, noDefinitionCall_definition]
        exact noDefinitionCall_definitionArgs.1 hexpanded
  | definition line name params body =>
      rw [Node.promoted, noDefinitionCall_definition]
      exact noDefinitionCall_promotedAll body (definitionsFormed_definition.1 h)

theorem noDefinitionCall_promotedAll (nodes : List Node)
    (h : DefinitionsFormed (Node.postorderAll nodes)) :
    NoDefinitionCall (Node.postorderAll (Node.promotedAll nodes)) := by
  cases nodes with
  | nil => simp [NoDefinitionCall, Node.promotedAll, Node.postorderAll]
  | cons node rest =>
      obtain ⟨hnode, hrest⟩ := definitionsFormed_append.1 h
      rw [Node.promotedAll, Node.postorderAll, noDefinitionCall_append]
      exact ⟨noDefinitionCall_promoted node hnode, noDefinitionCall_promotedAll rest hrest⟩

end

mutual

theorem promoted_eq_self (node : Node) (h : NoDefinitionCall node.postorder) :
    node.promoted = node := by
  cases node with
  | int | float | operator | term | param | paramList => rfl
  | call line head args =>
      obtain ⟨hargs, hcall⟩ := noDefinitionCall_append.1 h
      have hhead : head.isNamed definitionKeyword = false := noDefinitionCall_singleton.1 hcall
      rw [promoted_otherCall hhead, promotedAll_eq_self args hargs]
  | definition line name params body =>
      rw [Node.promoted, promotedAll_eq_self body (noDefinitionCall_definition.1 h)]

theorem promotedAll_eq_self (nodes : List Node) (h : NoDefinitionCall (Node.postorderAll nodes)) :
    Node.promotedAll nodes = nodes := by
  cases nodes with
  | nil => rfl
  | cons node rest =>
      obtain ⟨hnode, hrest⟩ := noDefinitionCall_append.1 h
      rw [Node.promotedAll, promoted_eq_self node hnode, promotedAll_eq_self rest hrest]

end

/-- Trees without a call of the keyword are expanded to themselves. -/
theorem expandDefinitions_eq_self {nodes : List Node}
    (h : NoDefinitionCall (Node.postorderAll nodes)) : expandDefinitions nodes = .ok nodes :=
  expandDefinitions_eq_ok_iff.2 ⟨h.formed, (promotedAll_eq_self nodes h).symm⟩

/-! ## Counting definitions -/

/-- The number of calls of the keyword among the nodes. -/
def countDefinitionCalls (nodes : List Node) : Nat := nodes.countP Node.isDefinitionCall

theorem countDefinitionCalls_append (front back : List Node) :
    countDefinitionCalls (front ++ back)
      = countDefinitionCalls front + countDefinitionCalls back :=
  List.countP_append

theorem countDefinitionCalls_singleton (node : Node) :
    countDefinitionCalls [node] = if node.isDefinitionCall then 1 else 0 :=
  List.countP_singleton

theorem NoDefinitionCall.count {nodes : List Node} (h : NoDefinitionCall nodes) :
    countDefinitionCalls nodes = 0 :=
  List.countP_eq_zero.2 fun node hnode => by simp [h node hnode]

mutual

theorem countDefinitions_promoted (node : Node) (h : DefinitionsFormed node.postorder) :
    node.promoted.countDefinitions
      = node.countDefinitions + countDefinitionCalls node.postorder := by
  cases node with
  | int | float | operator | term | param => rfl
  | paramList params => rw [Node.postorder, (noDefinitionCall_params params).count]; rfl
  | call line head args =>
      obtain ⟨hargs, hcall⟩ := definitionsFormed_append.1 h
      have hcount := countDefinitionsIn_promotedAll args hargs
      rw [Node.postorder, countDefinitionCalls_append, countDefinitionCalls_singleton,
        Node.isDefinitionCall, Node.countDefinitions, ← Nat.add_assoc, ← hcount]
      rcases call_cases hcall with hhead | ⟨hhead, name, params, body, rfl⟩
      · rw [promoted_otherCall hhead, Node.countDefinitions, hhead]
        rfl
      · rw [promoted_definitionCall hhead, Node.countDefinitions, hhead]
        simp [Node.promotedAll, Node.promoted, Node.countDefinitionsIn, Node.countDefinitions,
          Nat.add_comm]
  | definition line name params body =>
      have hcount := countDefinitionsIn_promotedAll body (definitionsFormed_definition.1 h)
      rw [Node.promoted, Node.countDefinitions, hcount, Node.countDefinitions, Node.postorder,
        countDefinitionCalls_append, (noDefinitionCall_params params).count,
        countDefinitionCalls_append, countDefinitionCalls_singleton]
      simp [Node.isDefinitionCall, Nat.add_assoc]

theorem countDefinitionsIn_promotedAll (nodes : List Node)
    (h : DefinitionsFormed (Node.postorderAll nodes)) :
    Node.countDefinitionsIn (Node.promotedAll nodes)
      = Node.countDefinitionsIn nodes + countDefinitionCalls (Node.postorderAll nodes) := by
  cases nodes with
  | nil => rfl
  | cons node rest =>
      obtain ⟨hnode, hrest⟩ := definitionsFormed_append.1 h
      rw [Node.promotedAll, Node.countDefinitionsIn, countDefinitions_promoted node hnode,
        countDefinitionsIn_promotedAll rest hrest, Node.countDefinitionsIn, Node.postorderAll,
        countDefinitionCalls_append]
      omega

end

mutual

/-- There are no definitions in trees that are read. -/
theorem countDefinitions_of_spellable (node : Node) (h : node.Spellable) :
    node.countDefinitions = 0 := by
  cases node with
  | int | float | operator | term | param | paramList => rfl
  | call line head args => exact countDefinitionsIn_of_spellable args h.2
  | definition => exact h.elim

theorem countDefinitionsIn_of_spellable (nodes : List Node) (h : Node.SpellableAll nodes) :
    Node.countDefinitionsIn nodes = 0 := by
  cases nodes with
  | nil => rfl
  | cons node rest =>
      rw [Node.countDefinitionsIn, countDefinitions_of_spellable node h.1,
        countDefinitionsIn_of_spellable rest h.2]

end

/-- Expanded trees hold no call of the keyword at any depth: each one is replaced by its definition
    and nothing else is changed. They are expanded to themselves, and hold as many definitions more
    as there were calls of the keyword, which is the number that a run reports for its source. -/
theorem expandDefinitions_normalForm {nodes out : List Node}
    (h : expandDefinitions nodes = .ok out) :
    NoDefinitionCall (Node.postorderAll out)
      ∧ out = nodes.map Node.promoted
      ∧ expandDefinitions out = .ok out
      ∧ Node.countDefinitionsIn out
          = Node.countDefinitionsIn nodes + countDefinitionCalls (Node.postorderAll nodes)
      ∧ ∀ (request : Command.Request) (text : String) (diff : Bool),
          request.action = .expand diff → request.verbose = true →
          Source.nodes ⟨request.file, text⟩ = .ok nodes →
          (Command.run request (.ok text)).status
            = ["Parse succeeded!", nodes.length.repr ++ " top-level node(s)",
              "Expansion succeeded!",
              (countDefinitionCalls (Node.postorderAll nodes)).repr
                ++ " definition(s) expanded"] := by
  obtain ⟨hformed, hout⟩ := expandDefinitions_eq_ok_iff.1 h
  have hexpanded : NoDefinitionCall (Node.postorderAll out) := by
    rw [hout]
    exact noDefinitionCall_promotedAll nodes hformed
  have hcount : Node.countDefinitionsIn out
      = Node.countDefinitionsIn nodes + countDefinitionCalls (Node.postorderAll nodes) := by
    rw [hout]
    exact countDefinitionsIn_promotedAll nodes hformed
  refine ⟨hexpanded, hout.trans (promotedAll_eq_map nodes), expandDefinitions_eq_self hexpanded,
    hcount, ?_⟩
  intro request text diff haction hverbose hnodes
  obtain ⟨hspells, -⟩ := Source.nodes_eq_ok_iff.1 hnodes
  -- the source itself holds no definitions, so all that are counted were calls of the keyword
  have hnone := countDefinitionsIn_of_spellable nodes (Reader.spellable_of_spells hspells)
  rw [hnone, Nat.zero_add] at hcount
  simp [Command.run, Command.runOn, hnodes, haction, hverbose, Source.expand, h, Command.shown,
    Command.readStatus, Command.expandStatus, hcount]

theorem expandDefinitions_normalForm_of_nested :
    expandDefinitions [.call 1 (.term ⟨1, "def"⟩) [.term ⟨1, "f"⟩, .paramList ⟨1, []⟩,
        .call 2 (.term ⟨2, "def"⟩) [.term ⟨2, "g"⟩, .paramList ⟨2, []⟩]]]
      = .ok [.definition 1 ⟨1, "f"⟩ ⟨1, []⟩ [.definition 2 ⟨2, "g"⟩ ⟨2, []⟩ []]]
      ∧ expandDefinitions [.definition 1 ⟨1, "f"⟩ ⟨1, []⟩ [.definition 2 ⟨2, "g"⟩ ⟨2, []⟩ []]]
        = .ok [.definition 1 ⟨1, "f"⟩ ⟨1, []⟩ [.definition 2 ⟨2, "g"⟩ ⟨2, []⟩ []]]
      ∧ (Command.run ⟨true, .expand false, "s", .pretty⟩ (.ok "(def f []\n(def g []))")).status
        = ["Parse succeeded!", "1 top-level node(s)", "Expansion succeeded!",
          "2 definition(s) expanded"] := by
  have hexpanded : expandDefinitions [.call 1 (.term ⟨1, "def"⟩) [.term ⟨1, "f"⟩,
      .paramList ⟨1, []⟩, .call 2 (.term ⟨2, "def"⟩) [.term ⟨2, "g"⟩, .paramList ⟨2, []⟩]]]
        = .ok [.definition 1 ⟨1, "f"⟩ ⟨1, []⟩ [.definition 2 ⟨2, "g"⟩ ⟨2, []⟩ []]] := rfl
  have hread : Source.nodes ⟨"s", "(def f []\n(def g []))"⟩ = .ok [.call 1 (.term ⟨1, "def"⟩)
      [.term ⟨1, "f"⟩, .paramList ⟨1, []⟩,
        .call 2 (.term ⟨2, "def"⟩) [.term ⟨2, "g"⟩, .paramList ⟨2, []⟩]]] := by
    decide +kernel
  obtain ⟨-, -, hagain, -, hstatus⟩ := expandDefinitions_normalForm hexpanded
  exact ⟨hexpanded, hagain, hstatus ⟨true, .expand false, "s", .pretty⟩ _ false rfl rfl hread⟩

end DefForms
