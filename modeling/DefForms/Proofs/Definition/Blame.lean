import DefForms.Proofs.Definition.Promotion

set_option autoImplicit false

/-! # Which definition is reported

A call of the keyword has to have the arguments of a definition wherever it stands. Expansion
succeeds if and only if all of them do; otherwise the first one in post-order that does not is
reported, on its own line (`expandDefinitions_outcome`). So a fault inside a call is found before
one of the call itself, and a call with another head is never at fault. -/

namespace DefForms

theorem isNamed_eq_true_iff {name : String} {head : Head} :
    head.isNamed name = true ↔ ∃ term, head = .term term ∧ term.text = name := by
  cases head with
  | term found => simp [Head.isNamed]
  | operator op => simp [Head.isNamed]

/-- Every call of the keyword among the nodes has the arguments of a definition. -/
def DefinitionsFormed (nodes : List Node) : Prop :=
  ∀ line keyword args, .call line (.term keyword) args ∈ nodes →
    keyword.text = definitionKeyword → FormDefinition args

theorem definitionsFormed_iff {nodes : List Node} :
    DefinitionsFormed nodes ↔ ∀ node ∈ nodes, node.complaint? = none := by
  constructor
  · intro h node hnode
    cases node with
    | call line head args =>
        rw [complaint?_call_eq_none_iff]
        intro hhead
        obtain ⟨keyword, rfl, hkeyword⟩ := isNamed_eq_true_iff.1 hhead
        exact h line keyword args hnode hkeyword
    | _ => rfl
  · intro h line keyword args hnode hkeyword
    have hhead : Head.isNamed definitionKeyword (.term keyword) = true :=
      isNamed_eq_true_iff.2 ⟨keyword, rfl, hkeyword⟩
    exact complaint?_call_eq_none_iff.1 (h _ hnode) hhead

/-- `Blames line args diagnostic` says that a call of the keyword on `line` is reported as
    `diagnostic`, because its arguments do not start with a name or have no parameter list behind
    the name. -/
inductive Blames (line : Nat) : List Node → Diagnostic → Prop where
  | noName {args : List Node} (hname : ∀ name rest, args ≠ .term name :: rest) :
      Blames line args (.atLine .validation
        ("expected a valid name after `def`, found " ++ describeFound (Node.promotedAll args).head?)
        (some line) (some definitionUsage))
  | noParams {name : Term} {rest : List Node}
      (hparams : ∀ params body, rest ≠ .paramList params :: body) :
      Blames line (.term name :: rest) (.atLine .validation
        ("expected an argument list after `def " ++ name.text ++ "`, found "
          ++ describeFound (Node.promotedAll rest).head?)
        (some line) (some definitionUsage))

theorem blames_of_fault {line : Nat} {args : List Node} {fault : DefinitionFault}
    (h : definitionFault? args = some fault) : Blames line args (fault.diagnostic line) := by
  unfold definitionFault? at h
  split at h
  · simp at h
  · next name rest hparams =>
      obtain rfl := Option.some.inj h
      apply Blames.noParams
      intro params body hrest
      exact hparams params body (by rw [hrest])
  · next _ hname =>
      obtain rfl := Option.some.inj h
      apply Blames.noName
      intro name rest hargs
      exact hname name rest hargs

/-- Only calls of the keyword are complained about. -/
theorem blames_of_complaint {node : Node} {diagnostic : Diagnostic}
    (h : node.complaint? = some diagnostic) :
    ∃ line keyword args, node = .call line (.term keyword) args
      ∧ keyword.text = definitionKeyword ∧ Blames line args diagnostic := by
  cases node with
  | call line head args =>
      rw [Node.complaint?] at h
      split at h
      · next hhead =>
          obtain ⟨keyword, rfl, hkeyword⟩ := isNamed_eq_true_iff.1 hhead
          obtain ⟨fault, hfault, rfl⟩ := Option.map_eq_some_iff.1 h
          exact ⟨line, keyword, args, rfl, hkeyword, blames_of_fault hfault⟩
      · simp at h
  | _ => simp [Node.complaint?] at h

theorem expandDefinitions_eq_ok_iff {nodes out : List Node} :
    expandDefinitions nodes = .ok out
      ↔ DefinitionsFormed (Node.postorderAll nodes) ∧ out = Node.promotedAll nodes := by
  rw [expandDefinitions, transformAll_outcome, definitionsFormed_iff, ← List.findSome?_eq_none_iff]
  cases (Node.postorderAll nodes).findSome? Node.complaint? <;> simp [eq_comm]

theorem expandDefinitions_eq_error_iff {nodes : List Node} {diagnostic : Diagnostic} :
    expandDefinitions nodes = .error diagnostic
      ↔ (Node.postorderAll nodes).findSome? Node.complaint? = some diagnostic := by
  rw [expandDefinitions, transformAll_outcome]
  cases (Node.postorderAll nodes).findSome? Node.complaint? <;> simp

/-- Expansion succeeds if and only if every call of the keyword, wherever it stands, forms a
    definition. Otherwise it reports the first call in post-order that does not, about its
    arguments as they were given. Other calls only pass on what comes of their arguments. -/
theorem expandDefinitions_outcome (nodes : List Node) :
    ((∃ out, expandDefinitions nodes = .ok out) ↔ DefinitionsFormed (Node.postorderAll nodes))
      ∧ (∀ diagnostic, expandDefinitions nodes = .error diagnostic →
          ∃ before line keyword args after,
            Node.postorderAll nodes = before ++ .call line (.term keyword) args :: after
              ∧ DefinitionsFormed before ∧ keyword.text = definitionKeyword
              ∧ Blames line args diagnostic)
      ∧ ∀ line head args, head.isNamed definitionKeyword = false →
          expandDefinitions [.call line head args]
            = (expandDefinitions args).map fun found => [.call line head found] := by
  refine ⟨?_, ?_, ?_⟩
  · simp only [expandDefinitions_eq_ok_iff, exists_and_left, exists_eq, and_true]
  · intro diagnostic h
    obtain ⟨before, node, after, hnodes, hnode, hbefore⟩ :=
      List.findSome?_eq_some_iff.1 (expandDefinitions_eq_error_iff.1 h)
    obtain ⟨line, keyword, args, rfl, hkeyword, hblames⟩ := blames_of_complaint hnode
    exact ⟨before, line, keyword, args, after, hnodes, definitionsFormed_iff.2 hbefore, hkeyword,
      hblames⟩
  · intro line head args hhead
    rw [expandDefinitions, expandDefinitions, transformAll_cons, transform_call]
    cases Node.transformAll definitionHandlers args with
    | error diagnostic => rfl
    | ok found =>
        have hcall : Node.expandDefinition (.call line head found) = .ok (.call line head found) :=
          expandDefinition_call_eq_ok_iff.2 (.inl ⟨hhead, rfl⟩)
        simp only [hcall]
        rfl

theorem expandDefinitions_outcome_of_nested :
    expandDefinitions [.call 1 (.term ⟨1, "def"⟩) [.call 2 (.term ⟨2, "def"⟩)
        [.term ⟨2, "f"⟩, .int ⟨3, "5"⟩]]]
      = .error (.atLine .validation "expected an argument list after `def f`, found Int `5`"
        (some 2) (some definitionUsage))
      ∧ (∃ before line keyword args after,
          Node.postorderAll [.call 1 (.term ⟨1, "def"⟩) [.call 2 (.term ⟨2, "def"⟩)
              [.term ⟨2, "f"⟩, .int ⟨3, "5"⟩]]]
            = before ++ .call line (.term keyword) args :: after
              ∧ DefinitionsFormed before ∧ keyword.text = definitionKeyword
              ∧ Blames line args (.atLine .validation
                "expected an argument list after `def f`, found Int `5`" (some 2)
                (some definitionUsage)))
      ∧ expandDefinitions [.call 1 (.operator ⟨1, '+'⟩) [.int ⟨1, "5"⟩]]
        = (expandDefinitions [.int ⟨1, "5"⟩]).map fun found =>
          [.call 1 (.operator ⟨1, '+'⟩) found] := by
  have hfails : expandDefinitions [.call 1 (.term ⟨1, "def"⟩) [.call 2 (.term ⟨2, "def"⟩)
      [.term ⟨2, "f"⟩, .int ⟨3, "5"⟩]]]
        = .error (.atLine .validation "expected an argument list after `def f`, found Int `5`"
          (some 2) (some definitionUsage)) := by
    rfl
  exact ⟨hfails, (expandDefinitions_outcome _).2.1 _ hfails,
    (expandDefinitions_outcome []).2.2 1 (.operator ⟨1, '+'⟩) [.int ⟨1, "5"⟩] rfl⟩

end DefForms
