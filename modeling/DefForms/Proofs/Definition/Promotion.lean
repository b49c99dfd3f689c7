import DefForms.Proofs.Definition.Expansion
import DefForms.Proofs.Node.Postorder

set_option autoImplicit false

/-! # The outcome of expansion

What expansion makes of a tree is described without the pass. `Node.promoted` puts a definition in
the place of every call that stands for one; `Node.complaint?` is what there is to say against a
single node, and only a call of the keyword gives cause for it. Expansion yields the promoted trees
unless there is a complaint about a node, and then reports the first complaint in post-order
(`transformAll_outcome`).

The pass looks at the arguments of a call after it has expanded them, while a complaint is about the
arguments as they were given. This is the same because expansion neither makes nor removes a name or
a parameter list (`definitionOfArgs_promotedAll`). -/

namespace DefForms

/-! ## Calls that stand for definitions -/

/-- The node is a call of the keyword. -/
def Node.isDefinitionCall : Node → Bool
  | .call _ head _ => head.isNamed definitionKeyword
  | _ => false

/-- The arguments are those of a definition: a name, a parameter list and the body. -/
def FormDefinition (args : List Node) : Prop :=
  ∃ name params body, args = .term name :: .paramList params :: body

mutual

/-- The tree with each call of the keyword that has the arguments of a definition replaced by this
    definition. -/
def Node.promoted : Node → Node
  | .call line head args =>
    match head.isNamed definitionKeyword, args with
    | true, .term name :: .paramList params :: body =>
      .definition line name params (Node.promotedAll body)
    | _, args => .call line head (Node.promotedAll args)
  | .definition line name params body => .definition line name params (Node.promotedAll body)
  | .int numeral => .int numeral
  | .float numeral => .float numeral
  | .operator op => .operator op
  | .term name => .term name
  | .param entry => .param entry
  | .paramList params => .paramList params

/-- The trees with the definitions in them promoted. -/
def Node.promotedAll : List Node → List Node
  | [] => []
  | node :: rest => node.promoted :: Node.promotedAll rest

end

theorem promotedAll_eq_map (nodes : List Node) :
    Node.promotedAll nodes = nodes.map Node.promoted := by
  induction nodes with
  | nil => rfl
  | cons node rest ih => rw [Node.promotedAll, ih, List.map_cons]

theorem promoted_definitionCall {line : Nat} {head : Head} {name : Term} {params : ParamList}
    {body : List Node} (h : head.isNamed definitionKeyword = true) :
    (Node.call line head (.term name :: .paramList params :: body)).promoted
      = .definition line name params (Node.promotedAll body) := by
  unfold Node.promoted
  rw [h]

theorem promoted_otherCall {line : Nat} {head : Head} {args : List Node}
    (h : head.isNamed definitionKeyword = false) :
    (Node.call line head args).promoted = .call line head (Node.promotedAll args) := by
  unfold Node.promoted
  rw [h]

/-- A promoted call is a call or a definition, so what is promoted to anything else was that
    before. -/
theorem eq_of_promoted_plain {node plain : Node} (h : node.promoted = plain)
    (hplain : plain.isPlain = true) : node = plain := by
  cases node with
  | int | float | operator | term | param | paramList => exact h
  | definition => simp [← h, Node.promoted, Node.isPlain] at hplain
  | call line head args =>
      unfold Node.promoted at h
      split at h <;> simp [← h, Node.isPlain] at hplain

/-! ## Complaints -/

/-- What keeps the arguments from forming a definition. The node that stands in the place of the
    missing part is shown with the definitions in it promoted. -/
def definitionFault? : List Node → Option DefinitionFault
  | .term _ :: .paramList _ :: _ => none
  | .term name :: rest => some (.noParams name.text (Node.promotedAll rest).head?)
  | args => some (.noName (Node.promotedAll args).head?)

/-- What there is to say against a node: a call of the keyword has to form a definition. -/
def Node.complaint? : Node → Option Diagnostic
  | .call line head args =>
    if head.isNamed definitionKeyword then
      (definitionFault? args).map (DefinitionFault.diagnostic line)
    else none
  | _ => none

theorem definitionFault?_eq_none_iff {args : List Node} :
    definitionFault? args = none ↔ FormDefinition args := by
  constructor
  · intro h
    unfold definitionFault? at h
    split at h
    · next name params body => exact ⟨name, params, body, rfl⟩
    · simp at h
    · simp at h
  · rintro ⟨name, params, body, rfl⟩
    rfl

theorem complaint?_eq_none {node : Node} (h : node.isDefinitionCall = false) :
    node.complaint? = none := by
  cases node with
  | call line head args =>
      have hhead : head.isNamed definitionKeyword = false := h
      simp [Node.complaint?, hhead]
  | _ => rfl

theorem complaint?_call_eq_none_iff {line : Nat} {head : Head} {args : List Node} :
    (Node.call line head args).complaint? = none
      ↔ (head.isNamed definitionKeyword = true → FormDefinition args) := by
  rw [Node.complaint?, ← definitionFault?_eq_none_iff]
  cases head.isNamed definitionKeyword <;> simp

/-- There is nothing to say against the nodes of a parameter list. -/
theorem findSome?_complaint_params (params : ParamList) :
    params.postorder.findSome? Node.complaint? = none := by
  simp [ParamList.postorder, Node.complaint?]

/-! ## One call -/

/-- Arguments that do not form a definition fall short of it in the same way when they are
    expanded. -/
theorem definitionOfArgs_promotedAll (line : Nat) {args : List Node} {fault : DefinitionFault}
    (h : definitionFault? args = some fault) :
    definitionOfArgs line (Node.promotedAll args) = .error fault := by
  unfold definitionFault? at h
  split at h
  · simp at h
  · next name rest hparams =>
      obtain rfl := Option.some.inj h
      cases rest with
      | nil => rfl
      | cons second body =>
          show definitionOfArgs line (.term name :: second.promoted :: Node.promotedAll body)
            = .error (.noParams name.text (some second.promoted))
          cases hsecond : second.promoted with
          | paramList params =>
              have hlist : second = .paramList params := eq_of_promoted_plain hsecond rfl
              exact (hparams params body (by rw [hlist])).elim
          | _ => rfl
  · next _ hname =>
      obtain rfl := Option.some.inj h
      cases args with
      | nil => rfl
      | cons first rest =>
          show definitionOfArgs line (first.promoted :: Node.promotedAll rest)
            = .error (.noName (some first.promoted))
          cases hfirst : first.promoted with
          | term name =>
              have hterm : first = .term name := eq_of_promoted_plain hfirst rfl
              exact (hname name rest (by rw [hterm])).elim
          | _ => rfl

/-- A call whose arguments have been expanded is promoted unless there is a complaint about it. -/
theorem expandDefinition_promotedAll (line : Nat) (head : Head) (args : List Node) :
    Node.expandDefinition (.call line head (Node.promotedAll args))
      = match (Node.call line head args).complaint? with
        | none => .ok (Node.call line head args).promoted
        | some diagnostic => .error diagnostic := by
  rw [Node.complaint?, Node.expandDefinition]
  cases hhead : head.isNamed definitionKeyword with
  | false => rw [promoted_otherCall hhead]; rfl
  | true =>
      rw [if_pos rfl, if_pos rfl]
      cases hfault : definitionFault? args with
      | some fault => rw [definitionOfArgs_promotedAll line hfault]; rfl
      | none =>
          obtain ⟨name, params, body, rfl⟩ := definitionFault?_eq_none_iff.1 hfault
          rw [promoted_definitionCall hhead]
          rfl

/-! ## Trees -/

mutual

/-- A tree is promoted unless there is a complaint about one of its nodes; the first complaint in
    post-order is reported. -/
theorem transform_outcome (node : Node) :
    node.transform definitionHandlers
      = match node.postorder.findSome? Node.complaint? with
        | none => .ok node.promoted
        | some diagnostic => .error diagnostic := by
  cases node with
  | int | float | operator | term | param => exact transform_plain rfl
  | paramList params =>
      rw [transform_plain rfl, Node.postorder, findSome?_complaint_params]
      rfl
  | call line head args =>
      -- the arguments stand before the call in post-order, so a complaint about them wins
      rw [transform_call, transformAll_outcome args, Node.postorder, List.findSome?_append,
        List.findSome?_singleton]
      cases (Node.postorderAll args).findSome? Node.complaint? with
      | some diagnostic => rfl
      | none => exact expandDefinition_promotedAll line head args
  | definition line name params body =>
      rw [transform_definition, transformAll_outcome body, Node.postorder, List.findSome?_append,
        findSome?_complaint_params, List.findSome?_append]
      cases (Node.postorderAll body).findSome? Node.complaint? <;> rfl

theorem transformAll_outcome (nodes : List Node) :
    Node.transformAll definitionHandlers nodes
      = match (Node.postorderAll nodes).findSome? Node.complaint? with
        | none => .ok (Node.promotedAll nodes)
        | some diagnostic => .error diagnostic := by
  cases nodes with
  | nil => rfl
  | cons node rest =>
      rw [transformAll_cons, transform_outcome node, transformAll_outcome rest, Node.postorderAll,
        List.findSome?_append]
      cases node.postorder.findSome? Node.complaint? with
      | some diagnostic => rfl
      | none => cases (Node.postorderAll rest).findSome? Node.complaint? <;> rfl

end

end DefForms
