import DefForms.Program
import DefForms.Proofs.Transform.Success

set_option autoImplicit false

/-! # What expansion does to a tree

Expansion has a handler for calls only, so it rebuilds everything else as it was. The equations of
this module say so for each kind of node, and what becomes of a call is said once
(`expandDefinition_call_eq_ok_iff`). A definition is written like the call that it stands for, so
expansion never shows in the surface text (`surfaceLines_expandDefinitions`). -/

namespace DefForms

/-! ## Nodes that are given to handlers -/

theorem apply_definitionHandlers {node : Node} (h : node.kind ≠ .call) :
    definitionHandlers.apply node = .ok node := by
  rw [Handlers.apply, definitionHandlers, Handlers.handler?_on_other _ _ h]
  rfl

theorem apply_definitionHandlers_call (line : Nat) (head : Head) (args : List Node) :
    definitionHandlers.apply (.call line head args) = Node.expandDefinition (.call line head args) := by
  rw [Handlers.apply, definitionHandlers]
  have hkind : (Node.call line head args).kind = .call := rfl
  rw [hkind, Handlers.handler?_on_self]

/-- Expansion has a handler for calls only. -/
theorem definitionHandlers_onForms : definitionHandlers.OnForms := by
  intro kind hkind
  cases kind with
  | call | definition => simp [Kind.isPlain] at hkind
  | int | float | operator | term | param | paramList => rfl

/-! ## Trees, kind by kind -/

theorem transform_plain {node : Node} (h : node.isPlain = true) :
    node.transform definitionHandlers = .ok node :=
  definitionHandlers_onForms.transform_plain h

theorem transform_call (line : Nat) (head : Head) (args : List Node) :
    (Node.call line head args).transform definitionHandlers
      = match Node.transformAll definitionHandlers args with
        | .error diagnostic => .error diagnostic
        | .ok found => Node.expandDefinition (.call line head found) := by
  rw [Node.transform]
  cases Node.transformAll definitionHandlers args with
  | error diagnostic => rfl
  | ok found => exact apply_definitionHandlers_call line head found

theorem transform_definition (line : Nat) (name : Term) (params : ParamList) (body : List Node) :
    (Node.definition line name params body).transform definitionHandlers
      = match Node.transformAll definitionHandlers body with
        | .error diagnostic => .error diagnostic
        | .ok found => .ok (.definition line name params found) := by
  rw [Node.transform, definitionHandlers_onForms.transform_params]
  cases Node.transformAll definitionHandlers body with
  | error diagnostic => rfl
  | ok found =>
      have hkind : (Node.definition line name params found).kind ≠ .call := by simp [Node.kind]
      exact apply_definitionHandlers hkind

theorem transformAll_cons (node : Node) (rest : List Node) :
    Node.transformAll definitionHandlers (node :: rest)
      = match node.transform definitionHandlers with
        | .error diagnostic => .error diagnostic
        | .ok first =>
          match Node.transformAll definitionHandlers rest with
          | .error diagnostic => .error diagnostic
          | .ok more => .ok (first :: more) := by
  rw [Node.transformAll]
  cases node.transform definitionHandlers with
  | error diagnostic => rfl
  | ok first => cases Node.transformAll definitionHandlers rest <;> rfl

/-! ## Calls -/

/-- The arguments that make a definition are a term, a parameter list and the body. -/
theorem definitionOfArgs_eq_ok_iff {line : Nat} {args : List Node} {out : Node} :
    definitionOfArgs line args = .ok out ↔
      ∃ name params body, args = .term name :: .paramList params :: body
        ∧ out = .definition line name params body := by
  constructor
  · intro h
    unfold definitionOfArgs at h
    split at h
    · next name params body => exact ⟨name, params, body, rfl, (Except.ok.inj h).symm⟩
    · simp at h
    · simp at h
  · rintro ⟨name, params, body, rfl, rfl⟩
    rfl

/-- A call becomes a definition if its head is the keyword, and stays as it is otherwise. -/
theorem expandDefinition_call_eq_ok_iff {line : Nat} {head : Head} {args : List Node} {out : Node} :
    Node.expandDefinition (.call line head args) = .ok out ↔
      (head.isNamed definitionKeyword = false ∧ out = .call line head args)
        ∨ (head.isNamed definitionKeyword = true ∧ ∃ name params body,
          args = .term name :: .paramList params :: body
            ∧ out = .definition line name params body) := by
  rw [Node.expandDefinition, ← definitionOfArgs_eq_ok_iff]
  cases head.isNamed definitionKeyword with
  | false => simp [eq_comm]
  | true => cases definitionOfArgs line args <;> simp

/-! ## The surface text -/

theorem surfaceSpaced_eq_flatMap (nodes : List Node) :
    Node.surfaceSpaced nodes = (nodes.map Node.surface).flatMap (' ' :: ·) := by
  induction nodes with
  | nil => rfl
  | cons node rest ih => simp [Node.surfaceSpaced, ih]

theorem surfaceLines_eq_intercalate (nodes : List Node) :
    Node.surfaceLines nodes = ['\n'].intercalate (nodes.map Node.surface) := by
  induction nodes with
  | nil => rfl
  | cons node rest ih =>
      cases rest with
      | nil => simp [Node.surfaceLines, List.intercalate]
      | cons next rest =>
          rw [Node.surfaceLines, ih]
          simp [List.intercalate]

/-- A definition is written like the call with the keyword as its head. -/
theorem surface_definition {line line' : Nat} {head : Head} (name : Term) (params : ParamList)
    (body : List Node) (h : head.isNamed definitionKeyword = true) :
    (Node.definition line name params body).surface
      = (Node.call line' head (.term name :: .paramList params :: body)).surface := by
  cases head with
  | term keyword =>
      have hkeyword : keyword.text = definitionKeyword := eq_of_beq h
      simp [Node.surface, Node.surfaceSpaced, Head.text, hkeyword]
  | operator op => simp [Head.isNamed] at h

mutual

/-- What a node expands to is written as the node. -/
theorem surface_transform (node : Node) {out : Node}
    (h : node.transform definitionHandlers = .ok out) : out.surface = node.surface := by
  cases node with
  | int | float | operator | term | param | paramList =>
      rw [transform_plain rfl, Except.ok.injEq] at h
      rw [h]
  | call line head args =>
      rw [transform_call] at h
      split at h
      · simp at h
      · next found hfound =>
          have hargs : Node.surfaceSpaced found = Node.surfaceSpaced args := by
            rw [surfaceSpaced_eq_flatMap, surface_transformAll args hfound,
              ← surfaceSpaced_eq_flatMap]
          have hcall : (Node.call line head found).surface = (Node.call line head args).surface := by
            rw [Node.surface, Node.surface, hargs]
          rcases expandDefinition_call_eq_ok_iff.1 h with ⟨-, rfl⟩ | ⟨hhead, _, _, _, rfl, rfl⟩
          · exact hcall
          · rw [← hcall, surface_definition _ _ _ hhead]
  | definition line name params body =>
      rw [transform_definition] at h
      split at h
      · simp at h
      · next found hfound =>
          obtain rfl := Except.ok.inj h
          rw [Node.surface, Node.surface, surfaceSpaced_eq_flatMap, surface_transformAll body hfound,
            ← surfaceSpaced_eq_flatMap]

theorem surface_transformAll (nodes : List Node) {out : List Node}
    (h : Node.transformAll definitionHandlers nodes = .ok out) :
    out.map Node.surface = nodes.map Node.surface := by
  cases nodes with
  | nil =>
      obtain rfl := Except.ok.inj h
      rfl
  | cons node rest =>
      rw [transformAll_cons] at h
      split at h
      · simp at h
      · next first hfirst =>
          split at h
          · simp at h
          · next more hmore =>
              obtain rfl := Except.ok.inj h
              rw [List.map_cons, List.map_cons, surface_transform node hfirst,
                surface_transformAll rest hmore]

end

/-- Expansion leaves the surface text of a program as it is. -/
theorem surfaceLines_expandDefinitions {nodes out : List Node} (h : expandDefinitions nodes = .ok out) :
    Node.surfaceLines out = Node.surfaceLines nodes := by
  rw [surfaceLines_eq_intercalate, surface_transformAll nodes h, ← surfaceLines_eq_intercalate]

/-! ## Sources -/

/-- A source is expanded if it is read and what is read is expanded. -/
theorem Source.expanded_eq_ok_iff {source : Source} {out : List Node} :
    source.expanded = .ok out
      ↔ ∃ nodes, source.nodes = .ok nodes ∧ expandDefinitions nodes = .ok out := by
  rw [Source.expanded]
  cases source.nodes with
  | error diagnostic => simp
  | ok nodes =>
      simp only [Source.expand, Except.ok.injEq, exists_eq_left']
      cases expandDefinitions nodes <;> simp

end DefForms
