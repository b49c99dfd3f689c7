import DefForms.Transform.Trace

set_option autoImplicit false

/-! # When a pass succeeds

A pass over a tree succeeds if the passes over what the tree holds do and the handler accepts the tree
that is rebuilt from their results. There is one equivalence for each kind of node that holds others
(`Node.transform_call_eq_ok_iff` and so on); everything that is said about successful passes comes from
them. -/

namespace DefForms

variable {handlers : Handlers Fallible}

theorem bind_eq_ok_iff {α β : Type} {x : Fallible α} {f : α → Fallible β} {out : β} :
    (x >>= f) = .ok out ↔ ∃ found, x = .ok found ∧ f found = .ok out := by
  cases x with
  | error diagnostic => simp [bind, Except.bind]
  | ok found => simp [bind, Except.bind]

/-! ## Single nodes -/

/-- A node whose kind has no handler stays as it is. -/
theorem Handlers.apply_of_none {node : Node} (h : handlers.handler? node.kind = none) :
    handlers.apply node = .ok node := by
  rw [Handlers.apply, h]
  rfl

theorem Handlers.apply_of_some {node : Node} {handler : Handler Fallible}
    (h : handlers.handler? node.kind = some handler) : handlers.apply node = handler node := by
  rw [Handlers.apply, h]

/-- What is made of a node is the node itself, or comes from the handler of its kind. -/
theorem Handlers.apply_cases {node found : Node} (h : handlers.apply node = .ok found) :
    found = node ∨ ∃ handler, handlers.handler? node.kind = some handler
      ∧ handler node = .ok found := by
  cases hhandler : handlers.handler? node.kind with
  | none =>
      rw [Handlers.apply_of_none hhandler] at h
      exact .inl (Except.ok.inj h).symm
  | some handler =>
      rw [Handlers.apply_of_some hhandler] at h
      exact .inr ⟨handler, rfl, h⟩

theorem Node.asParam_eq_ok_iff {line : Nat} {node : Node} {entry : Param} :
    (node.asParam line : Fallible Param) = .ok entry ↔ node = .param entry := by
  cases node with
  | param found => simp [Node.asParam, pure, Except.pure]
  | _ => simp [Node.asParam, throwThe, MonadExceptOf.throw]

theorem Node.asParamList_eq_ok_iff {line : Nat} {node : Node} {params : ParamList} :
    (node.asParamList line : Fallible ParamList) = .ok params ↔ node = .paramList params := by
  cases node with
  | paramList found => simp [Node.asParamList, pure, Except.pure]
  | _ => simp [Node.asParamList, throwThe, MonadExceptOf.throw]

/-! ## Parameter lists -/

theorem Param.transformAll_cons_eq_ok_iff {entry : Param} {rest out : List Param} :
    Param.transformAll handlers (entry :: rest) = .ok out ↔
      ∃ first more, handlers.apply (.param entry) = .ok (.param first)
        ∧ Param.transformAll handlers rest = .ok more ∧ out = first :: more := by
  simp only [Param.transformAll, bind_eq_ok_iff, Node.asParam_eq_ok_iff, pure, Except.pure,
    Except.ok.injEq, eq_comm (a := out)]
  constructor
  · rintro ⟨found, hfound, first, rfl, more, hmore, hout⟩
    exact ⟨first, more, hfound, hmore, hout⟩
  · rintro ⟨first, more, hfirst, hmore, hout⟩
    exact ⟨_, hfirst, first, rfl, more, hmore, hout⟩

theorem ParamList.transform_eq_ok_iff {params out : ParamList} :
    params.transform handlers = .ok out ↔
      ∃ entries, Param.transformAll handlers params.entries = .ok entries
        ∧ handlers.apply (.paramList ⟨params.line, entries⟩) = .ok (.paramList out) := by
  simp only [ParamList.transform, bind_eq_ok_iff, Node.asParamList_eq_ok_iff, exists_eq_right]

/-! ## Trees -/

theorem Node.transform_paramList_eq_ok_iff {params : ParamList} {out : Node} :
    (Node.paramList params).transform handlers = .ok out ↔
      ∃ found, params.transform handlers = .ok found ∧ out = .paramList found := by
  simp only [Node.transform, bind_eq_ok_iff, pure, Except.pure, Except.ok.injEq, eq_comm (a := out)]

theorem Node.transform_call_eq_ok_iff {line : Nat} {head : Head} {args : List Node} {out : Node} :
    (Node.call line head args).transform handlers = .ok out ↔
      ∃ found, Node.transformAll handlers args = .ok found
        ∧ handlers.apply (.call line head found) = .ok out := by
  rw [Node.transform, bind_eq_ok_iff]

theorem Node.transform_definition_eq_ok_iff {line : Nat} {name : Term} {params : ParamList}
    {body : List Node} {out : Node} :
    (Node.definition line name params body).transform handlers = .ok out ↔
      ∃ list found, params.transform handlers = .ok list
        ∧ Node.transformAll handlers body = .ok found
        ∧ handlers.apply (.definition line name list found) = .ok out := by
  simp only [Node.transform, bind_eq_ok_iff, exists_and_left]

theorem Node.transformAll_cons_eq_ok_iff {node : Node} {rest out : List Node} :
    Node.transformAll handlers (node :: rest) = .ok out ↔
      ∃ first more, node.transform handlers = .ok first
        ∧ Node.transformAll handlers rest = .ok more ∧ out = first :: more := by
  simp only [Node.transformAll, bind_eq_ok_iff, pure, Except.pure, Except.ok.injEq, exists_and_left,
    eq_comm (a := out)]

/-! ## Numbers of nodes -/

theorem Param.length_of_transformAll {entries out : List Param}
    (h : Param.transformAll handlers entries = .ok out) : out.length = entries.length := by
  induction entries generalizing out with
  | nil =>
      obtain rfl := Except.ok.inj h
      rfl
  | cons entry rest ih =>
      obtain ⟨first, more, -, hmore, rfl⟩ := Param.transformAll_cons_eq_ok_iff.1 h
      rw [List.length_cons, List.length_cons, ih hmore]

/-- Each node yields one node. -/
theorem Node.length_of_transformAll {nodes out : List Node}
    (h : Node.transformAll handlers nodes = .ok out) : out.length = nodes.length := by
  induction nodes generalizing out with
  | nil =>
      obtain rfl := Except.ok.inj h
      rfl
  | cons node rest ih =>
      obtain ⟨first, more, -, hmore, rfl⟩ := Node.transformAll_cons_eq_ok_iff.1 h
      rw [List.length_cons, List.length_cons, ih hmore]

/-! ## Sets for calls and definitions

Calls and definitions are the forms that hold nodes. A node that is none of them is plain, and it is a
leaf if it holds no entries either. -/

/-- The node neither is a call nor can it hold one. -/
def Node.isPlain : Node → Bool
  | .call _ _ _ | .definition _ _ _ _ => false
  | .int _ | .float _ | .operator _ | .term _ | .param _ | .paramList _ => true

/-- The kind is that of plain nodes. -/
def Kind.isPlain : Kind → Bool
  | .call | .definition => false
  | .int | .float | .operator | .term | .param | .paramList => true

/-- The kind is that of leaves. -/
def Kind.isLeaf : Kind → Bool
  | .call | .paramList | .definition => false
  | .int | .float | .operator | .term | .param => true

theorem Kind.isPlain_of_isLeaf {kind : Kind} (h : kind.isLeaf = true) : kind.isPlain = true := by
  cases kind with
  | call | definition => simp [Kind.isLeaf] at h
  | _ => rfl

/-- A leaf is only given to its handler. -/
theorem Node.transform_leaf {node : Node} (h : node.kind.isLeaf = true) :
    node.transform handlers = handlers.apply node := by
  cases node with
  | int | float | operator | term | param => rw [Node.transform]
  | call | paramList | definition => simp [Node.kind, Kind.isLeaf] at h

theorem Node.isPlain_kind (node : Node) : node.kind.isPlain = node.isPlain := by
  cases node <;> rfl

/-- Only calls and definitions have a handler. -/
def Handlers.OnForms (handlers : Handlers Fallible) : Prop :=
  ∀ kind, kind.isPlain = true → handlers.handler? kind = none

/-- Only plain nodes have a handler. -/
def Handlers.OnPlain (handlers : Handlers Fallible) : Prop :=
  ∀ kind, kind.isPlain = false → handlers.handler? kind = none

theorem Handlers.OnPlain.apply_form (h : handlers.OnPlain) {node : Node}
    (hnode : node.isPlain = false) : handlers.apply node = .ok node :=
  Handlers.apply_of_none (h _ (node.isPlain_kind.trans hnode))

section OnForms

variable (h : handlers.OnForms)

include h

theorem Handlers.OnForms.apply_plain {node : Node} (hnode : node.isPlain = true) :
    handlers.apply node = .ok node :=
  Handlers.apply_of_none (h _ (node.isPlain_kind.trans hnode))

theorem Handlers.OnForms.transformAll_params (entries : List Param) :
    Param.transformAll handlers entries = .ok entries := by
  induction entries with
  | nil => rfl
  | cons entry rest ih =>
      exact Param.transformAll_cons_eq_ok_iff.2 ⟨entry, rest, h.apply_plain rfl, ih, rfl⟩

theorem Handlers.OnForms.transform_params (params : ParamList) :
    params.transform handlers = .ok params :=
  ParamList.transform_eq_ok_iff.2 ⟨params.entries, h.transformAll_params _, h.apply_plain rfl⟩

/-- Plain nodes stay as they are. -/
theorem Handlers.OnForms.transform_plain {node : Node} (hnode : node.isPlain = true) :
    node.transform handlers = .ok node := by
  cases node with
  | int | float | operator | term | param =>
      rw [Node.transform]
      exact h.apply_plain rfl
  | paramList params =>
      exact Node.transform_paramList_eq_ok_iff.2 ⟨params, h.transform_params params, rfl⟩
  | call | definition => simp [Node.isPlain] at hnode

end OnForms

end DefForms
