import DefForms.Proofs.Node.Postorder
import DefForms.Transform.Edit
import DefForms.Transform.Trace

set_option autoImplicit false

/-! # The handlers that a pass can use

A pass gives to handlers only what stands in the trees it was given, rebuilt but of the same kind,
and never what a handler has returned. So only the handlers for kinds that occur in the trees can be
used: two sets that agree on these kinds make the same pass, and if none of them has a handler then
the trees stay as they are (`transformAll_agree`).

The kinds that occur are those of `Node.postorderAll`. Nothing is assumed about the effects of
handlers or about the nodes they return. -/

namespace DefForms

section Agree

variable {m : Type → Type} {handlers others : Handlers m} {kind : Kind}

/-- Either neither set has a handler for the kind, or both have one and the two do the same with
    every node. -/
def Handlers.AgreeAt (handlers others : Handlers m) (kind : Kind) : Prop :=
  match handlers.handler? kind, others.handler? kind with
  | none, none => True
  | some handler, some other => ∀ node, handler node = other node
  | none, some _ => False
  | some _, none => False

/-- A set without a handler for the kind agrees with the set without any handler. -/
theorem Handlers.agreeAt_empty (h : handlers.handler? kind = none) :
    handlers.AgreeAt Handlers.empty kind := by
  unfold AgreeAt
  rw [h]
  trivial

variable [Monad m]

theorem Handlers.AgreeAt.apply_eq {node : Node} (h : handlers.AgreeAt others node.kind) :
    handlers.apply node = others.apply node := by
  unfold Handlers.AgreeAt at h
  unfold Handlers.apply
  cases hhandler : handlers.handler? node.kind with
  | none =>
      cases hother : others.handler? node.kind with
      | none => rfl
      | some other => simp [hhandler, hother] at h
  | some handler =>
      cases hother : others.handler? node.kind with
      | none => simp [hhandler, hother] at h
      | some other =>
          simp only [hhandler, hother] at h
          exact h node

end Agree

/-! ## Two sets that agree -/

section Passes

variable {m : Type → Type} [Monad m] [MonadExceptOf Diagnostic m] {handlers others : Handlers m}

theorem transformAll_params_agree (entries : List Param)
    (h : ∀ found ∈ entries.map Node.param, handlers.AgreeAt others found.kind) :
    Param.transformAll handlers entries = Param.transformAll others entries := by
  induction entries with
  | nil => rfl
  | cons entry rest ih =>
      rw [List.map_cons, List.forall_mem_cons] at h
      obtain ⟨hentry, hrest⟩ := h
      rw [Param.transformAll, Param.transformAll, hentry.apply_eq, ih hrest]

theorem transform_params_agree (params : ParamList)
    (h : ∀ found ∈ params.postorder, handlers.AgreeAt others found.kind) :
    params.transform handlers = params.transform others := by
  rw [ParamList.postorder, List.forall_mem_append, List.forall_mem_singleton] at h
  obtain ⟨hentries, hlist⟩ := h
  -- The list is handled with other entries, but it is still a list.
  have hrebuilt : ∀ entries : List Param,
      handlers.apply (.paramList ⟨params.line, entries⟩)
        = others.apply (.paramList ⟨params.line, entries⟩) := by
    intro entries
    apply Handlers.AgreeAt.apply_eq
    exact hlist
  unfold ParamList.transform
  rw [transformAll_params_agree params.entries hentries]
  simp only [hrebuilt]

mutual

/-- Two sets that agree on the kinds in a tree do the same with it. -/
theorem transform_agree (node : Node)
    (h : ∀ found ∈ node.postorder, handlers.AgreeAt others found.kind) :
    node.transform handlers = node.transform others := by
  cases node with
  | int | float | operator | term | param =>
      rw [Node.transform, Node.transform]
      apply Handlers.AgreeAt.apply_eq
      exact h _ (List.mem_singleton_self _)
  | paramList params =>
      rw [Node.transform, Node.transform, transform_params_agree params h]
  | call line head args =>
      rw [Node.postorder, List.forall_mem_append, List.forall_mem_singleton] at h
      obtain ⟨hargs, hcall⟩ := h
      have hrebuilt : ∀ found : List Node,
          handlers.apply (.call line head found) = others.apply (.call line head found) := by
        intro found
        apply Handlers.AgreeAt.apply_eq
        exact hcall
      rw [Node.transform, Node.transform, transformAll_agree_eq args hargs]
      simp only [hrebuilt]
  | definition line name params body =>
      rw [Node.postorder, List.forall_mem_append, List.forall_mem_append,
        List.forall_mem_singleton] at h
      obtain ⟨hparams, hbody, hdefinition⟩ := h
      have hrebuilt : ∀ (list : ParamList) (found : List Node),
          handlers.apply (.definition line name list found)
            = others.apply (.definition line name list found) := by
        intro list found
        apply Handlers.AgreeAt.apply_eq
        exact hdefinition
      rw [Node.transform, Node.transform, transform_params_agree params hparams,
        transformAll_agree_eq body hbody]
      simp only [hrebuilt]

theorem transformAll_agree_eq (nodes : List Node)
    (h : ∀ found ∈ Node.postorderAll nodes, handlers.AgreeAt others found.kind) :
    Node.transformAll handlers nodes = Node.transformAll others nodes := by
  cases nodes with
  | nil => rfl
  | cons node rest =>
      rw [Node.postorderAll, List.forall_mem_append] at h
      obtain ⟨hnode, hrest⟩ := h
      rw [Node.transformAll, Node.transformAll, transform_agree node hnode,
        transformAll_agree_eq rest hrest]

end

end Passes

/-! ## No handler at all -/

section Identity

variable {m : Type → Type} [Monad m] [LawfulMonad m] [MonadExceptOf Diagnostic m]

theorem transformAll_params_empty (entries : List Param) :
    Param.transformAll (Handlers.empty : Handlers m) entries = pure entries := by
  induction entries with
  | nil => rfl
  | cons entry rest ih =>
      simp only [Param.transformAll, Handlers.apply, Handlers.empty, Node.asParam, pure_bind]
      rw [← Handlers.empty, ih, pure_bind]

theorem transform_params_empty (params : ParamList) :
    params.transform (Handlers.empty : Handlers m) = pure params := by
  unfold ParamList.transform
  rw [transformAll_params_empty, pure_bind]
  simp only [Handlers.apply, Handlers.empty, Node.asParamList, pure_bind]

mutual

theorem transform_empty (node : Node) :
    node.transform (Handlers.empty : Handlers m) = pure node := by
  cases node with
  | int | float | operator | term | param => rfl
  | paramList params => rw [Node.transform, transform_params_empty, pure_bind]
  | call line head args =>
      rw [Node.transform, transformAll_empty args, pure_bind]
      rfl
  | definition line name params body =>
      rw [Node.transform, transform_params_empty, pure_bind, transformAll_empty body, pure_bind]
      rfl

/-- A pass without handlers leaves the trees as they are. -/
theorem transformAll_empty (nodes : List Node) :
    Node.transformAll (Handlers.empty : Handlers m) nodes = pure nodes := by
  cases nodes with
  | nil => rfl
  | cons node rest =>
      rw [Node.transformAll, transform_empty node, pure_bind, transformAll_empty rest, pure_bind]

end

/-- Two handler sets that agree on the kinds that occur in the trees do the same with them, and come
    to the same result or the same failure. In particular, if no kind that occurs has a handler, as
    in the set without handlers, then the trees stay as they are. -/
theorem transformAll_agree (handlers others : Handlers m) (nodes : List Node) :
    ((∀ found ∈ Node.postorderAll nodes, handlers.AgreeAt others found.kind) →
        Node.transformAll handlers nodes = Node.transformAll others nodes)
      ∧ ((∀ found ∈ Node.postorderAll nodes, handlers.handler? found.kind = none) →
        Node.transformAll handlers nodes = pure nodes)
      ∧ Node.transformAll (Handlers.empty : Handlers m) nodes = pure nodes := by
  refine ⟨fun hagree => transformAll_agree_eq nodes hagree, ?_, transformAll_empty nodes⟩
  intro hnone
  rw [← transformAll_empty nodes]
  apply transformAll_agree_eq
  intro found hfound
  exact Handlers.agreeAt_empty (hnone found hfound)

end Identity

/-- Every name becomes a call of `f`. -/
def wrappedNames : Handlers Fallible :=
  Handlers.empty.on .term fun node => .ok (node.wrap "f")

/-- The same, and calls are refused. -/
def wrappedNamesOnly : Handlers Fallible :=
  wrappedNames.on .call fun node => .error (.atLine .structural "a call" (some node.line) none)

/-- The calls that come of the names are not refused. -/
theorem transformAll_agree_of_wrapped :
    Node.transformAll wrappedNamesOnly [.term ⟨1, "x"⟩, .paramList ⟨2, [⟨2, ⟨2, "x"⟩, ⟨2, "T"⟩⟩]⟩]
        = .ok [.call 1 (.term ⟨1, "f"⟩) [.term ⟨1, "x"⟩],
          .paramList ⟨2, [⟨2, ⟨2, "x"⟩, ⟨2, "T"⟩⟩]⟩]
      ∧ Node.transformAll wrappedNamesOnly [.int ⟨1, "1"⟩] = .ok [.int ⟨1, "1"⟩] := by
  have hagree : ∀ found ∈ Node.postorderAll
      [.term ⟨1, "x"⟩, .paramList ⟨2, [⟨2, ⟨2, "x"⟩, ⟨2, "T"⟩⟩]⟩],
      wrappedNamesOnly.AgreeAt wrappedNames found.kind := by
    intro found hfound
    simp only [Node.postorderAll, Node.postorder, ParamList.postorder, List.map_cons, List.map_nil,
      List.cons_append, List.nil_append, List.mem_cons, List.not_mem_nil, or_false] at hfound
    rcases hfound with rfl | rfl | rfl
    · exact fun node => rfl
    · trivial
    · trivial
  have hnone : ∀ found ∈ Node.postorderAll [.int ⟨1, "1"⟩],
      wrappedNamesOnly.handler? found.kind = none := by
    intro found hfound
    obtain rfl := List.mem_singleton.1 hfound
    rfl
  obtain ⟨hsame, -⟩ := transformAll_agree wrappedNamesOnly wrappedNames
    [.term ⟨1, "x"⟩, .paramList ⟨2, [⟨2, ⟨2, "x"⟩, ⟨2, "T"⟩⟩]⟩]
  obtain ⟨-, hkept, -⟩ := transformAll_agree wrappedNamesOnly wrappedNames [.int ⟨1, "1"⟩]
  exact ⟨(hsame hagree).trans rfl, hkept hnone⟩

end DefForms
