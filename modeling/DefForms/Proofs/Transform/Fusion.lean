import DefForms.Proofs.Definition.Expansion

set_option autoImplicit false

/-! # Passes that can be merged

A pass over plain nodes and a pass over calls and definitions do in one go what they do one after the
other. What the first pass puts in the place of a plain node is not visited again, and if it is plain
as well then the second pass, which has no handler for it, leaves it as it is. So calls and definitions
see the same arguments either way (`transformAll_beside`).

The two ways do not fail alike: in one pass, a call can be refused before a leaf behind it is. -/

namespace DefForms

/-! ## One pass for two

How a pass goes through a tree depends on its handlers only where it comes to a node without further
ones below. So it is enough to compare passes on leaves and parameter lists, and handlers on calls and
definitions. -/

/-- With every leaf and every parameter list, a pass with `both` does in one go what a pass with
    `first` and then one with `second` do. Calls and definitions are left alone by `first`. -/
structure Handlers.Fuses (both first second : Handlers Fallible) : Prop where
  leaf : ∀ node out : Node, node.kind.isLeaf = true →
    (node.transform both = .ok out ↔
      ∃ found, node.transform first = .ok found ∧ found.transform second = .ok out)
  params : ∀ params out : ParamList, params.transform both = .ok out ↔
    ∃ found, params.transform first = .ok found ∧ found.transform second = .ok out
  form : ∀ node : Node, node.isPlain = false →
    first.apply node = .ok node ∧ both.apply node = second.apply node

namespace Handlers.Fuses

variable {both first second : Handlers Fallible}

mutual

/-- One pass over a tree comes to the same as the two passes. -/
theorem transform_eq_ok_iff (h : both.Fuses first second) (node : Node) {out : Node} :
    node.transform both = .ok out ↔
      ∃ found, node.transform first = .ok found ∧ found.transform second = .ok out := by
  cases node with
  | int | float | operator | term | param => exact h.leaf _ out rfl
  | paramList params =>
      simp only [Node.transform_paramList_eq_ok_iff, h.params]
      constructor
      · rintro ⟨list, ⟨middle, hfirst, hsecond⟩, rfl⟩
        exact ⟨_, ⟨middle, hfirst, rfl⟩,
          Node.transform_paramList_eq_ok_iff.2 ⟨list, hsecond, rfl⟩⟩
      · rintro ⟨_, ⟨middle, hfirst, rfl⟩, hout⟩
        obtain ⟨list, hsecond, rfl⟩ := Node.transform_paramList_eq_ok_iff.1 hout
        exact ⟨list, ⟨middle, hfirst, hsecond⟩, rfl⟩
  | call line head args =>
      have hkept : ∀ found, first.apply (.call line head found) = .ok (.call line head found) :=
        fun found => (h.form _ rfl).1
      have hboth : ∀ found,
          both.apply (.call line head found) = second.apply (.call line head found) :=
        fun found => (h.form _ rfl).2
      simp only [Node.transform_call_eq_ok_iff, hboth, hkept, Except.ok.injEq]
      constructor
      · rintro ⟨found, hfound, hout⟩
        obtain ⟨middle, hfirst, hsecond⟩ := (h.transformAll_eq_ok_iff args).1 hfound
        exact ⟨_, ⟨middle, hfirst, rfl⟩,
          Node.transform_call_eq_ok_iff.2 ⟨found, hsecond, hout⟩⟩
      · rintro ⟨_, ⟨middle, hfirst, rfl⟩, hcall⟩
        obtain ⟨found, hsecond, hout⟩ := Node.transform_call_eq_ok_iff.1 hcall
        exact ⟨found, (h.transformAll_eq_ok_iff args).2 ⟨middle, hfirst, hsecond⟩, hout⟩
  | definition line name params body =>
      have hkept : ∀ list found, first.apply (.definition line name list found)
          = .ok (.definition line name list found) :=
        fun list found => (h.form _ rfl).1
      have hboth : ∀ list found, both.apply (.definition line name list found)
          = second.apply (.definition line name list found) :=
        fun list found => (h.form _ rfl).2
      simp only [Node.transform_definition_eq_ok_iff, hboth, hkept, Except.ok.injEq]
      constructor
      · rintro ⟨list, found, hlist, hfound, hout⟩
        obtain ⟨list', hlist', hlist⟩ := (h.params _ _).1 hlist
        obtain ⟨middle, hfirst, hsecond⟩ := (h.transformAll_eq_ok_iff body).1 hfound
        exact ⟨_, ⟨list', middle, hlist', hfirst, rfl⟩,
          Node.transform_definition_eq_ok_iff.2 ⟨list, found, hlist, hsecond, hout⟩⟩
      · rintro ⟨_, ⟨list', middle, hlist', hfirst, rfl⟩, hdefinition⟩
        obtain ⟨list, found, hlist, hsecond, hout⟩ :=
          Node.transform_definition_eq_ok_iff.1 hdefinition
        exact ⟨list, found, (h.params _ _).2 ⟨list', hlist', hlist⟩,
          (h.transformAll_eq_ok_iff body).2 ⟨middle, hfirst, hsecond⟩, hout⟩

theorem transformAll_eq_ok_iff (h : both.Fuses first second) (nodes : List Node)
    {out : List Node} :
    Node.transformAll both nodes = .ok out ↔
      ∃ found, Node.transformAll first nodes = .ok found
        ∧ Node.transformAll second found = .ok out := by
  cases nodes with
  | nil => simp [Node.transformAll, pure, Except.pure]
  | cons node rest =>
      simp only [Node.transformAll_cons_eq_ok_iff, h.transform_eq_ok_iff node,
        h.transformAll_eq_ok_iff rest]
      constructor
      · rintro ⟨_, _, ⟨found, hfound, hnode⟩, ⟨more, hmore, hrest⟩, rfl⟩
        exact ⟨_, ⟨found, more, hfound, hmore, rfl⟩,
          Node.transformAll_cons_eq_ok_iff.2 ⟨_, _, hnode, hrest, rfl⟩⟩
      · rintro ⟨_, ⟨found, more, hfound, hmore, rfl⟩, hall⟩
        obtain ⟨node', rest', hnode, hrest, rfl⟩ := Node.transformAll_cons_eq_ok_iff.1 hall
        exact ⟨node', rest', ⟨found, hfound, hnode⟩, ⟨more, hmore, hrest⟩, rfl⟩

end

end Handlers.Fuses

/-! ## Sets side by side -/

/-- The handlers of both sets. The second one is added to the first, so it wins where both have a
    handler. -/
def Handlers.beside {m : Type → Type} (first second : Handlers m) : Handlers m :=
  ⟨fun kind => (second.handler? kind).or (first.handler? kind)⟩

/-- What the handlers make of the nodes they are given is plain. -/
def Handlers.YieldsPlain (handlers : Handlers Fallible) : Prop :=
  ∀ node handler found, handlers.handler? node.kind = some handler → handler node = .ok found →
    found.isPlain = true

variable {leaves forms : Handlers Fallible}

theorem Handlers.YieldsPlain.isPlain_of_apply (h : leaves.YieldsPlain) {node found : Node}
    (hnode : node.isPlain = true) (hfound : leaves.apply node = .ok found) :
    found.isPlain = true := by
  rcases Handlers.apply_cases hfound with rfl | ⟨handler, hhandler, hfound⟩
  · exact hnode
  · exact h node handler found hhandler hfound

/-! ## Which handler is used -/

theorem apply_beside_plain (hforms : forms.OnForms) {node : Node} (hnode : node.isPlain = true) :
    (leaves.beside forms).apply node = leaves.apply node := by
  have hnone := hforms _ (node.isPlain_kind.trans hnode)
  simp only [Handlers.apply, Handlers.beside, hnone, Option.none_or]

theorem apply_beside_form (hleaves : leaves.OnPlain) {node : Node} (hnode : node.isPlain = false) :
    (leaves.beside forms).apply node = forms.apply node := by
  have hnone := hleaves _ (node.isPlain_kind.trans hnode)
  simp only [Handlers.apply, Handlers.beside, hnone, Option.or_none]

theorem transformAll_params_beside (hforms : forms.OnForms) (entries : List Param) :
    Param.transformAll (leaves.beside forms) entries = Param.transformAll leaves entries := by
  induction entries with
  | nil => rfl
  | cons entry rest ih =>
      rw [Param.transformAll, Param.transformAll, apply_beside_plain hforms rfl, ih]

theorem transform_params_beside (hforms : forms.OnForms) (params : ParamList) :
    params.transform (leaves.beside forms) = params.transform leaves := by
  have happly : ∀ entries, (leaves.beside forms).apply (.paramList ⟨params.line, entries⟩)
      = leaves.apply (.paramList ⟨params.line, entries⟩) :=
    fun entries => apply_beside_plain hforms rfl
  simp only [ParamList.transform, transformAll_params_beside hforms, happly]

/-- A pass with both sets does in one go what a pass with each does: the second pass leaves what the
    first one makes of a leaf or a parameter list. -/
theorem beside_fuses (hleaves : leaves.OnPlain) (hforms : forms.OnForms)
    (hyields : leaves.YieldsPlain) : (leaves.beside forms).Fuses leaves forms where
  leaf node out hleaf := by
    have hnode : node.isPlain = true := node.isPlain_kind.symm.trans (Kind.isPlain_of_isLeaf hleaf)
    rw [Node.transform_leaf hleaf, Node.transform_leaf hleaf, apply_beside_plain hforms hnode]
    constructor
    · intro hout
      exact ⟨out, hout, hforms.transform_plain (hyields.isPlain_of_apply hnode hout)⟩
    · rintro ⟨found, hfound, hout⟩
      rw [hforms.transform_plain (hyields.isPlain_of_apply hnode hfound)] at hout
      rw [hfound, hout]
  params params out := by
    simp only [transform_params_beside hforms, hforms.transform_params, Except.ok.injEq,
      exists_eq_right]
  form _ hnode := ⟨hleaves.apply_form hnode, apply_beside_form hleaves hnode⟩

/-- Expansion beside other handlers is their set with expansion added. -/
theorem beside_definitionHandlers (leaves : Handlers Fallible) :
    leaves.beside definitionHandlers = leaves.on .call Node.expandDefinition := by
  rw [Handlers.beside, Handlers.on, definitionHandlers]
  congr 1
  funext kind
  by_cases hkind : kind = .call
  · simp [hkind, Handlers.on]
  · simp [hkind, Handlers.on, Handlers.empty]

/-- A pass with handlers for plain nodes, which make plain nodes of them, and any handlers for calls and
    definitions succeeds with what a pass with the former and then a pass with the latter yield, and
    only if both succeed. So expansion can be added to such a set instead of being run behind it. -/
theorem transformAll_beside (hleaves : leaves.OnPlain) (hyields : leaves.YieldsPlain)
    (hforms : forms.OnForms) (nodes out : List Node) :
    (Node.transformAll (leaves.beside forms) nodes = .ok out ↔
        ∃ found, Node.transformAll leaves nodes = .ok found
          ∧ Node.transformAll forms found = .ok out)
      ∧ (Node.transformAll (leaves.on .call Node.expandDefinition) nodes = .ok out ↔
        ∃ found, Node.transformAll leaves nodes = .ok found
          ∧ expandDefinitions found = .ok out) := by
  refine ⟨(beside_fuses hleaves hforms hyields).transformAll_eq_ok_iff nodes, ?_⟩
  rw [← beside_definitionHandlers]
  exact (beside_fuses hleaves definitionHandlers_onForms hyields).transformAll_eq_ok_iff nodes

/-- Every integer becomes the name `f`. -/
def namedIntegers : Handlers Fallible :=
  Handlers.empty.on .int fun node => .ok (.term ⟨node.line, "f"⟩)

/-- A call that becomes a definition only because its first argument has become a name. -/
theorem transformAll_beside_of_named :
    Node.transformAll (namedIntegers.beside definitionHandlers)
        [.call 1 (.term ⟨1, "def"⟩) [.int ⟨2, "5"⟩, .paramList ⟨3, []⟩, .int ⟨4, "6"⟩]]
        = .ok [.definition 1 ⟨2, "f"⟩ ⟨3, []⟩ [.term ⟨4, "f"⟩]]
      ∧ Node.transformAll (namedIntegers.on .call Node.expandDefinition)
        [.call 1 (.term ⟨1, "def"⟩) [.int ⟨2, "5"⟩, .paramList ⟨3, []⟩, .int ⟨4, "6"⟩]]
        = .ok [.definition 1 ⟨2, "f"⟩ ⟨3, []⟩ [.term ⟨4, "f"⟩]] := by
  have hleaves : namedIntegers.OnPlain := by
    intro kind hkind
    cases kind with
    | call | definition => rfl
    | _ => simp [Kind.isPlain] at hkind
  have hyields : namedIntegers.YieldsPlain := by
    intro node handler found hhandler hfound
    cases node with
    | int =>
        obtain rfl := Option.some.inj hhandler
        obtain rfl := Except.ok.inj hfound
        rfl
    | _ => simp [namedIntegers, Handlers.on, Handlers.empty, Node.kind] at hhandler
  have hfused := transformAll_beside hleaves hyields definitionHandlers_onForms
    [.call 1 (.term ⟨1, "def"⟩) [.int ⟨2, "5"⟩, .paramList ⟨3, []⟩, .int ⟨4, "6"⟩]]
    [.definition 1 ⟨2, "f"⟩ ⟨3, []⟩ [.term ⟨4, "f"⟩]]
  exact ⟨hfused.1.2 ⟨_, rfl, rfl⟩, hfused.2.2 ⟨_, rfl, rfl⟩⟩

end DefForms
