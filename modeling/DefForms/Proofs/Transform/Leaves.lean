import DefForms.Proofs.Transform.Fusion
import DefForms.Transform.Edit

set_option autoImplicit false

/-! # Passes over leaves

Leaves hold no other nodes that a pass visits; the entries of parameter lists are among them. A pass
that has handlers for leaves only, and makes of each leaf one of the same kind, leaves the shape of the
trees as it is. A second pass of this sort then comes to the same places and to nodes of the same
kinds, so the two can be fused: one pass does to each leaf what the first one does and then what the
second one does. If no kind has a handler in both sets, then no leaf is changed twice, and the two
passes can be run in either order (`transformAll_followedBy`).

Which failure is reported may differ: the first pass comes to all leaves before the second one comes to
any. -/

namespace DefForms

namespace Handlers

/-- Only leaves have a handler. -/
def OnLeaves (handlers : Handlers Fallible) : Prop :=
  ∀ kind, kind.isLeaf = false → handlers.handler? kind = none

/-- What a handler makes of a node of its kind is of this kind, too. -/
def KeepsKind (handlers : Handlers Fallible) : Prop :=
  ∀ node handler found, handlers.handler? node.kind = some handler → handler node = .ok found →
    found.kind = node.kind

/-- For each kind, the handler of the first set and then that of the second one. -/
def followedBy (first second : Handlers Fallible) : Handlers Fallible :=
  ⟨fun kind =>
    match first.handler? kind, second.handler? kind with
    | some handler, some next => some fun node => handler node >>= next
    | some handler, none => some handler
    | none, next => next⟩

variable {handlers first second : Handlers Fallible}

/-! ## Single nodes -/

theorem OnLeaves.apply_other (h : handlers.OnLeaves) {node : Node}
    (hnode : node.kind.isLeaf = false) : handlers.apply node = .ok node :=
  apply_of_none (h _ hnode)

theorem KeepsKind.kind_of_apply (h : handlers.KeepsKind) {node found : Node}
    (hfound : handlers.apply node = .ok found) : found.kind = node.kind := by
  rcases apply_cases hfound with rfl | ⟨handler, hhandler, hfound⟩
  · rfl
  · exact h node handler found hhandler hfound

/-- What the first set makes of a node is given to the handler for the kind of the node. -/
theorem KeepsKind.apply_followedBy (h : first.KeepsKind) {node out : Node} :
    (first.followedBy second).apply node = .ok out ↔
      ∃ found, first.apply node = .ok found ∧ second.apply found = .ok out := by
  cases hfirst : first.handler? node.kind with
  | none =>
      have hsame : (first.followedBy second).handler? node.kind = second.handler? node.kind := by
        simp only [followedBy, hfirst]
      rw [apply, hsame, ← apply, apply_of_none hfirst]
      simp
  | some handler =>
      rw [apply_of_some hfirst]
      -- the second set sees a node of the same kind, whatever it is
      have hkind : ∀ found, handler node = .ok found → found.kind = node.kind :=
        fun found hfound => h node handler found hfirst hfound
      cases hsecond : second.handler? node.kind with
      | none =>
          have hboth : (first.followedBy second).handler? node.kind = some handler := by
            simp only [followedBy, hfirst, hsecond]
          rw [apply_of_some hboth]
          constructor
          · intro hout
            exact ⟨out, hout, apply_of_none (hkind out hout ▸ hsecond)⟩
          · rintro ⟨found, hfound, hout⟩
            rw [apply_of_none (hkind found hfound ▸ hsecond)] at hout
            rw [hfound, hout]
      | some next =>
          have hboth : (first.followedBy second).handler? node.kind
              = some fun node => handler node >>= next := by
            simp only [followedBy, hfirst, hsecond]
          rw [apply_of_some hboth, bind_eq_ok_iff]
          refine exists_congr fun found => and_congr_right fun hfound => ?_
          rw [apply_of_some (hkind found hfound ▸ hsecond)]

end Handlers

/-! ## Parameter lists -/

section Params

variable {handlers first second : Handlers Fallible}

theorem Handlers.KeepsKind.param_of_apply (h : handlers.KeepsKind) {entry : Param} {found : Node}
    (hfound : handlers.apply (.param entry) = .ok found) : ∃ other, found = .param other := by
  have hkind : found.kind = .param := h.kind_of_apply hfound
  cases found with
  | param other => exact ⟨other, rfl⟩
  | _ => simp [Node.kind] at hkind

theorem transformAll_params_followedBy (h : first.KeepsKind) {entries out : List Param} :
    Param.transformAll (first.followedBy second) entries = .ok out ↔
      ∃ found, Param.transformAll first entries = .ok found
        ∧ Param.transformAll second found = .ok out := by
  induction entries generalizing out with
  | nil => simp [Param.transformAll, pure, Except.pure]
  | cons entry rest ih =>
      simp only [Param.transformAll_cons_eq_ok_iff, h.apply_followedBy, ih]
      constructor
      · rintro ⟨last, more, ⟨node, hnode, hlast⟩, ⟨middle, hmiddle, hmore⟩, rfl⟩
        obtain ⟨found, rfl⟩ := h.param_of_apply hnode
        exact ⟨_, ⟨found, middle, hnode, hmiddle, rfl⟩,
          Param.transformAll_cons_eq_ok_iff.2 ⟨last, more, hlast, hmore, rfl⟩⟩
      · rintro ⟨_, ⟨found, middle, hfound, hmiddle, rfl⟩, hall⟩
        obtain ⟨last, more, hlast, hmore, rfl⟩ := Param.transformAll_cons_eq_ok_iff.1 hall
        exact ⟨last, more, ⟨_, hfound, hlast⟩, ⟨middle, hmiddle, hmore⟩, rfl⟩

theorem Handlers.OnLeaves.transform_params (h : handlers.OnLeaves) {params out : ParamList} :
    params.transform handlers = .ok out ↔
      ∃ entries, Param.transformAll handlers params.entries = .ok entries
        ∧ out = ⟨params.line, entries⟩ := by
  have hlist : ∀ list, handlers.apply (.paramList list) = .ok (.paramList list) :=
    fun list => h.apply_other rfl
  simp only [ParamList.transform_eq_ok_iff, hlist, Except.ok.injEq, Node.paramList.injEq,
    eq_comm (a := out)]

end Params

/-! ## Trees -/

variable {first second : Handlers Fallible}

theorem Handlers.OnLeaves.followedBy (hfirst : first.OnLeaves) (hsecond : second.OnLeaves) :
    (first.followedBy second).OnLeaves := by
  intro kind hkind
  simp only [Handlers.followedBy, hfirst kind hkind, hsecond kind hkind]

theorem followedBy_fuses (hfirst : first.OnLeaves) (hsecond : second.OnLeaves)
    (hkeeps : first.KeepsKind) : (first.followedBy second).Fuses first second where
  leaf node out hleaf := by
    rw [Node.transform_leaf hleaf, Node.transform_leaf hleaf, hkeeps.apply_followedBy]
    refine exists_congr fun found => and_congr_right fun hfound => ?_
    rw [Node.transform_leaf (hkeeps.kind_of_apply hfound ▸ hleaf)]
  params params out := by
    simp only [(hfirst.followedBy hsecond).transform_params, hfirst.transform_params,
      hsecond.transform_params, transformAll_params_followedBy hkeeps]
    constructor
    · intro h
      obtain ⟨entries, ⟨middle, hmiddle, hentries⟩, rfl⟩ := h
      exact ⟨_, ⟨middle, hmiddle, rfl⟩, entries, hentries, rfl⟩
    · intro h
      obtain ⟨_, ⟨middle, hmiddle, rfl⟩, entries, hentries, rfl⟩ := h
      exact ⟨entries, ⟨middle, hmiddle, hentries⟩, rfl⟩
  form node hnode := by
    have hother : node.kind.isLeaf = false := by
      cases node with
      | call | definition => rfl
      | int | float | operator | term | param | paramList => simp [Node.isPlain] at hnode
    exact ⟨hfirst.apply_other hother,
      ((hfirst.followedBy hsecond).apply_other hother).trans (hsecond.apply_other hother).symm⟩

/-- The order does not matter where there is only one handler for each kind. -/
theorem followedBy_comm
    (h : ∀ kind, first.handler? kind = none ∨ second.handler? kind = none) :
    first.followedBy second = second.followedBy first := by
  have hkinds : (first.followedBy second).handler? = (second.followedBy first).handler? := by
    funext kind
    rcases h kind with hnone | hnone
    · cases hsecond : second.handler? kind <;> simp [Handlers.followedBy, hnone, hsecond]
    · cases hfirst : first.handler? kind <;> simp [Handlers.followedBy, hnone, hfirst]
  exact congrArg Handlers.mk hkinds

/-- Two passes with handlers for leaves, which make of each leaf one of its kind, succeed if and only if
    one pass does that handles every leaf with both, and then they yield the same trees. If no kind has
    a handler in both sets, the two passes can change places. -/
theorem transformAll_followedBy (hfirst : first.OnLeaves) (hsecond : second.OnLeaves)
    (hfirstKeeps : first.KeepsKind) (hsecondKeeps : second.KeepsKind) (nodes out : List Node) :
    (Node.transformAll (first.followedBy second) nodes = .ok out ↔
        ∃ found, Node.transformAll first nodes = .ok found
          ∧ Node.transformAll second found = .ok out)
      ∧ ((∀ kind, first.handler? kind = none ∨ second.handler? kind = none) →
        ((∃ found, Node.transformAll first nodes = .ok found
            ∧ Node.transformAll second found = .ok out) ↔
          ∃ found, Node.transformAll second nodes = .ok found
            ∧ Node.transformAll first found = .ok out)) := by
  have hfused : Node.transformAll (first.followedBy second) nodes = .ok out ↔ _ :=
    (followedBy_fuses hfirst hsecond hfirstKeeps).transformAll_eq_ok_iff nodes
  refine ⟨hfused, ?_⟩
  intro hdisjoint
  rw [← hfused, followedBy_comm hdisjoint]
  exact (followedBy_fuses hsecond hfirst hsecondKeeps).transformAll_eq_ok_iff nodes

/-- A text is added to every node of the kind. -/
def suffixing (kind : Kind) (text : String) : Handlers Fallible :=
  Handlers.empty.on kind fun node => .ok (node.suffix text)

theorem suffixing_onLeaves {kind : Kind} (text : String) (h : kind.isLeaf = true) :
    (suffixing kind text).OnLeaves := by
  intro other hother
  have hne : other ≠ kind := by
    intro heq
    rw [heq, h] at hother
    simp at hother
  rw [suffixing, Handlers.handler?_on_other _ _ hne]
  rfl

theorem suffixing_keepsKind (kind : Kind) (text : String) : (suffixing kind text).KeepsKind := by
  intro node handler found hhandler hfound
  by_cases hkind : node.kind = kind
  · rw [suffixing, hkind, Handlers.handler?_on_self] at hhandler
    obtain rfl := Option.some.inj hhandler
    obtain rfl := Except.ok.inj hfound
    cases node <;> rfl
  · rw [suffixing, Handlers.handler?_on_other _ _ hkind] at hhandler
    simp [Handlers.empty] at hhandler

/-- An argument, an entry and the body of a definition, changed twice or by two passes in turn. -/
theorem transformAll_followedBy_of_suffixed :
    Node.transformAll ((suffixing .int "0").followedBy (suffixing .int "1"))
        [.call 1 (.term ⟨1, "f"⟩) [.int ⟨1, "7"⟩]]
        = .ok [.call 1 (.term ⟨1, "f"⟩) [.int ⟨1, "701"⟩]]
      ∧ ∃ found, Node.transformAll (suffixing .param "s")
          [.definition 1 ⟨1, "f"⟩ ⟨1, [⟨1, ⟨1, "x"⟩, ⟨1, "T"⟩⟩]⟩ [.int ⟨2, "7"⟩]] = .ok found
        ∧ Node.transformAll (suffixing .int "0") found
          = .ok [.definition 1 ⟨1, "f"⟩ ⟨1, [⟨1, ⟨1, "xs"⟩, ⟨1, "T"⟩⟩]⟩ [.int ⟨2, "70"⟩]] := by
  have hfused := transformAll_followedBy (suffixing_onLeaves "0" rfl) (suffixing_onLeaves "1" rfl)
    (suffixing_keepsKind .int "0") (suffixing_keepsKind .int "1")
    [.call 1 (.term ⟨1, "f"⟩) [.int ⟨1, "7"⟩]] [.call 1 (.term ⟨1, "f"⟩) [.int ⟨1, "701"⟩]]
  have hswapped := transformAll_followedBy (suffixing_onLeaves "0" rfl) (suffixing_onLeaves "s" rfl)
    (suffixing_keepsKind .int "0") (suffixing_keepsKind .param "s")
    [.definition 1 ⟨1, "f"⟩ ⟨1, [⟨1, ⟨1, "x"⟩, ⟨1, "T"⟩⟩]⟩ [.int ⟨2, "7"⟩]]
    [.definition 1 ⟨1, "f"⟩ ⟨1, [⟨1, ⟨1, "xs"⟩, ⟨1, "T"⟩⟩]⟩ [.int ⟨2, "70"⟩]]
  have hdisjoint : ∀ kind, (suffixing .int "0").handler? kind = none
      ∨ (suffixing .param "s").handler? kind = none := by
    intro kind
    cases kind with
    | int => exact .inr rfl
    | _ => exact .inl rfl
  exact ⟨hfused.1.2 ⟨_, rfl, rfl⟩, (hswapped.2 hdisjoint).1 ⟨_, rfl, rfl⟩⟩

end DefForms
