import Mathlib.Data.List.Forall2
import DefForms.Proofs.Node.Postorder
import DefForms.Proofs.Transform.Success

set_option autoImplicit false

/-! # The positions that a pass visits

A pass is a walk over the trees it is given, but what it does can be said without a tree. The positions
of the trees stand in a row, in post-order (`Node.positionsAll`), and the pass goes along this row once.
At each position it takes the results of the positions right below, puts the node of the position
together again around them, and gives it to the handler of its kind. `Pass` describes this row of steps
with the log of the nodes that handlers were given and the outcome, and says where it stops.

Positions are those of the trees that went in. What a handler returns only ever becomes a result. -/

namespace DefForms

/-! ## Positions -/

/-- A place in a tree that a pass visits, with what stands there before the pass. -/
inductive Position where
  /-- Any node can take this place. -/
  | free (node : Node)
  /-- Only an entry can: the place is in a parameter list. -/
  | entry (param : Param)
  /-- Only a parameter list can. -/
  | list (params : ParamList)

/-- The node that stands at a position before the pass. -/
def Position.original : Position → Node
  | .free node => node
  | .entry param => .param param
  | .list params => .paramList params

/-- The positions of a parameter list: those of its entries, then its own. -/
def ParamList.positions (params : ParamList) : List Position :=
  params.entries.map Position.entry ++ [.list params]

mutual

/-- The positions of a tree, what a node holds before the node. Heads, names of definitions and the
    terms of entries have no position. -/
def Node.positions : Node → List Position
  | .int numeral => [.free (.int numeral)]
  | .float numeral => [.free (.float numeral)]
  | .operator op => [.free (.operator op)]
  | .term name => [.free (.term name)]
  | .call line head args => Node.positionsAll args ++ [.free (.call line head args)]
  | .param entry => [.free (.param entry)]
  | .paramList params => params.positions
  | .definition line name params body =>
      params.positions ++ (Node.positionsAll body ++ [.free (.definition line name params body)])

/-- The positions of several trees, one tree after the other. -/
def Node.positionsAll : List Node → List Position
  | [] => []
  | node :: rest => node.positions ++ Node.positionsAll rest

end

theorem ParamList.map_original_positions (params : ParamList) :
    params.positions.map Position.original = params.postorder := by
  rw [ParamList.positions, List.map_append, List.map_map]
  rfl

mutual

theorem Node.map_original_positions (node : Node) :
    node.positions.map Position.original = node.postorder := by
  cases node with
  | int | float | operator | term | param => rfl
  | paramList params => exact params.map_original_positions
  | call line head args =>
      rw [Node.positions, List.map_append, Node.map_original_positionsAll args, Node.postorder]
      rfl
  | definition line name params body =>
      rw [Node.positions, List.map_append, List.map_append, params.map_original_positions,
        Node.map_original_positionsAll body, Node.postorder]
      rfl

/-- The nodes at the positions of some trees are the nodes of these trees in post-order. -/
theorem Node.map_original_positionsAll (nodes : List Node) :
    (Node.positionsAll nodes).map Position.original = Node.postorderAll nodes := by
  cases nodes with
  | nil => rfl
  | cons node rest =>
      rw [Node.positionsAll, List.map_append, Node.map_original_positions node,
        Node.map_original_positionsAll rest, Node.postorderAll]

end

/-! ## Nodes put together again -/

/-- The node holds no nodes. -/
def Node.isLeaf : Node → Bool
  | .int _ | .float _ | .operator _ | .term _ | .param _ => true
  | .call _ _ _ | .paramList _ | .definition _ _ _ _ => false

/-- `position.Rebuilds results node` says that `node` is the node of the position with `results`, one
    for each position right below, in the places of what it held. -/
inductive Position.Rebuilds : Position → List Node → Node → Prop where
  | leaf {node : Node} (hleaf : node.isLeaf = true) : Rebuilds (.free node) [] node
  | entry (param : Param) : Rebuilds (.entry param) [] (.param param)
  | list {line : Nat} {entries found : List Param} (hlength : found.length = entries.length) :
      Rebuilds (.list ⟨line, entries⟩) (found.map Node.param) (.paramList ⟨line, found⟩)
  | call {line : Nat} {head : Head} {args found : List Node}
      (hlength : found.length = args.length) :
      Rebuilds (.free (.call line head args)) found (.call line head found)
  | definition {line : Nat} {name : Term} {params list : ParamList} {body found : List Node}
      (hlength : found.length = body.length) :
      Rebuilds (.free (.definition line name params body)) (.paramList list :: found)
        (.definition line name list found)

/-- A node without what it holds: its kind, its line, and its head or name. -/
def Node.shell : Node → Node
  | .call line head _ => .call line head []
  | .paramList params => .paramList ⟨params.line, []⟩
  | .definition line name _ _ => .definition line name ⟨line, []⟩ []
  | node => node

/-- The number of positions right below a position. -/
def Position.arity : Position → Nat
  | .free (.call _ _ args) => args.length
  | .free (.definition _ _ _ body) => body.length + 1
  | .list params => params.entries.length
  | _ => 0

namespace Position.Rebuilds

variable {position : Position} {results results' : List Node} {node node' : Node}

theorem shell_eq (h : position.Rebuilds results node) : node.shell = position.original.shell := by
  cases h <;> rfl

theorem kind_eq (h : position.Rebuilds results node) : node.kind = position.original.kind := by
  cases h <;> rfl

theorem length_eq (h : position.Rebuilds results node) : results.length = position.arity := by
  cases h with
  | @leaf node hleaf =>
      cases node with
      | int | float | operator | term | param => rfl
      | call | paramList | definition => simp [Node.isLeaf] at hleaf
  | entry => rfl
  | list hlength => rw [List.length_map, hlength, arity]
  | call hlength => exact hlength
  | definition hlength => rw [List.length_cons, hlength, arity]

/-- What a node becomes depends on the results only. -/
theorem unique (h : position.Rebuilds results node) (h' : position.Rebuilds results node') :
    node = node' := by
  cases h with
  | leaf hleaf =>
      cases h' with
      | leaf => rfl
      | call => simp [Node.isLeaf] at hleaf
  | entry => cases h'; rfl
  | @list line entries found =>
      generalize hfound : found.map Node.param = results at h'
      cases h' with
      | list =>
          rw [(List.map_inj_right fun a b => Node.param.inj).1 hfound]
  | call =>
      cases h' with
      | leaf hleaf => simp [Node.isLeaf] at hleaf
      | call => rfl
  | definition => cases h'; rfl

/-- The same for results that stand behind others. -/
theorem unique_append {before before' : List Node} (h : position.Rebuilds results node)
    (h' : position.Rebuilds results' node') (heq : before ++ results = before' ++ results') :
    before = before' ∧ node = node' := by
  obtain ⟨rfl, rfl⟩ := List.append_inj' heq (h.length_eq.trans h'.length_eq.symm)
  exact ⟨rfl, h.unique h'⟩

end Position.Rebuilds

/-! ## The row of steps -/

/-- What is reported if the node cannot take the place of the position. -/
def Position.refusal? : Position → Node → Option Diagnostic
  | .free _, _ => none
  | .entry param, found =>
      if found.kind = .param then none else some (.notParam param.line found.kind)
  | .list params, found =>
      if found.kind = .paramList then none else some (.notParamList params.line found.kind)

/-- What comes of it when the node of a position is given to a handler: the handler can fail, and what
    it returns can be refused. -/
def Position.visit (position : Position) (handler : Handler Fallible) (node : Node) : Fallible Node :=
  match handler node with
  | .error diagnostic => .error diagnostic
  | .ok found =>
    match position.refusal? found with
    | none => .ok found
    | some diagnostic => .error diagnostic

section Visit

variable {position : Position} {handler : Handler Fallible} {node found : Node}
  {diagnostic : Diagnostic}

theorem Position.visit_of_fits (hfound : handler node = .ok found)
    (hfits : position.refusal? found = none) : position.visit handler node = .ok found := by
  simp only [visit, hfound, hfits]

theorem Position.visit_of_refuses (hfound : handler node = .ok found)
    (hrefuses : position.refusal? found = some diagnostic) :
    position.visit handler node = .error diagnostic := by
  simp only [visit, hfound, hrefuses]

theorem Position.visit_of_error (hfound : handler node = .error diagnostic) :
    position.visit handler node = .error diagnostic := by
  simp only [visit, hfound]

theorem Position.Rebuilds.fits {results : List Node} (h : position.Rebuilds results node) :
    position.refusal? node = none := by
  cases h <;> rfl

end Visit

/-- A pass over the positions that are left, with the results that are still to be taken by positions
    further on. It yields the nodes that are given to handlers and the outcome. -/
inductive Pass (handler? : Kind → Option (Handler Fallible)) :
    List Position → List Node → List Node → Fallible (List Node) → Prop where
  /-- No position is left. -/
  | done (results : List Node) : Pass handler? [] results [] (.ok results)
  /-- The kind has no handler: the node is its own result. -/
  | skip {position : Position} {more : List Position} {before results log : List Node} {node : Node}
      {out : Fallible (List Node)} (hnode : position.Rebuilds results node)
      (hhandler : handler? node.kind = none) (hmore : Pass handler? more (before ++ [node]) log out) :
      Pass handler? (position :: more) (before ++ results) log out
  /-- The handler returns a node that can take the place. -/
  | handle {position : Position} {more : List Position} {before results log : List Node}
      {node found : Node} {handler : Handler Fallible} {out : Fallible (List Node)}
      (hnode : position.Rebuilds results node) (hhandler : handler? node.kind = some handler)
      (hvisit : position.visit handler node = .ok found)
      (hmore : Pass handler? more (before ++ [found]) log out) :
      Pass handler? (position :: more) (before ++ results) (node :: log) out
  /-- The handler fails, or what it returns is refused. -/
  | stop {position : Position} {more : List Position} {before results : List Node} {node : Node}
      {handler : Handler Fallible} {diagnostic : Diagnostic}
      (hnode : position.Rebuilds results node) (hhandler : handler? node.kind = some handler)
      (hvisit : position.visit handler node = .error diagnostic) :
      Pass handler? (position :: more) (before ++ results) [node] (.error diagnostic)

/-! ## One log and one outcome -/

section Unique

variable {handler? : Kind → Option (Handler Fallible)} {positions more : List Position}
  {position : Position} {before taken results log log' : List Node} {node : Node}
  {out out' : Fallible (List Node)}

/-- The node at the first position is known, so what happens there depends on its handler alone. -/
theorem Pass.cons_cases (hnode : position.Rebuilds taken node)
    (h : Pass handler? (position :: more) (before ++ taken) log out) :
    (handler? node.kind = none ∧ Pass handler? more (before ++ [node]) log out)
      ∨ ∃ handler, handler? node.kind = some handler
        ∧ ((∃ found later, position.visit handler node = .ok found
            ∧ log = node :: later ∧ Pass handler? more (before ++ [found]) later out)
          ∨ ∃ diagnostic, position.visit handler node = .error diagnostic
            ∧ log = [node] ∧ out = .error diagnostic) := by
  generalize hresults : before ++ taken = results at h
  cases h with
  | skip hnode' hhandler hmore =>
      obtain ⟨rfl, rfl⟩ := hnode.unique_append hnode' hresults
      exact .inl ⟨hhandler, hmore⟩
  | handle hnode' hhandler hvisit hmore =>
      obtain ⟨rfl, rfl⟩ := hnode.unique_append hnode' hresults
      exact .inr ⟨_, hhandler, .inl ⟨_, _, hvisit, rfl, hmore⟩⟩
  | stop hnode' hhandler hvisit =>
      obtain ⟨rfl, rfl⟩ := hnode.unique_append hnode' hresults
      exact .inr ⟨_, hhandler, .inr ⟨_, hvisit, rfl, rfl⟩⟩

theorem Pass.unique (h : Pass handler? positions results log out)
    (h' : Pass handler? positions results log' out') : log = log' ∧ out = out' := by
  induction h generalizing log' out' with
  | done results =>
      cases h'
      exact ⟨rfl, rfl⟩
  | skip hnode hhandler _ ih =>
      rcases h'.cons_cases hnode with ⟨-, hmore'⟩ | ⟨handler', hhandler', -⟩
      · exact ih hmore'
      · simp [hhandler] at hhandler'
  | handle hnode hhandler hvisit _ ih =>
      rcases h'.cons_cases hnode with ⟨hnone, -⟩ | ⟨handler', hhandler', hcases⟩
      · simp [hhandler] at hnone
      · obtain rfl := Option.some.inj (hhandler.symm.trans hhandler')
        rcases hcases with ⟨found', later, hvisit', rfl, hmore'⟩ | ⟨diagnostic, hvisit', -⟩
        · obtain rfl := Except.ok.inj (hvisit.symm.trans hvisit')
          obtain ⟨rfl, rfl⟩ := ih hmore'
          exact ⟨rfl, rfl⟩
        · simp [hvisit] at hvisit'
  | stop hnode hhandler hvisit =>
      rcases h'.cons_cases hnode with ⟨hnone, -⟩ | ⟨handler', hhandler', hcases⟩
      · simp [hhandler] at hnone
      · obtain rfl := Option.some.inj (hhandler.symm.trans hhandler')
        rcases hcases with ⟨found', later, hvisit', -⟩ | ⟨diagnostic', hvisit', rfl, rfl⟩
        · simp [hvisit] at hvisit'
        · obtain rfl := Except.error.inj (hvisit.symm.trans hvisit')
          exact ⟨rfl, rfl⟩

end Unique

/-! ## What the log shows -/

section Handled

variable {handler? : Kind → Option (Handler Fallible)} {position : Position}

/-- The positions whose kind has a handler. -/
def handledPositions (handler? : Kind → Option (Handler Fallible)) (positions : List Position) :
    List Position :=
  positions.filter fun position => (handler? position.original.kind).isSome

theorem handledPositions_cons_of_none (h : handler? position.original.kind = none)
    (more : List Position) :
    handledPositions handler? (position :: more) = handledPositions handler? more := by
  rw [handledPositions, List.filter_cons_of_neg (by simp [h]), handledPositions]

theorem handledPositions_cons_of_some {handler : Handler Fallible}
    (h : handler? position.original.kind = some handler) (more : List Position) :
    handledPositions handler? (position :: more) = position :: handledPositions handler? more := by
  rw [handledPositions, List.filter_cons_of_pos (by simp [h]), handledPositions]

/-- The node is that of the position, up to what it holds, and this comes of giving it to the handler of
    its kind. -/
def Position.Yields (handler? : Kind → Option (Handler Fallible)) (position : Position) (node : Node)
    (outcome : Fallible Node) : Prop :=
  node.shell = position.original.shell
    ∧ ∃ handler, handler? node.kind = some handler ∧ position.visit handler node = outcome

/-- The nodes in the log are those of the positions, one for each, and each could take its place. -/
def Follows (handler? : Kind → Option (Handler Fallible)) (positions : List Position)
    (log : List Node) : Prop :=
  List.Forall₂ (fun position node => ∃ found, position.Yields handler? node (.ok found)) positions log

end Handled

namespace Pass

variable {handler? : Kind → Option (Handler Fallible)} {positions : List Position}
  {results log : List Node}

/-- A pass that succeeds goes through all positions whose kind has a handler. -/
theorem follows_of_ok {trees : List Node} (h : Pass handler? positions results log (.ok trees)) :
    Follows handler? (handledPositions handler? positions) log := by
  generalize hout : (.ok trees : Fallible (List Node)) = out at h
  induction h with
  | done => exact .nil
  | skip hnode hhandler _ ih =>
      rw [hnode.kind_eq] at hhandler
      rw [handledPositions_cons_of_none hhandler]
      exact ih hout
  | handle hnode hhandler hvisit _ ih =>
      rw [handledPositions_cons_of_some (hnode.kind_eq ▸ hhandler)]
      exact .cons ⟨_, hnode.shell_eq, _, hhandler, hvisit⟩ (ih hout)
  | stop => simp at hout

/-- A pass that fails goes through these positions up to the one where it fails. -/
theorem follows_of_error {diagnostic : Diagnostic}
    (h : Pass handler? positions results log (.error diagnostic)) :
    ∃ visited position left earlier node,
      handledPositions handler? positions = visited ++ position :: left ∧ log = earlier ++ [node]
        ∧ Follows handler? visited earlier ∧ position.Yields handler? node (.error diagnostic) := by
  generalize hout : (.error diagnostic : Fallible (List Node)) = out at h
  induction h with
  | done => simp at hout
  | skip hnode hhandler _ ih =>
      rw [hnode.kind_eq] at hhandler
      rw [handledPositions_cons_of_none hhandler]
      exact ih hout
  | handle hnode hhandler hvisit _ ih =>
      obtain ⟨visited, position, left, earlier, node, hpositions, rfl, hfollows, hyields⟩ := ih hout
      rw [handledPositions_cons_of_some (hnode.kind_eq ▸ hhandler), hpositions]
      exact ⟨_ :: visited, position, left, _ :: earlier, node, rfl, rfl,
        .cons ⟨_, hnode.shell_eq, _, hhandler, hvisit⟩ hfollows, hyields⟩
  | stop hnode hhandler hvisit =>
      obtain rfl := Except.error.inj hout
      rw [handledPositions_cons_of_some (hnode.kind_eq ▸ hhandler)]
      exact ⟨[], _, _, [], _, rfl, rfl, .nil, hnode.shell_eq, _, hhandler, hvisit⟩

end Pass

end DefForms
