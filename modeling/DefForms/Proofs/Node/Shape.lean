import DefForms.Node.Basic

set_option autoImplicit false

/-! # Lines and depth of trees

`Node.relined` changes the line numbers of a tree and nothing else; what two trees have in common up
to line numbers is what `Node.unlined` makes of them. `Node.nesting` is the depth to which calls and
parameter lists are nested in a tree. -/

namespace DefForms

/-! ## Lines -/

section Lines

variable (f : Nat → Nat)

/-- The numeral with its line changed. -/
def Numeral.relined (numeral : Numeral) : Numeral := ⟨f numeral.line, numeral.text⟩

/-- The operator with its line changed. -/
def Operator.relined (op : Operator) : Operator := ⟨f op.line, op.symbol⟩

/-- The term with its line changed. -/
def Term.relined (term : Term) : Term := ⟨f term.line, term.text⟩

/-- The entry with its own line and those of its terms changed. -/
def Param.relined (entry : Param) : Param :=
  ⟨f entry.line, entry.name.relined f, entry.type.relined f⟩

/-- The parameter list with all its lines changed. -/
def ParamList.relined (params : ParamList) : ParamList :=
  ⟨f params.line, params.entries.map (Param.relined f)⟩

/-- The head with its line changed. -/
def Head.relined : Head → Head
  | .term name => .term (name.relined f)
  | .operator op => .operator (op.relined f)

mutual

/-- The tree with every line number in it changed. -/
def Node.relined : Node → Node
  | .int numeral => .int (numeral.relined f)
  | .float numeral => .float (numeral.relined f)
  | .operator op => .operator (op.relined f)
  | .term name => .term (name.relined f)
  | .call line head args => .call (f line) (head.relined f) (Node.relinedAll args)
  | .param entry => .param (entry.relined f)
  | .paramList params => .paramList (params.relined f)
  | .definition line name params body =>
      .definition (f line) (name.relined f) (params.relined f) (Node.relinedAll body)

/-- The trees with every line number in them changed. -/
def Node.relinedAll : List Node → List Node
  | [] => []
  | node :: rest => node.relined :: Node.relinedAll rest

end

theorem Node.relinedAll_eq_map (nodes : List Node) :
    Node.relinedAll f nodes = nodes.map (Node.relined f) := by
  induction nodes with
  | nil => rfl
  | cons node rest ih => rw [Node.relinedAll, ih, List.map_cons]

theorem Head.relined_toNode (head : Head) : (head.relined f).toNode = head.toNode.relined f := by
  cases head <;> rfl

end Lines

mutual

/-- Of two changes of the lines the second sees the lines that the first one leaves. -/
theorem Node.relined_relined (f g : Nat → Nat) (node : Node) :
    (node.relined f).relined g = node.relined (g ∘ f) := by
  cases node with
  | call line head args =>
      have hargs := Node.relinedAll_relinedAll f g args
      cases head with
      | term | operator => simp only [Node.relined, hargs]; rfl
  | definition line name params body =>
      have hbody := Node.relinedAll_relinedAll f g body
      simp [Node.relined, ParamList.relined, Param.relined, Term.relined, hbody]
  | paramList params => simp [Node.relined, ParamList.relined, Param.relined, Term.relined]
  | int | float | operator | term | param => rfl

theorem Node.relinedAll_relinedAll (f g : Nat → Nat) (nodes : List Node) :
    Node.relinedAll g (Node.relinedAll f nodes) = Node.relinedAll (g ∘ f) nodes := by
  cases nodes with
  | nil => rfl
  | cons node rest =>
      rw [Node.relinedAll, Node.relinedAll, Node.relinedAll, Node.relined_relined f g node,
        Node.relinedAll_relinedAll f g rest]

end

/-- The tree without its line numbers. -/
def Node.unlined : Node → Node := Node.relined fun _ => 0

theorem Node.unlined_relined (f : Nat → Nat) (node : Node) :
    (node.relined f).unlined = node.unlined :=
  Node.relined_relined f _ node

/-! ## Depth -/

mutual

/-- The most calls and parameter lists that are open at one place of the tree. -/
def Node.nesting : Node → Nat
  | .call _ _ args => Node.nestingAll args + 1
  | .paramList _ => 1
  | .definition _ _ _ body => max 1 (Node.nestingAll body) + 1
  | .int _ | .float _ | .operator _ | .term _ | .param _ => 0

/-- The most calls and parameter lists that are open at one place of the trees. -/
def Node.nestingAll : List Node → Nat
  | [] => 0
  | node :: rest => max node.nesting (Node.nestingAll rest)

end

theorem Node.nestingAll_le_iff {nodes : List Node} {bound : Nat} :
    Node.nestingAll nodes ≤ bound ↔ ∀ node ∈ nodes, node.nesting ≤ bound := by
  induction nodes with
  | nil => simp [Node.nestingAll]
  | cons node rest ih => rw [Node.nestingAll, Nat.max_le, ih, List.forall_mem_cons]

mutual

/-- The depth does not depend on the lines. -/
theorem Node.nesting_relined (f : Nat → Nat) (node : Node) :
    (node.relined f).nesting = node.nesting := by
  cases node with
  | call line head args =>
      rw [Node.relined, Node.nesting, Node.nesting, Node.nestingAll_relined f args]
  | definition line name params body =>
      rw [Node.relined, Node.nesting, Node.nesting, Node.nestingAll_relined f body]
  | int | float | operator | term | param | paramList => rfl

theorem Node.nestingAll_relined (f : Nat → Nat) (nodes : List Node) :
    Node.nestingAll (Node.relinedAll f nodes) = Node.nestingAll nodes := by
  cases nodes with
  | nil => rfl
  | cons node rest =>
      rw [Node.relinedAll, Node.nestingAll, Node.nestingAll, Node.nesting_relined f node,
        Node.nestingAll_relined f rest]

end

theorem Node.nestingAll_unlined (nodes : List Node) :
    Node.nestingAll (nodes.map Node.unlined) = Node.nestingAll nodes := by
  rw [← Node.nestingAll_relined (fun _ => 0) nodes, Node.relinedAll_eq_map]
  rfl

theorem Node.nestingAll_append (front back : List Node) :
    Node.nestingAll (front ++ back) = max (Node.nestingAll front) (Node.nestingAll back) := by
  induction front with
  | nil => simp [Node.nestingAll]
  | cons node rest ih => rw [List.cons_append, Node.nestingAll, ih, Node.nestingAll, Nat.max_assoc]

end DefForms
