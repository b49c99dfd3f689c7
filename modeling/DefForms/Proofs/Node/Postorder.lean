import DefForms.Proofs.Node.Shape

set_option autoImplicit false

/-! # The nodes of a tree in post-order

`Node.postorder` lists every node that stands somewhere in a tree, what a node holds before the node
itself and what stands first in the text before what follows it. The entries of a parameter list are
nodes of their own there. Heads, the name of a definition and the two terms of an entry are parts of
the node that has them. -/

namespace DefForms

/-- The nodes of a parameter list: its entries, then the list. -/
def ParamList.postorder (params : ParamList) : List Node :=
  params.entries.map Node.param ++ [.paramList params]

mutual

/-- The nodes of a tree: those that it holds, from left to right, then the tree itself. -/
def Node.postorder : Node → List Node
  | .int numeral => [.int numeral]
  | .float numeral => [.float numeral]
  | .operator op => [.operator op]
  | .term name => [.term name]
  | .call line head args => Node.postorderAll args ++ [.call line head args]
  | .param entry => [.param entry]
  | .paramList params => params.postorder
  | .definition line name params body =>
      params.postorder ++ (Node.postorderAll body ++ [.definition line name params body])

/-- The nodes of several trees, one tree after the other. -/
def Node.postorderAll : List Node → List Node
  | [] => []
  | node :: rest => node.postorder ++ Node.postorderAll rest

end

theorem Node.postorderAll_eq_flatMap (nodes : List Node) :
    Node.postorderAll nodes = nodes.flatMap Node.postorder := by
  induction nodes with
  | nil => rfl
  | cons node rest ih => rw [Node.postorderAll, ih, List.flatMap_cons]

/-- A property of all nodes of several trees is one of all nodes of each. -/
theorem Node.forall_mem_postorderAll {p : Node → Prop} {nodes : List Node} :
    (∀ found ∈ Node.postorderAll nodes, p found)
      ↔ ∀ node ∈ nodes, ∀ found ∈ node.postorder, p found := by
  rw [Node.postorderAll_eq_flatMap]
  constructor
  · intro h node hnode found hfound
    exact h found (List.mem_flatMap.2 ⟨node, hnode, hfound⟩)
  · intro h found hfound
    obtain ⟨node, hnode, hfound⟩ := List.mem_flatMap.1 hfound
    exact h node hnode found hfound

/-! ## Lines -/

mutual

theorem postorder_relined (f : Nat → Nat) (node : Node) :
    (node.relined f).postorder = node.postorder.map (Node.relined f) := by
  cases node with
  | int | float | operator | term | param => rfl
  | paramList params => simp [Node.relined, Node.postorder, ParamList.postorder, ParamList.relined]
  | call line head args =>
      simp [Node.relined, Node.postorder, postorderAll_relinedAll f args]
  | definition line name params body =>
      simp [Node.relined, Node.postorder, postorderAll_relinedAll f body, ParamList.postorder,
        ParamList.relined]

theorem postorderAll_relinedAll (f : Nat → Nat) (nodes : List Node) :
    Node.postorderAll (Node.relinedAll f nodes)
      = (Node.postorderAll nodes).map (Node.relined f) := by
  cases nodes with
  | nil => rfl
  | cons node rest =>
      rw [Node.relinedAll, Node.postorderAll, postorder_relined f node,
        postorderAll_relinedAll f rest, Node.postorderAll, List.map_append]

end

end DefForms
