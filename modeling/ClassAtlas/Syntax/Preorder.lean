import ClassAtlas.Syntax.Node

/-!
# Document order

The nodes of a tree in the order in which they begin in the source: each before its children, and
all of its descendants before what follows it.
-/
namespace ClassAtlas.Node

/-- The given nodes and all nodes below them in document order: of the pending nodes the first is
listed, and its children become pending before the rest. -/
def preorder (pending : List Node) : List Node :=
  match pending with
  | [] => []
  | n :: rest => n :: preorder (n.children ++ rest)
termination_by totalOf size pending
decreasing_by
  have := n.totalOf_size_children_lt
  simp
  omega

/-- All nodes below a node in document order, the node itself left out. -/
def descendants (n : Node) : List Node := preorder n.children

/-- A node and all nodes below it in document order. -/
def subtree (n : Node) : List Node := n :: n.descendants

theorem preorder_nil : preorder [] = [] := by simp [preorder]

theorem preorder_cons (n : Node) (rest : List Node) :
    preorder (n :: rest) = n :: preorder (n.children ++ rest) := by rw [preorder]

/-- Traversals of two groups of nodes follow one another. -/
theorem preorder_append (left right : List Node) :
    preorder (left ++ right) = preorder left ++ preorder right := by
  induction left using preorder.induct with
  | case1 => simp [preorder_nil]
  | case2 n rest ih =>
    rw [List.cons_append, preorder_cons, preorder_cons, List.cons_append, ← ih, List.append_assoc]

end ClassAtlas.Node
