import ClassAtlas.Proofs.Syntax.Form

/-!
# Shapes of trees

A node without what depends on the source: no texts and no places are left of it and of the tree
around it. Nodes of one shape have one form.
-/
namespace ClassAtlas

/-- What a tree says about a node apart from its text and its place. -/
def NodeInfo.unplaced (info : NodeInfo) : NodeInfo := { info with span := default, text := "" }

mutual
/-- A tree without texts and places. -/
def Tree.shape : Tree → Tree
  | .node info children => .node info.unplaced (Tree.shapes children)
def Tree.shapes : List Tree → List Tree
  | [] => []
  | tree :: rest => Tree.shape tree :: Tree.shapes rest
end

mutual
theorem Tree.form_shape : (tree : Tree) → tree.shape.form = tree.form
  | .node info children => by
    rw [Tree.shape, Tree.form, Tree.form, Tree.forms_shapes children]
    rfl
theorem Tree.forms_shapes : (trees : List Tree) → Tree.forms (Tree.shapes trees) = Tree.forms trees
  | [] => rfl
  | tree :: rest => by
    rw [Tree.shapes, Tree.forms, Tree.forms, Tree.form_shape tree, Tree.forms_shapes rest]
end

@[simp] theorem Tree.shapes_eq_map (trees : List Tree) :
    Tree.shapes trees = trees.map Tree.shape := by
  induction trees with
  | nil => rfl
  | cons tree rest ih => rw [Tree.shapes, ih, List.map_cons]

def Crumb.shape (crumb : Crumb) : Crumb :=
  ⟨crumb.parent.unplaced, crumb.before.map Tree.shape, crumb.after.map Tree.shape⟩

theorem Crumb.form_shape (crumb : Crumb) : crumb.shape.form = crumb.form := by
  simp [Crumb.form, Crumb.shape, Function.comp_def, Tree.form_shape, NodeInfo.form,
    NodeInfo.unplaced]

namespace Node

/-- A node without texts and places, its own and those around it. -/
def shape (n : Node) : Node := ⟨n.focus.shape, n.context.map Crumb.shape⟩

theorem form_shape (n : Node) : n.shape.form = n.form := by
  simp [form, shape, Tree.form_shape, Function.comp_def, Crumb.form_shape]

theorem form_of_shape {n n' : Node} (same : n'.shape = n.shape) : n'.form = n.form :=
  congr_of_view form form_shape same

theorem siblingsFrom_shape (parent : NodeInfo) (context : List Crumb) (before trees : List Tree) :
    siblingsFrom parent.unplaced (context.map Crumb.shape) (before.map Tree.shape)
      (trees.map Tree.shape) = (siblingsFrom parent context before trees).map shape := by
  induction trees generalizing before with
  | nil => rfl
  | cons tree after ih =>
    have later := ih (tree :: before)
    rw [List.map_cons] at later
    rw [List.map_cons, siblingsFrom, siblingsFrom, later]
    rfl

@[simp] theorem children_shape (n : Node) : n.shape.children = n.children.map shape := by
  obtain ⟨⟨info, children⟩, context⟩ := n
  have siblings := siblingsFrom_shape info context [] children
  simpa [Node.children, shape, Tree.shape, Tree.children, Node.info, Tree.info] using siblings

theorem map_shape_children {n n' : Node} (same : n'.shape = n.shape) :
    n'.children.map shape = n.children.map shape := by
  rw [← children_shape, same, children_shape]

end Node

end ClassAtlas
