import ClassAtlas.Layout.Normal

/-!
# Forms of trees

A node without all that a source can change: only the kinds and fields of the nodes in and around it
are left, and the order of children. What layout asks about the surroundings of a node, and where
the header of a member ends, can be told from the form.
-/
namespace ClassAtlas

/-- What a node is, and how its parent knows it. -/
def NodeInfo.form (info : NodeInfo) : NodeInfo :=
  { kind := info.kind, field? := info.field?, named := false, missing := false,
    span := default, text := "" }

mutual
def Tree.form : Tree → Tree
  | .node info children => .node info.form (Tree.forms children)
def Tree.forms : List Tree → List Tree
  | [] => []
  | tree :: rest => Tree.form tree :: Tree.forms rest
end

@[simp] theorem Tree.forms_eq_map (trees : List Tree) : Tree.forms trees = trees.map Tree.form := by
  induction trees with
  | nil => rfl
  | cons tree rest ih => rw [Tree.forms, ih, List.map_cons]

def Crumb.form (crumb : Crumb) : Crumb :=
  ⟨crumb.parent.form, crumb.before.map Tree.form, crumb.after.map Tree.form⟩

namespace Node

/-- The kinds and fields in and around a node. -/
def form (n : Node) : Node := ⟨n.focus.form, n.context.map Crumb.form⟩

@[simp] theorem info_form (n : Node) : n.form.info = n.info.form := by
  obtain ⟨⟨info, children⟩, context⟩ := n
  rfl

@[simp] theorem kind_form (n : Node) : n.form.kind = n.kind := by
  rw [kind, info_form]
  rfl

@[simp] theorem field?_form (n : Node) : n.form.field? = n.field? := by
  rw [field?, info_form]
  rfl

@[simp] theorem address_form (n : Node) : n.form.address = n.address := by
  simp [address, form, Crumb.form]

theorem siblingsFrom_form (parent : NodeInfo) (context : List Crumb) (before trees : List Tree) :
    siblingsFrom parent.form (context.map Crumb.form) (before.map Tree.form)
      (trees.map Tree.form) = (siblingsFrom parent context before trees).map form := by
  induction trees generalizing before with
  | nil => rfl
  | cons tree after ih =>
    have later := ih (tree :: before)
    rw [List.map_cons] at later
    rw [List.map_cons, siblingsFrom, siblingsFrom, later]
    rfl

@[simp] theorem children_form (n : Node) : n.form.children = n.children.map form := by
  obtain ⟨⟨info, children⟩, context⟩ := n
  have siblings := siblingsFrom_form info context [] children
  simpa [Node.children, form, Tree.form, Tree.children, Node.info, Tree.info] using siblings

theorem parentTree_form (crumb : Crumb) (focus : Tree) :
    parentTree crumb.form focus.form = (parentTree crumb focus).form := by
  simp [parentTree, Tree.form, Crumb.form, List.map_reverse]

@[simp] theorem parent?_form (n : Node) : n.form.parent? = n.parent?.map form := by
  obtain ⟨focus, context⟩ := n
  cases context with
  | nil => rfl
  | cons crumb outer =>
    simp only [parent?, form, List.map_cons, Option.map_some, parentTree_form]

@[simp] theorem isFirst_form (n : Node) : n.form.isFirst = n.isFirst := by
  obtain ⟨focus, context⟩ := n
  cases context with
  | nil => rfl
  | cons crumb outer => simp [isFirst, form, Crumb.form]

@[simp] theorem isLast_form (n : Node) : n.form.isLast = n.isLast := by
  obtain ⟨focus, context⟩ := n
  cases context with
  | nil => rfl
  | cons crumb outer => simp [isLast, form, Crumb.form]

@[simp] theorem child?_form (n : Node) (field : String) :
    n.form.child? field = (n.child? field).map form := by
  simp only [child?, children_form, List.find?_map, Function.comp_def, field?_form]

/-! ### What layout asks about the surroundings -/

@[simp] theorem isAccessorWithBody_form (n : Node) :
    n.form.isAccessorWithBody = n.isAccessorWithBody := by
  simp [isAccessorWithBody, Function.comp_def]

@[simp] theorem isInBlock_form (n : Node) : n.form.isInBlock = n.isInBlock := by
  unfold isInBlock
  rw [parent?_form]
  cases n.parent? with
  | none => rfl
  | some parent => simp [Function.comp_def]

@[simp] theorem isListedMember_form (n : Node) : n.form.isListedMember = n.isListedMember := by
  simp [isListedMember, isComment, Option.any_map]

theorem parentKind_form (n : Node) : n.form.parent?.map kind = n.parent?.map kind := by
  simp [Function.comp_def]

theorem grandparentKind_form (n : Node) :
    (n.form.parent?.bind parent?).map kind = (n.parent?.bind parent?).map kind := by
  rw [parent?_form]
  cases n.parent? with
  | none => rfl
  | some parent => simp [Function.comp_def]

/-! ### Headers -/

theorem beginsBody_form (n c : Node) : n.form.beginsBody c.form = n.beginsBody c := by
  simp [beginsBody, Option.any_map]

theorem mem_children_of_mem_header {n c : Node} (member : c ∈ n.header) : c ∈ n.children :=
  (List.takeWhile_prefix _).subset (List.mem_filter.mp member).1

theorem header_form (n : Node) : n.form.header = n.header.map form := by
  simp [header, List.takeWhile_map, List.filter_map, Function.comp_def, beginsBody_form]

/-! ### Nodes of one form -/

/-- Nodes that look alike agree on everything that can be asked of the look. -/
theorem congr_of_view {α : Type} {view : Node → Node} (ask : Node → α)
    (asked : ∀ n, ask (view n) = ask n) {n n' : Node} (same : view n' = view n) :
    ask n' = ask n := by
  rw [← asked n', same, asked n]

theorem map_form_children {n n' : Node} (same : n'.form = n.form) :
    n'.children.map form = n.children.map form := by
  rw [← children_form, same, children_form]

theorem map_form_header {n n' : Node} (same : n'.form = n.form) :
    n'.header.map form = n.header.map form := by
  rw [← header_form, same, header_form]

end Node

end ClassAtlas
