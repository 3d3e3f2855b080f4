import ClassAtlas.Count
import ClassAtlas.Syntax.Tree

/-!
# Nodes

A node is a place in a syntax tree: the subtree in focus and, level by level outwards, the siblings
on both sides. Going up rebuilds the parent, so every question about the surroundings of a node has
an answer, and two nodes of one tree are the same exactly when their addresses are equal. Children
are smaller than their parent, which is what the recursions of the library rest on.
-/
namespace ClassAtlas

/-- One level of the surroundings of a node: its parent and the siblings before it (nearest first)
and after it. -/
structure Crumb where
  parent : NodeInfo
  before : List Tree
  after : List Tree
  deriving Repr

/-- A place in a syntax tree; the nearest level of its surroundings comes first. -/
structure Node where
  focus : Tree
  context : List Crumb
  deriving Repr

namespace Node

/-- The root of a tree. -/
def root (tree : Tree) : Node := ⟨tree, []⟩

def info (n : Node) : NodeInfo := n.focus.info
def kind (n : Node) : String := n.info.kind
def field? (n : Node) : Option String := n.info.field?
def isNamed (n : Node) : Bool := n.info.named
def isMissing (n : Node) : Bool := n.info.missing
def start (n : Node) : Nat := n.info.span.start
def stop (n : Node) : Nat := n.info.span.stop
def startRow (n : Node) : Nat := n.info.span.startRow
def endRow (n : Node) : Nat := n.info.span.endRow

/-- The source text of the node. -/
def text (n : Node) : String := n.info.text

/-- The number of nodes of the subtree in focus. -/
def size (n : Node) : Nat := n.focus.size

/-- The position of the node among its siblings, then that of its parent, and so on to the root. -/
def address (n : Node) : List Nat := n.context.map fun crumb => crumb.before.length

/-- The nodes of a row of siblings whose earlier members are `before`, nearest first. -/
def siblingsFrom (parent : NodeInfo) (context : List Crumb) (before : List Tree) :
    List Tree → List Node
  | [] => []
  | tree :: after =>
    ⟨tree, ⟨parent, before, after⟩ :: context⟩ :: siblingsFrom parent context (tree :: before) after

/-- The children of a node in source order. -/
def children (n : Node) : List Node := siblingsFrom n.info n.context [] n.focus.children

/-- The children that are not literal tokens. -/
def namedChildren (n : Node) : List Node := n.children.filter isNamed

/-- The first child known under a field name. -/
def child? (n : Node) (field : String) : Option Node :=
  n.children.find? fun c => c.field? == some field

/-- The first named child of one of the given kinds. -/
def childOfKind? (n : Node) (kinds : List String) : Option Node :=
  n.namedChildren.find? fun c => kinds.contains c.kind

/-- The child of a field, or else the first named child of one of the given kinds. -/
def childOrKind? (n : Node) (field : String) (kinds : List String) : Option Node :=
  (n.child? field).or (n.childOfKind? kinds)

/-- The parent of `focus`, put together again from its parts. -/
def parentTree (crumb : Crumb) (focus : Tree) : Tree :=
  .node crumb.parent (crumb.before.reverse ++ focus :: crumb.after)

/-- The parent of a node; the root has none. -/
def parent? (n : Node) : Option Node :=
  match n.context with
  | [] => none
  | crumb :: outer => some ⟨parentTree crumb n.focus, outer⟩

/-- The nodes around `focus`, innermost first. -/
def ancestorsFrom (focus : Tree) : List Crumb → List Node
  | [] => []
  | crumb :: outer =>
    ⟨parentTree crumb focus, outer⟩ :: ancestorsFrom (parentTree crumb focus) outer

/-- The ancestors of a node, its parent first. -/
def ancestors (n : Node) : List Node := ancestorsFrom n.focus n.context

/-- The siblings before `focus`, nearest first. -/
def siblingsBefore (parent : NodeInfo) (context : List Crumb) (focus : Tree) (after : List Tree) :
    List Tree → List Node
  | [] => []
  | tree :: before =>
    ⟨tree, ⟨parent, before, focus :: after⟩ :: context⟩ ::
      siblingsBefore parent context tree (focus :: after) before

/-- The siblings before a node, nearest first. -/
def previousSiblings (n : Node) : List Node :=
  match n.context with
  | [] => []
  | crumb :: outer => siblingsBefore crumb.parent outer n.focus crumb.after crumb.before

/-- No sibling comes before the node. -/
def isFirst (n : Node) : Bool :=
  match n.context with
  | [] => true
  | crumb :: _ => crumb.before.isEmpty

/-- No sibling comes after the node. -/
def isLast (n : Node) : Bool :=
  match n.context with
  | [] => true
  | crumb :: _ => crumb.after.isEmpty

theorem totalOf_size_siblingsFrom (parent : NodeInfo) (context : List Crumb)
    (before trees : List Tree) :
    totalOf size (siblingsFrom parent context before trees) = Tree.sizes trees := by
  induction trees generalizing before with
  | nil => rfl
  | cons tree after ih => simp [siblingsFrom, ih, Tree.sizes, size]

/-- The children of a node have together one node less than the node. -/
theorem totalOf_size_children_lt (n : Node) : totalOf size n.children < n.size := by
  rw [children, totalOf_size_siblingsFrom]
  exact n.focus.sizes_children_lt

theorem size_pos (n : Node) : 0 < n.size := n.focus.size_pos

/-- A child is smaller than its parent. -/
theorem size_lt_of_mem_children {n c : Node} (member : c ∈ n.children) : c.size < n.size :=
  Nat.lt_of_le_of_lt (le_totalOf member) n.totalOf_size_children_lt

theorem mem_children_of_mem_namedChildren {n c : Node} (member : c ∈ n.namedChildren) :
    c ∈ n.children := (List.mem_filter.1 member).1

theorem totalOf_size_namedChildren_lt (n : Node) : totalOf size n.namedChildren < n.size :=
  Nat.lt_of_le_of_lt (totalOf_filter_le size _ _) n.totalOf_size_children_lt

theorem size_lt_of_mem_namedChildren {n c : Node} (member : c ∈ n.namedChildren) :
    c.size < n.size := size_lt_of_mem_children (mem_children_of_mem_namedChildren member)

theorem mem_children_of_child? {n c : Node} {field : String} (found : n.child? field = some c) :
    c ∈ n.children := List.mem_of_find?_eq_some found

theorem mem_namedChildren_of_childOfKind? {n c : Node} {kinds : List String}
    (found : n.childOfKind? kinds = some c) : c ∈ n.namedChildren := List.mem_of_find?_eq_some found

theorem mem_children_of_childOrKind? {n c : Node} {field : String} {kinds : List String}
    (found : n.childOrKind? field kinds = some c) : c ∈ n.children := by
  rcases Option.or_eq_some_iff.1 found with known | ⟨_, known⟩
  · exact mem_children_of_child? known
  · exact mem_children_of_mem_namedChildren (mem_namedChildren_of_childOfKind? known)

theorem size_lt_of_child? {n c : Node} {field : String} (found : n.child? field = some c) :
    c.size < n.size := size_lt_of_mem_children (mem_children_of_child? found)

theorem size_lt_of_childOfKind? {n c : Node} {kinds : List String}
    (found : n.childOfKind? kinds = some c) : c.size < n.size :=
  size_lt_of_mem_namedChildren (mem_namedChildren_of_childOfKind? found)

theorem size_lt_of_childOrKind? {n c : Node} {field : String} {kinds : List String}
    (found : n.childOrKind? field kinds = some c) : c.size < n.size :=
  size_lt_of_mem_children (mem_children_of_childOrKind? found)

end Node

end ClassAtlas
