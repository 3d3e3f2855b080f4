/-!
# Syntax trees

A node of a C# syntax tree has a kind (`class_declaration`, `;`), possibly a field name by which its
parent knows it, and a place in the source. It also carries the source text it covers, so that
nothing downstream has to go back to the source.
-/
namespace ClassAtlas

/-- A range of the source in bytes, end exclusive, with the rows of its two ends counted from 0. -/
structure Span where
  start : Nat
  stop : Nat
  startRow : Nat
  endRow : Nat
  deriving DecidableEq, Repr, Inhabited

/-- What a tree says about one of its nodes. Anonymous nodes are the literal tokens of the grammar;
missing nodes were invented by error recovery. -/
structure NodeInfo where
  kind : String
  field? : Option String
  named : Bool
  missing : Bool
  span : Span
  text : String
  deriving DecidableEq, Repr, Inhabited

/-- A syntax tree: a node and its children in source order. -/
inductive Tree where
  | node (info : NodeInfo) (children : List Tree)
  deriving Repr, Inhabited

namespace Tree

/-- What the tree says about its root. -/
def info : Tree → NodeInfo
  | node info _ => info

/-- The subtrees below the root. -/
def children : Tree → List Tree
  | node _ children => children

mutual
/-- The number of nodes of a tree. -/
def size : Tree → Nat
  | node _ children => sizes children + 1
/-- The number of nodes of a forest. -/
def sizes : List Tree → Nat
  | [] => 0
  | tree :: rest => size tree + sizes rest
end

theorem size_pos (tree : Tree) : 0 < tree.size := by
  cases tree with | node info children => simp [size]

theorem sizes_children_lt (tree : Tree) : sizes tree.children < tree.size := by
  cases tree with | node info children => simp [Tree.children, size]

end Tree

end ClassAtlas
