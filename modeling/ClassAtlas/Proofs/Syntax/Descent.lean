import ClassAtlas.Syntax.Preorder

/-!
# Below a node

Membership in a traversal: a node is listed exactly when it is in the subtree of a pending node, and
the subtree of a child is part of that of its parent.
-/
namespace ClassAtlas

mutual
/-- What a tree says about its nodes. -/
def Tree.infos : Tree → List NodeInfo
  | .node info children => info :: Tree.infosOf children
def Tree.infosOf : List Tree → List NodeInfo
  | [] => []
  | tree :: rest => Tree.infos tree ++ Tree.infosOf rest
end

theorem Tree.infosOf_eq_flatMap (trees : List Tree) : infosOf trees = trees.flatMap infos := by
  induction trees with
  | nil => rfl
  | cons tree rest ih => rw [infosOf, ih, List.flatMap_cons]

namespace Node

/-- What holds of a node whenever it holds of all of its children holds of every node. -/
theorem childInduction {motive : Node → Prop}
    (step : ∀ n, (∀ c ∈ n.children, motive c) → motive n) (n : Node) : motive n :=
  step n fun c _ => childInduction step c
termination_by n.size
decreasing_by exact size_lt_of_mem_children ‹_›

theorem preorder_singleton (n : Node) : preorder [n] = n.subtree := by
  rw [preorder_cons, List.append_nil]
  rfl

theorem preorder_cons_eq_append (n : Node) (rest : List Node) :
    preorder (n :: rest) = n.subtree ++ preorder rest := by
  rw [← preorder_singleton, ← preorder_append, List.singleton_append]

theorem mem_subtree_self (n : Node) : n ∈ n.subtree := List.mem_cons_self

theorem mem_preorder {x : Node} {pending : List Node} :
    x ∈ preorder pending ↔ ∃ n ∈ pending, x ∈ n.subtree := by
  induction pending with
  | nil => simp [preorder_nil]
  | cons n rest ih => simp [preorder_cons_eq_append, ih]

theorem mem_descendants {x n : Node} : x ∈ n.descendants ↔ ∃ c ∈ n.children, x ∈ c.subtree :=
  mem_preorder

theorem mem_subtree {x n : Node} : x ∈ n.subtree ↔ x = n ∨ ∃ c ∈ n.children, x ∈ c.subtree := by
  rw [subtree, List.mem_cons, mem_descendants]

theorem forall_mem_subtree {n : Node} {P : Node → Prop} :
    (∀ x ∈ n.subtree, P x) ↔ P n ∧ ∀ c ∈ n.children, ∀ x ∈ c.subtree, P x := by
  constructor
  · intro all
    exact ⟨all n n.mem_subtree_self,
      fun c child x below => all x (mem_subtree.mpr (.inr ⟨c, child, below⟩))⟩
  · rintro ⟨self, below⟩ x member
    obtain rfl | ⟨c, child, inside⟩ := mem_subtree.mp member
    · exact self
    · exact below c child x inside

/-- What holds of a node and of its children, which have none, holds of all nodes. -/
theorem forall_subtree_of_flat {n : Node} {P : Node → Prop} (self : P n)
    (below : ∀ c ∈ n.children, c.children.isEmpty = true ∧ P c) : ∀ x ∈ n.subtree, P x := by
  refine forall_mem_subtree.mpr ⟨self, fun c child => forall_mem_subtree.mpr ?_⟩
  obtain ⟨childless, holds⟩ := below c child
  rw [List.isEmpty_iff.mp childless]
  exact ⟨holds, nofun⟩

theorem subtree_subset_of_mem_children {n c : Node} (child : c ∈ n.children) :
    c.subtree ⊆ n.subtree := by
  intro x below
  exact List.mem_cons_of_mem n (mem_descendants.mpr ⟨c, child, below⟩)

theorem subtree_subset_of_mem_subtree {n x : Node} (below : x ∈ n.subtree) :
    x.subtree ⊆ n.subtree := by
  induction n using childInduction with
  | step n ih =>
    obtain rfl | ⟨c, child, inside⟩ := mem_subtree.mp below
    · exact List.Subset.refl _
    · exact List.Subset.trans (ih c child inside) (subtree_subset_of_mem_children child)

theorem subtree_subset_descendants {n x : Node} (below : x ∈ n.descendants) :
    x.subtree ⊆ n.descendants := by
  obtain ⟨c, child, inside⟩ := mem_descendants.mp below
  intro y deeper
  exact mem_descendants.mpr ⟨c, child, subtree_subset_of_mem_subtree inside deeper⟩

theorem mem_descendants_of_mem_children {n x c : Node} (below : x ∈ n.subtree)
    (child : c ∈ x.children) : c ∈ n.descendants := by
  rw [subtree, List.mem_cons] at below
  obtain rfl | inside := below
  · exact mem_descendants.mpr ⟨c, child, c.mem_subtree_self⟩
  · exact subtree_subset_descendants inside
      (subtree_subset_of_mem_children child c.mem_subtree_self)

/-! ### What the tree says -/

theorem map_focus_children (n : Node) : n.children.map focus = n.focus.children := by
  have siblings (parent : NodeInfo) (context : List Crumb) (before trees : List Tree) :
      (siblingsFrom parent context before trees).map focus = trees := by
    induction trees generalizing before with
    | nil => rfl
    | cons tree after ih => rw [siblingsFrom, List.map_cons, ih]
  exact siblings n.info n.context [] n.focus.children

/-- What a node of a subtree is, the tree in focus says. -/
theorem info_mem_infos {n x : Node} (below : x ∈ n.subtree) : x.info ∈ n.focus.infos := by
  induction n using childInduction with
  | step n ih =>
    -- One step of `infos`, in terms of the node.
    have own : n.focus.infos = n.info :: n.focus.children.flatMap Tree.infos := by
      obtain ⟨⟨info, children⟩, context⟩ := n
      rw [Tree.infos, Tree.infosOf_eq_flatMap]
      rfl
    rw [own]
    obtain rfl | ⟨c, child, inside⟩ := mem_subtree.mp below
    · exact List.mem_cons_self
    · have part : c.focus ∈ n.focus.children := n.map_focus_children ▸ List.mem_map_of_mem child
      exact List.mem_cons_of_mem _ (List.mem_flatMap.mpr ⟨c.focus, part, ih c child inside⟩)

end Node

end ClassAtlas
