import ClassAtlas.Proofs.Syntax.Descent
import Mathlib.Data.List.Nodup

/-!
# Addresses

Every node of a subtree continues the address of its root, and no two nodes of a subtree have the
same address. Going up from a child leads back to its parent.
-/
namespace ClassAtlas.Node

/-! ### Children -/

theorem siblingsFrom_getElem? {parent : NodeInfo} {context : List Crumb} {before trees : List Tree}
    {i : Nat} {c : Node} (found : (siblingsFrom parent context before trees)[i]? = some c) :
    c.address = (before.length + i) :: (context.map fun crumb => crumb.before.length) ∧
      c.parent? = some ⟨.node parent (before.reverse ++ trees), context⟩ := by
  induction trees generalizing before i with
  | nil => simp [siblingsFrom] at found
  | cons tree after ih =>
    cases i with
    | zero =>
      simp only [siblingsFrom, List.getElem?_cons_zero, Option.some.injEq] at found
      subst found
      exact ⟨rfl, rfl⟩
    | succ i =>
      rw [siblingsFrom, List.getElem?_cons_succ] at found
      obtain ⟨address, parent⟩ := ih found
      refine ⟨?_, ?_⟩
      · rw [address, List.length_cons, Nat.add_right_comm, Nat.add_assoc]
      · rw [parent]
        simp

theorem children_getElem? {n c : Node} {i : Nat} (found : n.children[i]? = some c) :
    c.address = i :: n.address ∧ c.parent? = some n := by
  obtain ⟨address, parent⟩ := siblingsFrom_getElem? found
  refine ⟨by simpa [Node.address] using address, ?_⟩
  rw [parent]
  obtain ⟨⟨info, children⟩, context⟩ := n
  rfl

theorem parent?_of_mem_children {n c : Node} (child : c ∈ n.children) : c.parent? = some n := by
  obtain ⟨i, found⟩ := List.mem_iff_getElem?.mp child
  exact (children_getElem? found).2

theorem eq_of_address_children {n c c' : Node} (child : c ∈ n.children) (child' : c' ∈ n.children)
    (same : c.address = c'.address) : c = c' := by
  obtain ⟨i, found⟩ := List.mem_iff_getElem?.mp child
  obtain ⟨i', found'⟩ := List.mem_iff_getElem?.mp child'
  rw [(children_getElem? found).1, (children_getElem? found').1, List.cons.injEq] at same
  rw [same.1, found'] at found
  exact (Option.some.inj found).symm

theorem length_address_of_mem_children {n c : Node} (child : c ∈ n.children) :
    c.address.length = n.address.length + 1 := by
  obtain ⟨i, found⟩ := List.mem_iff_getElem?.mp child
  rw [(children_getElem? found).1, List.length_cons]

theorem children_address_nodup (n : Node) : (n.children.map address).Nodup := by
  rw [List.nodup_iff_getElem?_ne_getElem?]
  intro i j before known same
  rw [List.length_map] at known
  have found := List.getElem?_eq_getElem known
  have found' := List.getElem?_eq_getElem (Nat.lt_trans before known)
  -- The addresses of two children begin with their positions.
  rw [List.getElem?_map, List.getElem?_map, found, found', Option.map_some, Option.map_some,
    Option.some.injEq, (children_getElem? found).1, (children_getElem? found').1,
    List.cons.injEq] at same
  omega

/-! ### Subtrees -/

theorem address_suffix {n x : Node} (below : x ∈ n.subtree) : n.address <:+ x.address := by
  induction n using childInduction with
  | step n ih =>
    obtain rfl | ⟨c, child, inside⟩ := mem_subtree.mp below
    · exact List.suffix_rfl
    · obtain ⟨i, found⟩ := List.mem_iff_getElem?.mp child
      have own := ih c child inside
      rw [(children_getElem? found).1] at own
      exact (List.suffix_cons i n.address).trans own

/-- What is below different siblings has different addresses. -/
theorem sibling_of_address {n c c' x x' : Node} (child : c ∈ n.children) (child' : c' ∈ n.children)
    (below : x ∈ c.subtree) (below' : x' ∈ c'.subtree) (same : x.address = x'.address) :
    c = c' := by
  -- Both addresses end the same longer one, and siblings have addresses of one length.
  have suffix := address_suffix below
  have suffix' := address_suffix below'
  rw [← same] at suffix'
  have lengths : c.address.length = c'.address.length := by
    rw [length_address_of_mem_children child, length_address_of_mem_children child']
  refine eq_of_address_children child child' ?_
  exact (List.suffix_of_suffix_length_le suffix suffix' (Nat.le_of_eq lengths)).eq_of_length lengths

theorem address_ne_of_mem_descendants {n x : Node} (below : x ∈ n.descendants) :
    x.address ≠ n.address := by
  obtain ⟨c, child, inside⟩ := mem_descendants.mp below
  intro same
  have longer := (address_suffix inside).length_le
  rw [same, length_address_of_mem_children child] at longer
  omega

/-- No two nodes of a subtree have the same address. -/
theorem eq_of_address {root x x' : Node} (below : x ∈ root.subtree) (below' : x' ∈ root.subtree)
    (same : x.address = x'.address) : x = x' := by
  induction root using childInduction with
  | step n ih =>
    rw [subtree, List.mem_cons] at below below'
    obtain rfl | inside := below
    · obtain rfl | inside' := below'
      · rfl
      · exact absurd same.symm (address_ne_of_mem_descendants inside')
    · obtain rfl | inside' := below'
      · exact absurd same (address_ne_of_mem_descendants inside)
      -- Below the root the addresses first agree on the child, then inside it.
      · obtain ⟨c, child, deep⟩ := mem_descendants.mp inside
        obtain ⟨c', child', deep'⟩ := mem_descendants.mp inside'
        obtain rfl := sibling_of_address child child' deep deep' same
        exact ih c child deep deep'

/-! ### Ancestors -/

theorem ancestors_of_parent? {n p : Node} (parent : n.parent? = some p) :
    n.ancestors = p :: p.ancestors := by
  obtain ⟨focus, context⟩ := n
  cases context with
  | nil => cases parent
  | cons crumb outer =>
    cases parent
    rfl

theorem ancestors_of_mem_children {n c : Node} (child : c ∈ n.children) :
    c.ancestors = n :: n.ancestors :=
  ancestors_of_parent? (parent?_of_mem_children child)

/-- An ancestor of a node of a subtree is part of the subtree or around all of it. -/
theorem mem_ancestors {n x y : Node} (below : x ∈ n.subtree) (around : y ∈ x.ancestors) :
    y ∈ n.ancestors ∨ y ∈ n.subtree ∧ x ∈ y.descendants := by
  induction n using childInduction with
  | step n ih =>
    rw [subtree, List.mem_cons] at below
    obtain rfl | inside := below
    · exact .inl around
    -- An ancestor found from the child is below it, is the node itself, or is around the node.
    · obtain ⟨c, child, deep⟩ := mem_descendants.mp inside
      obtain above | ⟨within, deeper⟩ := ih c child deep
      · rw [ancestors_of_mem_children child, List.mem_cons] at above
        obtain rfl | outside := above
        · exact .inr ⟨y.mem_subtree_self, inside⟩
        · exact .inl outside
      · exact .inr ⟨subtree_subset_of_mem_children child within, deeper⟩

/-- What the nearest ancestor with a value sees further out is what its own ancestors have. -/
theorem filterMap_ancestors {α : Type} {f : Node → Option α} {n : Node} {a : α}
    (nearest : n.ancestors.findSome? f = some a) :
    ∃ x ∈ n.ancestors, f x = some a ∧ n.ancestors.filterMap f = a :: x.ancestors.filterMap f := by
  obtain ⟨focus, context⟩ := n
  induction context generalizing focus with
  | nil => cases nearest
  | cons crumb outer ih =>
    let parent : Node := ⟨parentTree crumb focus, outer⟩
    have upward : ancestors ⟨focus, crumb :: outer⟩ = parent :: parent.ancestors := rfl
    rw [upward] at nearest ⊢
    rw [List.findSome?_cons] at nearest
    cases own : f parent with
    | some b =>
      rw [own] at nearest
      cases nearest
      exact ⟨parent, List.mem_cons_self, own, List.filterMap_cons_some own⟩
    | none =>
      rw [own] at nearest
      obtain ⟨x, above, value, further⟩ := ih (parentTree crumb focus) nearest
      refine ⟨x, List.mem_cons_of_mem _ above, value, ?_⟩
      rw [List.filterMap_cons_none own]
      exact further

end ClassAtlas.Node
