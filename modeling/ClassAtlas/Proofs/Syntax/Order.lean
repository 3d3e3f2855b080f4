import ClassAtlas.Proofs.Syntax.Address
import Mathlib.Data.List.Flatten
import Mathlib.Data.List.Nodup

/-!
# Document order

The nodes below a node are listed once each. Fewer pending nodes, or the nodes below one of them,
are listed in the same order.
-/
namespace ClassAtlas.Node

theorem preorder_eq_flatMap (pending : List Node) : preorder pending = pending.flatMap subtree := by
  induction pending with
  | nil => rw [preorder_nil, List.flatMap_nil]
  | cons n rest ih => rw [List.flatMap_cons, ← ih, preorder_cons_eq_append]

theorem descendants_eq_flatMap (n : Node) : n.descendants = n.children.flatMap subtree :=
  preorder_eq_flatMap n.children

theorem preorder_sublist {pending more : List Node} (fewer : pending.Sublist more) :
    (preorder pending).Sublist (preorder more) := by
  rw [preorder_eq_flatMap, preorder_eq_flatMap]
  exact fewer.flatMap subtree

theorem subtree_sublist {n x : Node} (below : x ∈ n.subtree) : x.subtree.Sublist n.subtree := by
  induction n using childInduction with
  | step n ih =>
    obtain rfl | ⟨c, child, inside⟩ := mem_subtree.mp below
    · exact List.Sublist.refl _
    · have first : (preorder [c]).Sublist n.descendants :=
        preorder_sublist (List.singleton_sublist.mpr child)
      rw [preorder_singleton] at first
      exact ((ih c child inside).trans first).cons n

theorem descendants_sublist {n x : Node} (below : x ∈ n.subtree) :
    x.descendants.Sublist n.descendants :=
  (subtree_sublist below).tail

/-- Siblings have nothing in common, so no address comes twice. -/
theorem descendants_address_nodup (n : Node) : (n.descendants.map address).Nodup := by
  induction n using childInduction with
  | step n ih =>
    rw [descendants_eq_flatMap, List.map_flatMap, List.nodup_flatMap]
    constructor
    · intro c child
      rw [subtree, List.map_cons, List.nodup_cons]
      refine ⟨?_, ih c child⟩
      intro again
      obtain ⟨x, below, same⟩ := List.mem_map.mp again
      exact address_ne_of_mem_descendants below same
    · have apart := List.pairwise_map.mp n.children_address_nodup
      refine apart.imp_of_mem fun {c c'} child child' different => ?_
      intro address below below'
      obtain ⟨x, inside, rfl⟩ := List.mem_map.mp below
      obtain ⟨x', inside', same⟩ := List.mem_map.mp below'
      exact different (congrArg Node.address
        (sibling_of_address child child' inside inside' same.symm))

theorem descendants_nodup (n : Node) : n.descendants.Nodup := n.descendants_address_nodup.of_map

end ClassAtlas.Node
