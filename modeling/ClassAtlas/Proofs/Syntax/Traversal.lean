import ClassAtlas.Proofs.Syntax.Ancestry
import ClassAtlas.Proofs.Syntax.Ranges
import Mathlib.Data.List.Basic
import Mathlib.Data.List.TakeDrop
import Mathlib.Logic.Function.Iterate

/-!
# The traversal by a stack

A loop over a stack lists what is below a node: each round lists the top of the stack and pushes its
children, the last one first. What has been listed and what the stack still leads to make up the
same list all along, the one that the recursion over the tree gives. So the loop ends, and it lists
each node behind its parent and directly before all that is below it.
-/
namespace ClassAtlas

/-! ### Recursion over the tree -/

mutual
/-- The places in a tree: its root, then those in its subtrees one after the other. -/
def Tree.places (context : List Crumb) : Tree → List Node
  | .node info children =>
    ⟨.node info children, context⟩ :: Tree.placesAlong info context [] children
/-- The places in a row of siblings whose earlier members are `before`, nearest first. -/
def Tree.placesAlong (parent : NodeInfo) (context : List Crumb) (before : List Tree) :
    List Tree → List Node
  | [] => []
  | tree :: after =>
    Tree.places (⟨parent, before, after⟩ :: context) tree ++
      Tree.placesAlong parent context (tree :: before) after
end

namespace Node

mutual
theorem subtree_eq_places (context : List Crumb) :
    (tree : Tree) → subtree ⟨tree, context⟩ = tree.places context
  | .node info children => by
    rw [Tree.places, ← flatMap_subtree_siblingsFrom, subtree, descendants_eq_flatMap]
    rfl
theorem flatMap_subtree_siblingsFrom (parent : NodeInfo) (context : List Crumb)
    (before : List Tree) : (trees : List Tree) →
      (siblingsFrom parent context before trees).flatMap subtree =
        Tree.placesAlong parent context before trees
  | [] => rfl
  | tree :: after => by
    rw [siblingsFrom, List.flatMap_cons, Tree.placesAlong, subtree_eq_places,
      flatMap_subtree_siblingsFrom]
end

mutual
theorem length_places (context : List Crumb) :
    (tree : Tree) → (tree.places context).length = tree.size
  | .node info children => by
    rw [Tree.places, List.length_cons, length_placesAlong, Tree.size]
theorem length_placesAlong (parent : NodeInfo) (context : List Crumb) (before : List Tree) :
    (trees : List Tree) → (Tree.placesAlong parent context before trees).length = Tree.sizes trees
  | [] => rfl
  | tree :: after => by
    rw [Tree.placesAlong, List.length_append, length_places, length_placesAlong, Tree.sizes]
end

theorem length_subtree (n : Node) : n.subtree.length = n.size := by
  rw [subtree_eq_places, length_places]
  rfl

/-! ### The loop -/

/-- A traversal under way: what it has listed, and a stack whose top is its last member. -/
structure Traversal where
  listed : List Node
  stack : List Node

namespace Traversal

/-- The traversal of what is below a node, before its first round. -/
def start (n : Node) : Traversal := ⟨[], n.children.reverse⟩

/-- One round: the top of the stack is listed, and its children are pushed, the last one first. An
empty stack ends the traversal. -/
def next (t : Traversal) : Traversal :=
  match t.stack.getLast? with
  | none => t
  | some n => ⟨t.listed ++ [n], t.stack.dropLast ++ n.children.reverse⟩

/-- What has been listed, and what the stack leads to from its top down. -/
def order (t : Traversal) : List Node := t.listed ++ preorder t.stack.reverse

/-- A round ends the traversal or lists a node that was due next. -/
theorem next_cases (t : Traversal) :
    (t.stack = [] ∧ t.next = t ∧ t.order = t.listed) ∨
      ∃ n rest, t.stack = rest ++ [n] ∧
        t.next = ⟨t.listed ++ [n], rest ++ n.children.reverse⟩ ∧
        t.order = t.listed ++ n :: preorder (n.children ++ rest.reverse) := by
  obtain ⟨listed, stack⟩ := t
  rcases List.eq_nil_or_concat' stack with rfl | ⟨rest, n, rfl⟩
  · exact .inl ⟨rfl, rfl, by rw [order, List.reverse_nil, preorder_nil, List.append_nil]⟩
  · refine .inr ⟨n, rest, rfl, by simp [next], ?_⟩
    rw [order, List.reverse_append, List.reverse_singleton, List.singleton_append, preorder_cons]

/-- A round changes nothing in the list that comes out in the end. -/
theorem order_next (t : Traversal) : t.next.order = t.order := by
  rcases t.next_cases with ⟨_, same, _⟩ | ⟨n, rest, _, listed, due⟩
  · rw [same]
  · -- Reversing puts the children back in order, the first one on top.
    rw [listed, due, order, List.reverse_append, List.reverse_reverse, List.append_assoc,
      List.singleton_append]

theorem order_start (n : Node) : (start n).order = n.descendants := by
  rw [order, start, List.reverse_reverse, List.nil_append, descendants]

theorem order_iterate_start (n : Node) (rounds : Nat) :
    (next^[rounds] (start n)).order = n.descendants := by
  induction rounds with
  | zero => exact order_start n
  | succ rounds ih => rw [Function.iterate_succ_apply', order_next, ih]

/-- After some rounds as many nodes have been listed as there are rounds, or all of them. -/
theorem listed_iterate (n : Node) (rounds : Nat) :
    (next^[rounds] (start n)).listed = n.descendants.take rounds := by
  induction rounds with
  | zero => rfl
  | succ rounds ih =>
    rw [Function.iterate_succ_apply']
    have kept := order_iterate_start n rounds
    generalize next^[rounds] (start n) = t at ih kept ⊢
    rcases t.next_cases with ⟨_, same, done⟩ | ⟨c, rest, _, listed, due⟩
    · -- All has been listed, so more rounds take no more.
      have all : n.descendants.length ≤ rounds := by
        rw [← List.take_eq_self_iff, ← ih, ← done, kept]
      rw [same, ih, List.take_of_length_le all, List.take_of_length_le (Nat.le_succ_of_le all)]
    · have count : t.listed.length = rounds := by
        have lengths := congrArg List.length ih
        rw [kept] at due
        have longer := congrArg List.length due
        simp only [List.length_take, List.length_append, List.length_cons] at lengths longer
        omega
      rw [listed, ← kept, due, ← count, List.take_length_add_append]
      rfl

/-- The stack is empty when all has been listed, and not before. -/
theorem stack_iterate_eq_nil_iff (n : Node) (rounds : Nat) :
    (next^[rounds] (start n)).stack = [] ↔ n.descendants.length ≤ rounds := by
  have kept := order_iterate_start n rounds
  have listed := listed_iterate n rounds
  rw [← List.take_eq_self_iff, ← listed]
  rcases (next^[rounds] (start n)).next_cases with ⟨empty, _, done⟩ | ⟨c, rest, full, _, due⟩
  · rw [kept] at done
    exact iff_of_true empty done.symm
  · -- The top of the stack is still due, so not all has been listed.
    rw [kept] at due
    refine iff_of_false (by simp [full]) fun all => ?_
    have longer := congrArg List.length due
    rw [all, List.length_append, List.length_cons] at longer
    omega

end Traversal

/-! ### Where a node is listed -/

/-- What is below a node of a subtree is listed in one piece, directly behind the node. -/
theorem subtree_infix {n p : Node} (below : p ∈ n.subtree) : p.subtree <:+: n.subtree := by
  induction n using childInduction with
  | step n ih =>
    obtain rfl | ⟨c, child, inside⟩ := mem_subtree.mp below
    · exact List.infix_rfl
    · -- The piece of the child above it is one of those that make up the list.
      have piece : c.subtree <:+: n.descendants := by
        rw [descendants_eq_flatMap]
        exact List.infix_flatMap_of_mem child subtree
      exact (ih c child inside).trans (piece.trans (List.suffix_cons n _).isInfix)

theorem subtree_nodup (n : Node) : n.subtree.Nodup :=
  n.subtree_pairwise_precedes.imp Precedes.ne

/-- A node stands behind its parent and its earlier siblings, directly before all that is below it,
and its later siblings come behind that. -/
def ListedInPlace (n : Node) (before : List Node) (x : Node) (after : List Node) : Prop :=
  ∃ p earlier later rest, x.parent? = some p ∧ p ∈ n :: before ∧
    p.children = earlier ++ x :: later ∧ earlier ⊆ before ∧
    after = x.descendants ++ rest ∧ later ⊆ rest

theorem listedInPlace {n x : Node} {before after : List Node}
    (split : n.descendants = before ++ x :: after) : n.ListedInPlace before x after := by
  have below : x ∈ n.descendants := split ▸ List.mem_append_right _ List.mem_cons_self
  obtain ⟨p, inside, child⟩ := exists_parent below
  obtain ⟨earlier, later, children⟩ := List.append_of_mem child
  obtain ⟨front, back, pieces⟩ := subtree_infix inside
  -- The list, cut at the parent and at its children.
  have cut : n :: before ++ x :: after =
      (front ++ p :: earlier.flatMap subtree) ++
        x :: (x.descendants ++ (later.flatMap subtree ++ back)) := by
    rw [List.cons_append, ← split, ← subtree, ← pieces, subtree, descendants_eq_flatMap, children,
      List.flatMap_append, List.flatMap_cons, subtree]
    simp
  have once : (x :: (front ++ p :: earlier.flatMap subtree ++
      (x.descendants ++ (later.flatMap subtree ++ back)))).Nodup := by
    rw [← List.nodup_middle, ← cut, List.cons_append, ← split]
    exact n.subtree_nodup
  have absent := (List.nodup_cons.mp once).1
  rw [List.mem_append, not_or] at absent
  -- The node is in the list only once, so both cuts are the same.
  obtain ⟨prefixes, _, rfl⟩ := (List.append_cons_inj_of_notMem absent.1 absent.2).mp cut.symm
  have above : p ∈ n :: before := prefixes ▸ List.mem_append_right front List.mem_cons_self
  have earlierListed : earlier.flatMap subtree ⊆ before := by
    rcases List.cons_eq_append_iff.mp prefixes.symm with ⟨_, same⟩ | ⟨between, _, rfl⟩
    · exact (List.cons.inj same).2 ▸ List.Subset.refl _
    · exact List.subset_append_of_subset_right between (List.subset_cons_self p _)
  refine ⟨p, earlier, later, later.flatMap subtree ++ back, parent?_of_mem_children child,
    above, children, ?_, rfl, ?_⟩
  · exact fun s member => earlierListed (List.mem_flatMap.mpr ⟨s, member, s.mem_subtree_self⟩)
  · exact fun s member =>
      List.mem_append_left back (List.mem_flatMap.mpr ⟨s, member, s.mem_subtree_self⟩)

/-- The traversal by a stack lists the nodes below a node one a round and then ends; it lists
exactly these nodes, each once, as the recursion over the tree does, and each in its place. -/
theorem descendants_inDocumentOrder (n : Node) :
    (∀ rounds, (Traversal.next^[rounds] (.start n)).listed = n.descendants.take rounds ∧
      ((Traversal.next^[rounds] (.start n)).stack = [] ↔ n.size ≤ rounds + 1)) ∧
    n.focus.places n.context = n :: n.descendants ∧
    n.descendants.Nodup ∧
    (∀ x, x ∈ n.descendants ↔ n ∈ x.ancestors) ∧
    ∀ before x after, n.descendants = before ++ x :: after → n.ListedInPlace before x after := by
  have count : n.descendants.length + 1 = n.size := n.length_subtree
  refine ⟨fun rounds => ⟨Traversal.listed_iterate n rounds, ?_⟩, (subtree_eq_places _ _).symm,
    n.descendants_nodup, fun _ => mem_ancestors_iff.symm, fun _ _ _ => listedInPlace⟩
  rw [Traversal.stack_iterate_eq_nil_iff, ← count, Nat.add_le_add_iff_right]

end Node

end ClassAtlas
