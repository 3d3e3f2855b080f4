import ClassAtlas.Proofs.Syntax.Order

/-!
# Ancestors and document order

The nodes below a node are those that have it among their ancestors. They are listed in document
order: a node before those below it, and what is below an earlier child before what is below a later
one.
-/
namespace ClassAtlas.Node

/-! ### Ancestors -/

theorem mem_siblingsFrom (parent : NodeInfo) (context : List Crumb) (tree : Tree)
    (before left right : List Tree) :
    ⟨tree, ⟨parent, left.reverse ++ before, right⟩ :: context⟩ ∈
      siblingsFrom parent context before (left ++ tree :: right) := by
  induction left generalizing before with
  | nil => exact List.mem_cons_self
  | cons first rest ih =>
    rw [List.reverse_cons, List.append_assoc, List.singleton_append]
    exact List.mem_cons_of_mem _ (ih (first :: before))

theorem mem_children_iff {n c : Node} : c ∈ n.children ↔ c.parent? = some n := by
  constructor
  · exact parent?_of_mem_children
  · intro parent
    obtain ⟨focus, context⟩ := c
    cases context with
    | nil => cases parent
    | cons crumb outer =>
      cases parent
      -- Going up keeps the siblings before the node, so going down finds it after them.
      have found := mem_siblingsFrom crumb.parent outer focus [] crumb.before.reverse crumb.after
      rwa [List.reverse_reverse, List.append_nil] at found

theorem ancestors_suffix {x y : Node} (above : y ∈ x.ancestors) :
    y :: y.ancestors <:+ x.ancestors := by
  obtain ⟨focus, context⟩ := x
  induction context generalizing focus with
  | nil => cases above
  | cons crumb outer ih =>
    let parent : Node := ⟨parentTree crumb focus, outer⟩
    have upward : ancestors ⟨focus, crumb :: outer⟩ = parent :: parent.ancestors := rfl
    rw [upward] at above ⊢
    obtain rfl | further := List.mem_cons.mp above
    · exact List.suffix_rfl
    · exact (ih _ further).trans (List.suffix_cons _ _)

theorem mem_ancestors_iff {n x : Node} : n ∈ x.ancestors ↔ x ∈ n.descendants := by
  constructor
  · intro above
    obtain ⟨focus, context⟩ := x
    induction context generalizing focus with
    | nil => cases above
    | cons crumb outer ih =>
      let parent : Node := ⟨parentTree crumb focus, outer⟩
      have child : ⟨focus, crumb :: outer⟩ ∈ parent.children := mem_children_iff.mpr rfl
      obtain rfl | further := List.mem_cons.mp above
      · exact mem_descendants_of_mem_children parent.mem_subtree_self child
      · have below : parent ∈ n.subtree := List.mem_cons_of_mem n (ih _ further)
        exact mem_descendants_of_mem_children below child
  · intro below
    induction n using childInduction with
    | step n ih =>
      obtain ⟨c, child, inside⟩ := mem_descendants.mp below
      have above : n ∈ c.ancestors := ancestors_of_mem_children child ▸ List.mem_cons_self
      obtain rfl | deeper := List.mem_cons.mp inside
      · exact above
      · exact (ancestors_suffix (ih c child deeper)).subset (List.mem_cons_of_mem c above)

theorem mem_subtree_iff {n x : Node} : x ∈ n.subtree ↔ x = n ∨ n ∈ x.ancestors := by
  rw [subtree, List.mem_cons, mem_ancestors_iff]

/-! ### Document order -/

/-- The way to a node from the root: the number of the child to go to on each level. -/
def route (n : Node) : List Nat := n.address.reverse

/-- The first node comes before the second one in document order. -/
def Precedes (x y : Node) : Prop := x.route < y.route

theorem Precedes.ne {x y : Node} (before : x.Precedes y) : x ≠ y := by
  rintro rfl
  exact List.lt_irrefl _ before

theorem route_below_child {n c x : Node} {i : Nat} (child : n.children[i]? = some c)
    (below : x ∈ c.subtree) : ∃ further, x.route = n.route ++ i :: further := by
  obtain ⟨front, address⟩ := address_suffix below
  rw [(children_getElem? child).1] at address
  refine ⟨front.reverse, ?_⟩
  rw [route, route, ← address]
  simp

theorem precedes_of_mem_descendants {n x : Node} (below : x ∈ n.descendants) : n.Precedes x := by
  obtain ⟨c, child, inside⟩ := mem_descendants.mp below
  obtain ⟨i, found⟩ := List.mem_iff_getElem?.mp child
  obtain ⟨further, route⟩ := route_below_child found inside
  have longer : n.route ++ [] < n.route ++ i :: further :=
    List.append_left_lt (List.nil_lt_cons i further)
  rwa [List.append_nil, ← route] at longer

theorem precedes_of_siblings {n c c' x x' : Node} {i i' : Nat} (child : n.children[i]? = some c)
    (child' : n.children[i']? = some c') (before : i < i') (below : x ∈ c.subtree)
    (below' : x' ∈ c'.subtree) : x.Precedes x' := by
  obtain ⟨further, route⟩ := route_below_child child below
  obtain ⟨further', route'⟩ := route_below_child child' below'
  rw [Precedes, route, route']
  exact List.append_left_lt (List.cons_lt_cons_iff.mpr (.inl before))

theorem subtree_pairwise_precedes (n : Node) : n.subtree.Pairwise Precedes := by
  induction n using childInduction with
  | step n ih =>
    rw [subtree, List.pairwise_cons]
    refine ⟨fun x below => precedes_of_mem_descendants below, ?_⟩
    -- Below the node come the subtrees of its children, each in order and one after the other.
    rw [descendants_eq_flatMap, List.pairwise_flatMap]
    refine ⟨ih, List.pairwise_iff_getElem.mpr ?_⟩
    intro i i' known known' before x below x' below'
    exact precedes_of_siblings (List.getElem?_eq_getElem known) (List.getElem?_eq_getElem known')
      before below below'

theorem descendants_pairwise_precedes (n : Node) : n.descendants.Pairwise Precedes :=
  (List.pairwise_cons.mp n.subtree_pairwise_precedes).2

end ClassAtlas.Node
