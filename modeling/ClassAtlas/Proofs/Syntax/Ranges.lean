import ClassAtlas.Proofs.Syntax.Address

/-!
# Ranges

Where the children of every node lie in its range, one after the other, ranges tell how nodes stand
in the tree: what is below a node is within its range, and two nodes of which neither is below the
other at most touch.
-/
namespace ClassAtlas.Node

/-- The children of the node are within its range, in order and without overlap. -/
structure RangesFit (p : Node) : Prop where
  forward : p.start ≤ p.stop
  within : ∀ c ∈ p.children, p.start ≤ c.start ∧ c.stop ≤ p.stop
  apart : p.children.Pairwise fun c c' => c.stop ≤ c'.start

instance (p : Node) : Decidable p.RangesFit :=
  decidable_of_iff (p.start ≤ p.stop ∧ (∀ c ∈ p.children, p.start ≤ c.start ∧ c.stop ≤ p.stop) ∧
      p.children.Pairwise fun c c' => c.stop ≤ c'.start)
    ⟨fun ⟨forward, within, apart⟩ => ⟨forward, within, apart⟩,
      fun fit => ⟨fit.forward, fit.within, fit.apart⟩⟩

/-- The ranges fit in the whole subtree. -/
def RangesNested (root : Node) : Prop := ∀ p ∈ root.subtree, p.RangesFit

instance (root : Node) : Decidable root.RangesNested := inferInstanceAs (Decidable (∀ _ ∈ _, _))

/-! ### Parents and siblings -/

theorem exists_parent {n x : Node} (below : x ∈ n.descendants) :
    ∃ p ∈ n.subtree, x ∈ p.children := by
  induction n using childInduction with
  | step n ih =>
    obtain ⟨c, child, inside⟩ := mem_descendants.mp below
    rw [subtree, List.mem_cons] at inside
    obtain rfl | deeper := inside
    · exact ⟨n, n.mem_subtree_self, child⟩
    · obtain ⟨p, within, own⟩ := ih c child deeper
      exact ⟨p, subtree_subset_of_mem_children child within, own⟩

/-- Of two members of a list one comes first, unless they are equal. -/
theorem pair_sublist {α : Type} {a b : α} {l : List α} (first : a ∈ l) (second : b ∈ l) :
    a = b ∨ [a, b].Sublist l ∨ [b, a].Sublist l := by
  induction l with
  | nil => cases first
  | cons x rest ih =>
    rcases List.mem_cons.mp first with rfl | later
    · rcases List.mem_cons.mp second with rfl | later'
      · exact .inl rfl
      · exact .inr (.inl ((List.singleton_sublist.mpr later').cons_cons _))
    · rcases List.mem_cons.mp second with rfl | later'
      · exact .inr (.inr ((List.singleton_sublist.mpr later).cons_cons _))
      · rcases ih later later' with same | before | after
        · exact .inl same
        · exact .inr (.inl (before.cons _))
        · exact .inr (.inr (after.cons _))

/-! ### Nested ranges -/

namespace RangesNested

variable {root p x y : Node}

theorem of_mem_subtree (nested : root.RangesNested) (below : p ∈ root.subtree) : p.RangesNested :=
  fun _ inside => nested _ (subtree_subset_of_mem_subtree below inside)

theorem of_mem_children (nested : p.RangesNested) (child : x ∈ p.children) : x.RangesNested :=
  nested.of_mem_subtree (subtree_subset_of_mem_children child x.mem_subtree_self)

theorem forward (nested : root.RangesNested) (below : x ∈ root.subtree) : x.start ≤ x.stop :=
  (nested x below).forward

/-- What is below a node is within its range. -/
theorem within (nested : p.RangesNested) (below : x ∈ p.subtree) :
    p.start ≤ x.start ∧ x.stop ≤ p.stop := by
  induction p using childInduction with
  | step p ih =>
    obtain rfl | ⟨c, child, inside⟩ := mem_subtree.mp below
    · exact ⟨Nat.le_refl _, Nat.le_refl _⟩
    · obtain ⟨starts, stops⟩ := (nested p p.mem_subtree_self).within c child
      obtain ⟨starts', stops'⟩ := ih c child (nested.of_mem_children child) inside
      exact ⟨Nat.le_trans starts starts', Nat.le_trans stops' stops⟩

/-- What is below a sibling comes before what is below a later one. -/
theorem before {c c' : Node} (nested : p.RangesNested) (order : [c, c'].Sublist p.children)
    (below : x ∈ c.subtree) (below' : y ∈ c'.subtree) : x.stop ≤ y.start := by
  have child : c ∈ p.children := order.subset List.mem_cons_self
  have child' : c' ∈ p.children := order.subset (List.mem_cons_of_mem _ List.mem_cons_self)
  have pair := (nested p p.mem_subtree_self).apart.sublist order
  have apart : c.stop ≤ c'.start := List.rel_of_pairwise_cons pair List.mem_cons_self
  have ends := ((nested.of_mem_children child).within below).2
  have begins := ((nested.of_mem_children child').within below').1
  omega

/-- Of two nodes one is below the other, or one comes after the other. -/
theorem cases (nested : root.RangesNested) (below : x ∈ root.subtree) (below' : y ∈ root.subtree) :
    x ∈ y.subtree ∨ y ∈ x.subtree ∨ x.stop ≤ y.start ∨ y.stop ≤ x.start := by
  induction root using childInduction with
  | step p ih =>
    obtain rfl | ⟨c, child, inside⟩ := mem_subtree.mp below
    · exact .inr (.inl below')
    obtain rfl | ⟨c', child', inside'⟩ := mem_subtree.mp below'
    · exact .inl below
    rcases pair_sublist child child' with rfl | order | order
    · exact ih c child (nested.of_mem_children child) inside inside'
    · exact .inr (.inr (.inl (nested.before order inside inside')))
    · exact .inr (.inr (.inr (nested.before order inside' inside)))

/-- What is below the parent of a node and comes after the node is below a later sibling. -/
theorem exists_later {s : Node} (nested : p.RangesNested) (child : s ∈ p.children)
    (below : x ∈ p.descendants) (visible : x.start < x.stop) (after : s.stop ≤ x.start) :
    ∃ c, [s, c].Sublist p.children ∧ x ∈ c.subtree := by
  obtain ⟨c, child', inside⟩ := mem_descendants.mp below
  have forward := (nested.of_mem_children child).forward s.mem_subtree_self
  rcases pair_sublist child child' with rfl | order | order
  · have ends := ((nested.of_mem_children child).within inside).2
    omega
  · exact ⟨c, order, inside⟩
  · have ends := nested.before order inside s.mem_subtree_self
    omega

end RangesNested

end ClassAtlas.Node
