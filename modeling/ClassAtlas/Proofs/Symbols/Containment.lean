import ClassAtlas.Proofs.Symbols.Scopes

/-!
# Scopes and ranges

Where ranges are nested, the scopes that enclose the start of a token are those that the token is in
and those that end where it begins. If there are none of the latter, they are found from the outside
to the inside, as the tree has them.
-/
namespace ClassAtlas

namespace Node

/-! ### Ranges of scopes -/

theorem parent_mem_subtree {tree : Tree} {p s : Node} (below : s ∈ (Node.root tree).subtree)
    (child : s ∈ p.children) : p ∈ (Node.root tree).subtree := by
  obtain rfl | inside := List.mem_cons.mp below
  · exact absurd child root_not_mem_children
  · obtain ⟨q, within, child'⟩ := exists_parent inside
    rwa [parent_unique child child']

theorem scopeStop_of_isFileSpace {p s : Node} (space : s.isFileSpace = true)
    (child : s ∈ p.children) : s.scopeStop = p.stop := by
  rw [scopeStop, if_pos space, parent?_of_mem_children child, Option.map_some, Option.getD_some]

theorem scopeStop_of_not_isFileSpace {s : Node} (block : s.isFileSpace = false) :
    s.scopeStop = s.stop := by
  rw [scopeStop, if_neg (by rw [block]; exact Bool.false_ne_true)]

/-- A scope does not end before its node, and ends with what that is in at the latest. -/
theorem RangesNested.scopeStop_bounds {p s : Node} (nested : p.RangesNested)
    (below : s ∈ p.descendants) : s.stop ≤ s.scopeStop ∧ s.scopeStop ≤ p.stop := by
  obtain ⟨q, within, child⟩ := exists_parent below
  have ends := ((nested q within).within s child).2
  have outer := (nested.within within).2
  cases space : s.isFileSpace with
  | true => rw [scopeStop_of_isFileSpace space child]; omega
  | false => rw [scopeStop_of_not_isFileSpace space]; omega

theorem mem_subtree_of_leaf {n x : Node} (leaf : n.children = []) (under : x ∈ n.subtree) :
    x = n := by
  rw [subtree, descendants, leaf, preorder_nil] at under
  exact List.mem_singleton.mp under

section

variable {tree : Tree} {s t n : Node} (nested : (Node.root tree).RangesNested)
include nested

theorem stop_le_scopeStop (below : s ∈ (Node.root tree).subtree) : s.stop ≤ s.scopeStop := by
  obtain rfl | inside := List.mem_cons.mp below
  · exact Nat.le_of_eq (scopeStop_root tree).symm
  · exact (nested.scopeStop_bounds inside).1

/-- The range of a scope has in it the nodes in the scope, and the scopes of these. -/
theorem range_of_inScopeOf (below : s ∈ (Node.root tree).subtree) (inside : t.InScopeOf s) :
    s.start ≤ t.start ∧ t.stop ≤ s.scopeStop ∧ t.scopeStop ≤ s.scopeStop := by
  have ends := stop_le_scopeStop nested below
  have own := nested.of_mem_subtree below
  rcases inside with under | ⟨space, p, c, order, under⟩
  · obtain ⟨starts, stops⟩ := own.within under
    obtain rfl | deeper := List.mem_cons.mp under
    · omega
    · have inner := (own.scopeStop_bounds deeper).2
      omega
  · have child : s ∈ p.children := order.subset List.mem_cons_self
    have child' : c ∈ p.children := order.subset (List.mem_cons_of_mem _ List.mem_cons_self)
    have around := nested.of_mem_subtree (parent_mem_subtree below child)
    have deeper : t ∈ p.descendants := mem_descendants.mpr ⟨c, child', under⟩
    have after := around.before order s.mem_subtree_self under
    have inner := around.scopeStop_bounds deeper
    have stops := (around.within (List.mem_cons_of_mem p deeper)).2
    have forward := own.forward s.mem_subtree_self
    rw [scopeStop_of_isFileSpace space child]
    omega

/-- What comes after a file-scoped namespace, before its scope ends, is in its scope. -/
theorem inScopeOf_fileSpace (recorded : s ∈ (Node.root tree).subtree)
    (space : s.isFileSpace = true) (below : n ∈ (Node.root tree).subtree) (leaf : n.children = [])
    (visible : n.start < n.stop) (after : s.stop ≤ n.start) (before : n.start < s.scopeStop) :
    n.InScopeOf s := by
  obtain rfl | inside := List.mem_cons.mp recorded
  · rw [scopeStop_root] at before
    omega
  obtain ⟨p, within, child⟩ := exists_parent inside
  have starts := ((nested p within).within s child).1
  have forward := nested.forward recorded
  rw [scopeStop_of_isFileSpace space child] at before
  rcases nested.cases below within with under | around | earlier | later
  · obtain rfl | deeper := List.mem_cons.mp under
    · rw [leaf] at child
      cases child
    · exact .inr ⟨space, p, (nested.of_mem_subtree within).exists_later child deeper visible after⟩
  · rw [mem_subtree_of_leaf leaf around, leaf] at child
    cases child
  · omega
  · omega

/-- The scopes that enclose the start of a token are those that it is in and those that end there.
-/
theorem encloses_start_iff (recorded : s ∈ (Node.root tree).subtree)
    (below : n ∈ (Node.root tree).subtree) (leaf : n.children = []) (visible : n.start < n.stop) :
    s.start ≤ n.start ∧ n.start ≤ s.scopeStop ↔ n.InScopeOf s ∨ s.scopeStop = n.start := by
  have ends := stop_le_scopeStop nested recorded
  have forward := nested.forward recorded
  constructor
  · rintro ⟨starts, stops⟩
    by_cases touching : s.scopeStop = n.start
    · exact .inr touching
    refine .inl ?_
    rcases nested.cases below recorded with under | around | earlier | later
    · exact .inl under
    · rw [mem_subtree_of_leaf leaf around]
      exact .inl n.mem_subtree_self
    · omega
    -- After the namespace its scope goes on only if it is a file-scoped one.
    · cases space : s.isFileSpace with
      | true => exact inScopeOf_fileSpace nested recorded space below leaf visible later (by omega)
      | false =>
        rw [scopeStop_of_not_isFileSpace space] at stops touching
        omega
  · rintro (inside | touching)
    · have := range_of_inScopeOf nested recorded inside
      omega
    · omega

end

/-! ### The order of scopes -/

/-- A later namespace is in the scope of an earlier one, or begins where that ends or after it. -/
theorem spaceNodes_ordered {p : Node} {pending : List Node} (nested : p.RangesNested)
    (among : pending.Sublist p.children) :
    (spaceNodes pending).Pairwise fun s t => t.InScopeOf s ∨ s.scopeStop ≤ t.start := by
  induction pending using spaceNodes.induct generalizing p with
  | case1 =>
    rw [spaceNodes_nil]
    exact .nil
  | case2 n rest inner later =>
    obtain ⟨q, within, among'⟩ := n.exists_container
    have child : n ∈ p.children := among.subset List.mem_cons_self
    have own := nested.of_mem_children child
    -- What is found later is below a later sibling of the node.
    have after {t : Node} (listed : t ∈ spaceNodes rest) :
        ∃ c, [n, c].Sublist p.children ∧ t ∈ c.subtree := by
      obtain ⟨c, member, below⟩ := exists_pending listed
      exact ⟨c, ((List.singleton_sublist.mpr member).cons_cons n).trans among, below⟩
    rw [spaceNodes_cons]
    refine List.pairwise_append.mpr ⟨(List.pairwise_singleton _ n).filter _, ?_, ?_⟩
    · refine List.pairwise_append.mpr ⟨inner (own.of_mem_subtree within) among',
        later nested ((List.sublist_cons_self n rest).trans among), ?_⟩
      intro s inside t listed
      obtain ⟨c, order, below⟩ := after listed
      have ends := (own.scopeStop_bounds (mem_descendants_of_spaceNodes inside)).2
      have begins := nested.before order n.mem_subtree_self below
      exact .inr (Nat.le_trans ends begins)
    · intro s self t listed
      obtain rfl := List.mem_singleton.mp (List.mem_filter.mp self).1
      rcases List.mem_append.mp listed with inside | listed
      · exact .inl (.inl (List.mem_cons_of_mem s (mem_descendants_of_spaceNodes inside)))
      · obtain ⟨c, order, below⟩ := after listed
        cases space : s.isFileSpace with
        | true => exact .inl (.inr ⟨space, p, c, order, below⟩)
        | false =>
          rw [scopeStop_of_not_isFileSpace space]
          exact .inr (nested.before order s.mem_subtree_self below)

theorem scopeNodes_ordered {root : Node} (nested : root.RangesNested) :
    root.scopeNodes.Pairwise fun s t => t.InScopeOf s ∨ s.scopeStop ≤ t.start := by
  refine List.pairwise_cons.mpr ⟨fun s listed => ?_,
    spaceNodes_ordered nested List.filter_sublist⟩
  exact .inl (.inl (List.mem_cons_of_mem root (mem_descendants_of_scopeNodes listed)))

end Node

/-! ### The scopes at a token -/

/-- The scopes found are those that a token is in, apart from scopes that end where it begins. -/
structure FoundAt (root n : Node) (found : List (Node × NamespaceScope)) : Prop where
  recorded : found.Sublist (recordedScopes root)
  exactly : ∀ r ∈ recordedScopes root, r ∈ found ↔ n.InScopeOf r.1 ∨ r.1.scopeStop = n.start
  all : ((SymbolTable.ofRoot root).scopesAt n.start).Perm (found.map Prod.snd)
  /-- They are found from the outside to the inside if no scope ends there. -/
  nested : (∀ s ∈ root.scopeNodes, s.scopeStop ≠ n.start) →
    (SymbolTable.ofRoot root).scopesAt n.start = found.map Prod.snd ∧
      found.Pairwise fun outer inner => inner.1.InScopeOf outer.1

section

variable {tree : Tree} {n : Node}

theorem mem_subtree_of_recorded {root : Node} {r : Node × NamespaceScope}
    (recorded : r ∈ recordedScopes root) : r.1 ∈ root.scopeNodes ∧ r.1 ∈ root.subtree := by
  have listed : r.1 ∈ root.scopeNodes :=
    map_fst_recordedScopes root ▸ List.mem_map_of_mem recorded
  refine ⟨listed, ?_⟩
  rcases List.mem_cons.mp listed with same | inside
  · rw [same]
    exact root.mem_subtree_self
  · exact List.mem_cons_of_mem root (Node.mem_descendants_of_scopeNodes inside)

/-- Scopes of which each is inside the one before it are already sorted by length. -/
theorem pairwise_length_of_inScopeOf (nested : (Node.root tree).RangesNested)
    {found : List (Node × NamespaceScope)} (recorded : found.Sublist (recordedScopes (.root tree)))
    (inside : found.Pairwise fun outer inner => inner.1.InScopeOf outer.1) :
    (found.map Prod.snd).Pairwise fun left right =>
      decide (right.stop - right.start ≤ left.stop - left.start) = true := by
  refine List.pairwise_map.mpr (inside.imp_of_mem fun {r r'} member member' within => ?_)
  obtain ⟨starts, stops⟩ := range_of_recorded (recorded.subset member)
  obtain ⟨starts', stops'⟩ := range_of_recorded (recorded.subset member')
  have below := (mem_subtree_of_recorded (recorded.subset member)).2
  obtain ⟨after, -, before⟩ := Node.range_of_inScopeOf nested below within
  rw [decide_eq_true_eq, starts, stops, starts', stops']
  omega

theorem exists_foundAt (nested : (Node.root tree).RangesNested)
    (below : n ∈ (Node.root tree).subtree) (leaf : n.children = []) (visible : n.start < n.stop) :
    ∃ found, FoundAt (.root tree) n found := by
  let found := (recordedScopes (.root tree)).filter fun r =>
    decide (r.2.start ≤ n.start) && decide (n.start ≤ r.2.stop)
  have recorded : found.Sublist (recordedScopes (.root tree)) := List.filter_sublist
  have encloses {r : Node × NamespaceScope} (member : r ∈ recordedScopes (.root tree)) :
      r ∈ found ↔ r.1.start ≤ n.start ∧ n.start ≤ r.1.scopeStop := by
    obtain ⟨starts, stops⟩ := range_of_recorded member
    rw [List.mem_filter, and_iff_right member, Bool.and_eq_true, decide_eq_true_eq,
      decide_eq_true_eq, starts, stops]
  have exactly : ∀ r ∈ recordedScopes (.root tree),
      r ∈ found ↔ n.InScopeOf r.1 ∨ r.1.scopeStop = n.start := by
    intro r member
    rw [encloses member]
    exact Node.encloses_start_iff nested (mem_subtree_of_recorded member).2 below leaf visible
  have all : (SymbolTable.ofRoot (.root tree)).scopesAt n.start =
      (found.map Prod.snd).mergeSort fun left right =>
        decide (right.stop - right.start ≤ left.stop - left.start) := by
    rw [SymbolTable.scopesAt, ← map_snd_recordedScopes, List.filter_map]
    rfl
  refine ⟨found, recorded, exactly, all ▸ List.mergeSort_perm _ _, fun apart => ?_⟩
  have inside : found.Pairwise fun outer inner => inner.1.InScopeOf outer.1 := by
    have ordered := Node.scopeNodes_ordered nested
    rw [← map_fst_recordedScopes, List.pairwise_map] at ordered
    refine (ordered.sublist recorded).imp_of_mem fun {r r'} member member' order => ?_
    -- A scope that ends before another one begins would end where the token begins.
    refine order.resolve_right fun earlier => ?_
    have listed := recorded.subset member
    have ends := ((encloses listed).mp member).2
    have begins := ((encloses (recorded.subset member')).mp member').1
    exact apart r.1 (mem_subtree_of_recorded listed).1 (by omega)
  refine ⟨?_, inside⟩
  rw [all, List.mergeSort_of_pairwise (pairwise_length_of_inScopeOf nested recorded inside)]

end

end ClassAtlas
