import ClassAtlas.Proofs.Symbols.Merging
import ClassAtlas.Proofs.Syntax.Order

/-!
# Recorded declarations

The declarations of a file are different nodes in document order, so each of them belongs to one
type of the table: the one with its key. Two declarations are merged exactly when their dotted paths
and their numbers of type parameters agree.
-/
namespace ClassAtlas

namespace Node

theorem members_sublist (n : Node) : ∃ p ∈ n.subtree, n.members.Sublist p.children := by
  unfold members
  cases found : n.body? with
  | none => exact ⟨n, n.mem_subtree_self, List.nil_sublist _⟩
  | some body =>
    have child : body ∈ n.children := mem_children_of_childOrKind? found
    exact ⟨body, subtree_subset_of_mem_children child body.mem_subtree_self, List.filter_sublist⟩

theorem namedChildren_sublist (n : Node) : ∃ p ∈ n.subtree, n.namedChildren.Sublist p.children :=
  ⟨n, n.mem_subtree_self, List.filter_sublist⟩

theorem preorder_searched {n : Node} {inside : List Node}
    (searched : ∃ p ∈ n.subtree, inside.Sublist p.children) :
    (preorder inside).Sublist n.descendants := by
  obtain ⟨p, part, siblings⟩ := searched
  exact (preorder_sublist siblings).trans (descendants_sublist part)

/-- What is found is found in document order. -/
theorem Outlined.sublist {space? : Option String} {container? : Option TypeKey}
    {pending : List Node} {ds : List TypeDeclaration}
    (outlined : Outlined space? container? pending ds) :
    (ds.map TypeDeclaration.node).Sublist (preorder pending) := by
  induction outlined with
  | nil =>
    rw [preorder_nil]
    exact List.Sublist.refl []
  | @skip _ _ n rest _ _ _ later =>
    rw [preorder_cons_eq_append]
    exact (later.trans (List.sublist_append_right _ _)).cons n
  | @space _ _ n _ _ _ _ _ _ _ _ inner later =>
    rw [preorder_cons_eq_append, List.map_append]
    exact ((inner.trans (preorder_searched n.members_sublist)).append later).cons n
  | @fileSpace _ _ n _ _ _ _ _ _ _ _ inner later
  | @part _ _ n _ _ _ _ _ _ inner later =>
    rw [preorder_cons_eq_append, List.map_append]
    exact ((inner.trans (preorder_searched n.namedChildren_sublist)).append later).cons n
  | @type _ _ n d _ _ _ _ declares _ _ inner later =>
    -- The declaration itself comes before everything in it.
    obtain ⟨own, -⟩ := typeDeclaration?_eq_some declares
    rw [preorder_cons_eq_append, List.map_cons, List.map_append, own]
    exact ((inner.trans (preorder_searched n.members_sublist)).append later).cons_cons n

theorem declarations_sublist (root : Node) :
    (root.declarations.map TypeDeclaration.node).Sublist root.descendants :=
  root.declarations_outlined.sublist.trans (preorder_sublist List.filter_sublist)

theorem declarations_addresses_nodup (root : Node) :
    (root.declarations.map fun d => d.node.address).Nodup := by
  have different := root.descendants_address_nodup.sublist (root.declarations_sublist.map address)
  rwa [List.map_map] at different

theorem mem_subtree_of_mem_declarations {root : Node} {d : TypeDeclaration}
    (recorded : d ∈ root.declarations) : d.node ∈ root.subtree :=
  List.mem_cons_of_mem root (root.declarations_sublist.subset (List.mem_map_of_mem recorded))

end Node

theorem eq_of_recorded_address {root : Node} {d e : TypeDeclaration}
    (recorded : d ∈ root.declarations) (recorded' : e ∈ root.declarations)
    (same : d.node.address = e.node.address) : d = e :=
  List.inj_on_of_nodup_map root.declarations_addresses_nodup recorded recorded' same

namespace SymbolTable

/-- The declarations of a type are the recorded ones with its key. -/
theorem mem_declarations_iff {root : Node} {id : TypeId} {s : TypeSymbol}
    (there : (ofRoot root).types[id]? = some s) {n : Node} :
    n ∈ s.declarations ↔ ∃ d ∈ root.declarations, d.key = s.key ∧ d.node = n := by
  rw [(merges_ofRoot root).parts there]
  simp [and_assoc]

theorem declaredBy?_of_recorded {root : Node} {d : TypeDeclaration}
    (recorded : d ∈ root.declarations) :
    (ofRoot root).declaredBy? d.node = idOf? (ofRoot root).types d.key := by
  have merges := merges_ofRoot root
  obtain ⟨s, member, key⟩ :=
    List.mem_map.mp ((merges.keys d.key).mpr (List.mem_map_of_mem recorded))
  obtain ⟨id, there⟩ := List.mem_iff_getElem?.mp member
  have part : d.node ∈ s.declarations :=
    (mem_declarations_iff there).mpr ⟨d, recorded, key.symm, rfl⟩
  obtain ⟨found, declared⟩ :=
    Option.ne_none_iff_exists'.mp ((ofRoot root).byAddress_total id s there d.node part)
  -- A node declares only one thing, so what is found at its address has its key.
  obtain ⟨s', there', n, part', same⟩ := (ofRoot root).byAddress_sound _ found declared
  obtain ⟨e, recorded', key', rfl⟩ := (mem_declarations_iff there').mp part'
  obtain rfl := eq_of_recorded_address recorded recorded' same.symm
  rw [declaredBy?, declared, key', idOf?_key merges.different there']

/-- The nodes that declare a type of the table are those of the recorded declarations. -/
theorem declaredBy?_isSome_iff {root n : Node} (below : n ∈ root.subtree) :
    ((ofRoot root).declaredBy? n).isSome ↔ ∃ d ∈ root.declarations, d.node = n := by
  constructor
  · intro declared
    obtain ⟨id, declared⟩ := Option.isSome_iff_exists.mp declared
    obtain ⟨s, there, part, own, same⟩ := (ofRoot root).byAddress_sound _ id declared
    obtain ⟨d, recorded, -, rfl⟩ := (mem_declarations_iff there).mp own
    have inside := Node.mem_subtree_of_mem_declarations recorded
    exact ⟨d, recorded, Node.eq_of_address inside below same⟩
  · rintro ⟨d, recorded, rfl⟩
    have known := ((merges_ofRoot root).keys d.key).mpr (List.mem_map_of_mem recorded)
    rw [declaredBy?_of_recorded recorded, ← Option.ne_none_iff_isSome]
    exact fun absent => idOf?_eq_none_iff.mp absent known

/-- Two recorded declarations declare the same type exactly when they have the same key. -/
theorem declaredBy?_eq_iff {root : Node} {d e : TypeDeclaration}
    (recorded : d ∈ root.declarations) (recorded' : e ∈ root.declarations) :
    (ofRoot root).declaredBy? d.node = (ofRoot root).declaredBy? e.node ↔ d.key = e.key := by
  rw [declaredBy?_of_recorded recorded, declaredBy?_of_recorded recorded']
  constructor
  · intro same
    -- A type with the key is in the table, so the search for it finds one.
    have declared := ((merges_ofRoot root).keys d.key).mpr (List.mem_map_of_mem recorded)
    obtain absent | ⟨id, found⟩ := Option.eq_none_or_eq_some (idOf? (ofRoot root).types d.key)
    · exact absurd declared (idOf?_eq_none_iff.mp absent)
    · obtain ⟨s, there, key⟩ := idOf?_eq_some found
      obtain ⟨s', there', key'⟩ := idOf?_eq_some (same ▸ found)
      rw [← key, ← key', Option.some.inj (there.symm.trans there')]
  · intro same
    rw [same]

end SymbolTable

end ClassAtlas
