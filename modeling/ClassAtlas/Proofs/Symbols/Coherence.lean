import ClassAtlas.Extraction.Describe
import ClassAtlas.Proofs.Symbols.FullName
import ClassAtlas.Proofs.Symbols.Recorded

/-!
# Coherence of the symbol table

Whatever the source, its types, the ways to find them and their declarations agree. What is said of
a type holds of its declarations taken together, and everything is listed in document order.
-/
namespace ClassAtlas

/-- A type has the modifiers that some of its declarations have. -/
def TypeSymbol.IsModified (s : TypeSymbol) : Prop :=
  s.isStatic = s.declarations.any (fun n => n.hasModifier "static") ∧
    s.isAbstract = s.declarations.any fun n => n.hasModifier "abstract"

theorem TypeSymbol.isModified_ofDeclaration (container? : Option TypeId) (d : TypeDeclaration) :
    (ofDeclaration container? d).IsModified := by
  simp [IsModified, ofDeclaration, declarations]

theorem TypeSymbol.IsModified.addPart {s : TypeSymbol} (modified : s.IsModified) (part : Node) :
    (s.addPart part).IsModified := by
  obtain ⟨isStatic, isAbstract⟩ := modified
  constructor
  · simp [TypeSymbol.addPart, declarations, isStatic, Bool.or_assoc]
  · simp [TypeSymbol.addPart, declarations, isAbstract, Bool.or_assoc]

namespace SymbolTable

variable {types : List TypeSymbol}

theorem declare_isModified (modified : ∀ s ∈ types, s.IsModified) (d : TypeDeclaration) :
    ∀ s ∈ declare types d, s.IsModified := by
  intro s member
  obtain ⟨id, old, there, -, step⟩ | ⟨-, step⟩ := declare_cases types d
  · rw [step] at member
    rcases List.mem_or_eq_of_mem_set member with before | rfl
    · exact modified s before
    · exact (modified old (List.mem_of_getElem? there)).addPart d.node
  · rw [step, List.mem_append, List.mem_singleton] at member
    rcases member with before | rfl
    · exact modified s before
    · exact TypeSymbol.isModified_ofDeclaration _ d

theorem foldl_isModified (modified : ∀ s ∈ types, s.IsModified) (ds : List TypeDeclaration) :
    ∀ s ∈ ds.foldl declare types, s.IsModified := by
  induction ds generalizing types with
  | nil => exact modified
  | cons d rest ih => exact ih (declare_isModified modified d)

theorem declare_primary (types : List TypeSymbol) (d : TypeDeclaration) :
    ((declare types d).map TypeSymbol.primary).Sublist
      (types.map TypeSymbol.primary ++ [d.node]) := by
  obtain ⟨id, old, there, -, step⟩ | ⟨-, step⟩ := declare_cases types d
  -- A further part leaves the first declarations as they are, a new type comes last.
  · have same : (types.set id (old.addPart d.node)).map TypeSymbol.primary =
        types.map TypeSymbol.primary := map_set_of_same there rfl
    rw [step, same]
    exact List.sublist_append_left _ _
  · rw [step, List.map_append]
    exact List.Sublist.refl _

theorem foldl_primary (types : List TypeSymbol) (ds : List TypeDeclaration) :
    ((ds.foldl declare types).map TypeSymbol.primary).Sublist
      (types.map TypeSymbol.primary ++ ds.map TypeDeclaration.node) := by
  induction ds generalizing types with
  | nil => simp
  | cons d rest ih =>
    have step := (declare_primary types d).append_right (rest.map TypeDeclaration.node)
    rw [List.append_assoc, List.singleton_append] at step
    exact (ih (declare types d)).trans step

theorem lookup?_ofRoot {root : Node} {path : String} {arity : Nat} {id : TypeId} :
    (ofRoot root).lookup? path arity = some id ↔
      ∃ s, (ofRoot root).get? id = some s ∧ s.key = ⟨path, arity⟩ := by
  constructor
  · exact lookup?_eq_some
  · rintro ⟨s, there, same⟩
    rw [lookup?_eq_idOf?, ← same]
    exact idOf?_key (merges_ofRoot root).different there

theorem declarations_sublist {root : Node} {id : TypeId} {s : TypeSymbol}
    (there : (ofRoot root).get? id = some s) : s.declarations.Sublist root.descendants := by
  rw [(merges_ofRoot root).parts there]
  exact (List.filter_sublist.map TypeDeclaration.node).trans root.declarations_sublist

theorem declaredBy?_ofRoot {root n : Node} (below : n ∈ root.subtree) {id : TypeId} :
    (ofRoot root).declaredBy? n = some id ↔
      ∃ s, (ofRoot root).get? id = some s ∧ n ∈ s.declarations := by
  constructor
  · intro declared
    obtain ⟨s, there, n', listed, same⟩ := (ofRoot root).byAddress_sound _ id declared
    have inside := List.mem_cons_of_mem root ((declarations_sublist there).subset listed)
    -- Both nodes are below the root, where addresses tell nodes apart.
    exact ⟨s, there, Node.eq_of_address inside below same ▸ listed⟩
  · rintro ⟨s, there, listed⟩
    obtain ⟨d, recorded, key, rfl⟩ := (mem_declarations_iff there).mp listed
    -- A recorded declaration declares the type with its key, and this type has that key.
    rw [declaredBy?_of_recorded recorded, key]
    exact idOf?_key (merges_ofRoot root).different there

theorem declarations_nodup (root : Node) :
    ((ofRoot root).types.flatMap TypeSymbol.declarations).Nodup := by
  rw [List.nodup_flatMap]
  constructor
  · intro s member
    obtain ⟨id, there⟩ := List.mem_iff_getElem?.mp member
    exact root.descendants_nodup.sublist (declarations_sublist there)
  -- A node that two types listed would declare both.
  · rw [List.pairwise_iff_getElem]
    intro id id' known known' before n listed listed'
    have there := List.getElem?_eq_getElem known
    have there' := List.getElem?_eq_getElem known'
    have below := List.mem_cons_of_mem root ((declarations_sublist there).subset listed)
    have declared := (declaredBy?_ofRoot below).mpr ⟨_, there, listed⟩
    have declared' := (declaredBy?_ofRoot below).mpr ⟨_, there', listed'⟩
    rw [declared, Option.some.injEq] at declared'
    exact Nat.ne_of_lt before declared'

/-! ### Entries of the indexes -/

/-- A declaration becomes one entry of the index by address. -/
theorem addresses_foldl_declare (index : TypeIndex) (ds : List TypeDeclaration) :
    (ds.foldl TypeIndex.declare index).byAddress.map Prod.fst =
      (ds.map fun d => d.node.address).reverse ++ index.byAddress.map Prod.fst := by
  induction ds generalizing index with
  | nil => rfl
  | cons d ds ih =>
    have step : (index.declare d).byAddress.map Prod.fst =
        d.node.address :: index.byAddress.map Prod.fst := by
      unfold TypeIndex.declare
      split <;> rfl
    rw [List.foldl_cons, ih, step, List.map_cons, List.reverse_cons, List.append_assoc,
      List.singleton_append]

/-- The index by key has one entry for each type, the last type first. -/
theorem keys_foldl_declare (index : TypeIndex)
    (keyed : index.byKey.map Prod.fst = (index.types.map TypeSymbol.key).reverse)
    (ds : List TypeDeclaration) : (ds.foldl TypeIndex.declare index).byKey.map Prod.fst =
      ((ds.foldl TypeIndex.declare index).types.map TypeSymbol.key).reverse := by
  induction ds generalizing index with
  | nil => exact keyed
  | cons d ds ih =>
    refine ih _ ?_
    unfold TypeIndex.declare
    split
    · simp only [TypeIndex.addPart, keys_modify_addPart, keyed]
    · simp [TypeIndex.addType, keyed]

/-- The types of a table, the ways to find them and their declarations below a node agree. -/
structure Coherent (root : Node) (table : SymbolTable) : Prop where
  different : (table.types.map TypeSymbol.key).Nodup
  found : ∀ path arity id, table.lookup? path arity = some id ↔
    ∃ s, table.get? id = some s ∧ s.key = ⟨path, arity⟩
  nested : ∀ id s outer, table.get? id = some s → s.container? = some outer →
    outer < id ∧ ∃ o, table.get? outer = some o ∧ s.path = dotted o.path s.name ∧
      table.displayName id = dotted (table.displayName outer) s.ownName
  outermost : ∀ id s, table.get? id = some s → s.container? = none →
    s.path = qualified s.space? s.name ∧ table.displayName id = qualified s.space? s.ownName
  complete : ∀ d ∈ root.declarations, ∃ s ∈ table.types, s.key = d.key ∧ d.node ∈ s.declarations
  first : ∀ s ∈ table.types, s.declarations.head? = some s.primary
  ordered : ∀ s ∈ table.types, s.declarations.Sublist root.descendants
  disjoint : (table.types.flatMap TypeSymbol.declarations).Nodup
  declares : ∀ n ∈ root.subtree, ∀ id, table.declaredBy? n = some id ↔
    ∃ s, table.get? id = some s ∧ n ∈ s.declarations
  modified : ∀ s ∈ table.types, s.IsModified
  numbered : (table.types.map TypeSymbol.primary).Sublist root.descendants
  keysOnce : (table.byKey.map Prod.fst).Nodup
  keyEntries : ∀ key id, (key, id) ∈ table.byKey ↔ ∃ s, table.get? id = some s ∧ s.key = key
  addressesOnce : (table.byAddress.map Prod.fst).Nodup
  addressEntries : ∀ address id, (address, id) ∈ table.byAddress ↔
    ∃ s, table.get? id = some s ∧ ∃ n ∈ s.declarations, n.address = address

theorem keysOnce_ofRoot (root : Node) : ((ofRoot root).byKey.map Prod.fst).Nodup := by
  have keys : (ofRoot root).byKey.map Prod.fst =
      ((ofRoot root).types.map TypeSymbol.key).reverse :=
    keys_foldl_declare .empty rfl root.declarations
  rw [keys]
  exact List.nodup_reverse.mpr (merges_ofRoot root).different

theorem addressesOnce_ofRoot (root : Node) : ((ofRoot root).byAddress.map Prod.fst).Nodup := by
  have addresses : (ofRoot root).byAddress.map Prod.fst =
      (root.declarations.map fun d => d.node.address).reverse ++ [] :=
    addresses_foldl_declare .empty root.declarations
  rw [addresses, List.append_nil]
  exact List.nodup_reverse.mpr root.declarations_addresses_nodup

theorem coherent_ofRoot (root : Node) : Coherent root (ofRoot root) where
  different := (merges_ofRoot root).different
  found _ _ _ := lookup?_ofRoot
  nested _ _ _ there around := displayName_nested there ((merges_ofRoot root).placed there) around
  outermost _ _ there outermost :=
    displayName_outermost there ((merges_ofRoot root).placed there) outermost
  complete := by
    intro d recorded
    have known := ((merges_ofRoot root).keys d.key).mpr (List.mem_map_of_mem recorded)
    obtain ⟨s, member, same⟩ := List.mem_map.mp known
    obtain ⟨id, there⟩ := List.mem_iff_getElem?.mp member
    exact ⟨s, member, same, (mem_declarations_iff there).mpr ⟨d, recorded, same.symm, rfl⟩⟩
  first _ _ := rfl
  ordered := by
    intro s member
    obtain ⟨id, there⟩ := List.mem_iff_getElem?.mp member
    exact declarations_sublist there
  disjoint := declarations_nodup root
  declares _ below _ := declaredBy?_ofRoot below
  modified := by
    rw [types_ofRoot]
    exact foldl_isModified (List.forall_mem_nil _) root.declarations
  numbered := by
    have first := foldl_primary [] root.declarations
    rw [types_ofRoot]
    exact first.trans root.declarations_sublist
  keysOnce := keysOnce_ofRoot root
  keyEntries key id := by
    rw [mem_iff_lookup_eq_some (keysOnce_ofRoot root)]
    exact lookup?_ofRoot
  addressesOnce := addressesOnce_ofRoot root
  addressEntries address id := by
    rw [mem_iff_lookup_eq_some (addressesOnce_ofRoot root)]
    constructor
    · exact (ofRoot root).byAddress_sound address id
    · rintro ⟨s, there, n, listed, rfl⟩
      have below := List.mem_cons_of_mem root ((declarations_sublist there).subset listed)
      exact (declaredBy?_ofRoot below).mpr ⟨s, there, listed⟩

end SymbolTable

namespace Model

theorem mem_classDeclarations {tree : Tree} {c : ClassDeclaration} :
    c ∈ (ofTree tree).classDeclarations ↔
      ∃ s, (ofTree tree).table.get? c.id = some s ∧ c.node ∈ s.declarations ∧
        Node.classLikeKinds.contains c.node.kind = true := by
  obtain ⟨node, id⟩ := c
  have coherent := SymbolTable.coherent_ofRoot (.root tree)
  rw [classDeclarations, List.mem_filterMap]
  constructor
  · rintro ⟨n, listed, made⟩
    obtain ⟨id', declared, same⟩ := Option.map_eq_some_iff.mp made
    cases same
    obtain ⟨below, kind⟩ := List.mem_filter.mp listed
    have inside := List.mem_cons_of_mem (Node.root tree) below
    obtain ⟨s, there, own⟩ := (coherent.declares node inside id).mp declared
    exact ⟨s, there, own, kind⟩
  · rintro ⟨s, there, own, kind⟩
    have below := (SymbolTable.declarations_sublist there).subset own
    have inside := List.mem_cons_of_mem (Node.root tree) below
    have declared := (coherent.declares node inside id).mpr ⟨s, there, own⟩
    refine ⟨node, List.mem_filter.mpr ⟨below, kind⟩, ?_⟩
    rw [Option.map_eq_some_iff]
    exact ⟨id, declared, rfl⟩

/-- Without their types, the classes are those class-like nodes that declare a type. -/
theorem map_node_classDeclarations (m : Model) :
    m.classDeclarations.map ClassDeclaration.node =
      m.root.classLikeNodes.filter fun n => (m.table.declaredBy? n).isSome := by
  rw [classDeclarations, List.map_filterMap, ← List.filterMap_eq_filter]
  refine List.filterMap_congr fun n _ => ?_
  cases declared : m.table.declaredBy? n <;> simp [Option.guard, declared]

theorem classDeclarations_sublist (m : Model) :
    (m.classDeclarations.map ClassDeclaration.node).Sublist m.root.descendants := by
  rw [map_node_classDeclarations]
  exact List.filter_sublist.trans List.filter_sublist

/-- The symbol table of a file is coherent, and the classes of the file are the class-like nodes
among the declarations of its types, once each in document order. -/
theorem coherent_ofTree (tree : Tree) :
    SymbolTable.Coherent (.root tree) (ofTree tree).table ∧
      (∀ c, c ∈ (ofTree tree).classDeclarations ↔
        ∃ s, (ofTree tree).table.get? c.id = some s ∧ c.node ∈ s.declarations ∧
          Node.classLikeKinds.contains c.node.kind = true) ∧
      ((ofTree tree).classDeclarations.map ClassDeclaration.node).Sublist
        (Node.root tree).descendants ∧
      ((Node.root tree).descendants.map Node.address).Nodup :=
  ⟨SymbolTable.coherent_ofRoot _, fun _ => mem_classDeclarations, classDeclarations_sublist _,
    Node.descendants_address_nodup _⟩

end Model

end ClassAtlas
