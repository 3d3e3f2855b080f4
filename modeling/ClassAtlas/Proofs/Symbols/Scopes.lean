import ClassAtlas.Proofs.Symbols.Entered
import ClassAtlas.Proofs.Syntax.Ranges
import ClassAtlas.Symbols.Table

/-!
# Recorded scopes

An outline records one scope for every namespace that it enters, in document order: with the range
of a block, and for a file-scoped namespace up to the end of what it stands in. What is in such a
scope is known from the tree alone.
-/
namespace ClassAtlas

namespace Node

/-! ### Namespaces with a scope -/

def isFileSpace (n : Node) : Bool := n.kind == "file_scoped_namespace_declaration"

/-- Where the scope of a namespace ends: a file-scoped one takes the rest of the node around it. -/
def scopeStop (n : Node) : Nat :=
  if n.isFileSpace then (n.parent?.map stop).getD n.stop else n.stop

/-- A namespace for which an outline that comes to it records a scope. -/
def recordsScope (n : Node) : Bool := n.isEntered && namespaceKinds.contains n.kind

/-- The nodes among which an outline goes on inside a node, if it enters that. -/
def enteredNodes (n : Node) : List Node := if n.isEntered then n.searchedNodes else []

theorem totalOf_size_enteredNodes_lt (n : Node) : totalOf size n.enteredNodes < n.size := by
  unfold enteredNodes searchedNodes
  split
  · split
    · exact n.totalOf_size_members_lt
    · exact n.totalOf_size_namedChildren_lt
  · exact n.size_pos

/-- The namespaces with a scope among the pending nodes and inside them, in document order. -/
def spaceNodes (pending : List Node) : List Node :=
  match pending with
  | [] => []
  | n :: rest => [n].filter recordsScope ++ (spaceNodes n.enteredNodes ++ spaceNodes rest)
termination_by totalOf size pending
decreasing_by
  all_goals
    have := n.totalOf_size_enteredNodes_lt
    have := n.size_pos
    simp
    omega

/-- The nodes with a scope of their own: the file and its namespaces. -/
def scopeNodes (root : Node) : List Node := root :: spaceNodes root.namedChildren

/-- The node is in the scope of a namespace: below it, or else below a later sibling of a
file-scoped one. -/
def InScopeOf (n s : Node) : Prop :=
  n ∈ s.subtree ∨ s.isFileSpace = true ∧ ∃ p c : Node, [s, c].Sublist p.children ∧ n ∈ c.subtree

theorem spaceNodes_nil : spaceNodes [] = [] := by rw [spaceNodes]

theorem spaceNodes_cons (n : Node) (rest : List Node) : spaceNodes (n :: rest) =
    [n].filter recordsScope ++ (spaceNodes n.enteredNodes ++ spaceNodes rest) := by
  rw [spaceNodes]

theorem mem_spaceNodes {s : Node} {pending : List Node} : s ∈ spaceNodes pending ↔
    ∃ n ∈ pending, (s = n ∧ n.recordsScope = true) ∨ s ∈ spaceNodes n.enteredNodes := by
  induction pending with
  | nil => simp [spaceNodes_nil]
  | cons n rest ih =>
    have own : s ∈ [n].filter recordsScope ↔ s = n ∧ n.recordsScope = true := by
      rw [List.mem_filter, List.mem_singleton]
      constructor
      · rintro ⟨rfl, records⟩
        exact ⟨rfl, records⟩
      · rintro ⟨rfl, records⟩
        exact ⟨rfl, records⟩
    rw [spaceNodes_cons, List.mem_append, List.mem_append, own, ih, List.exists_mem_cons_iff,
      or_assoc]

/-! ### Which namespaces these are -/

/-- The nodes among which an outline goes on are children of one node. -/
theorem exists_container (n : Node) : ∃ q ∈ n.subtree, n.enteredNodes.Sublist q.children := by
  unfold enteredNodes searchedNodes members
  split
  · split
    · cases found : n.body? with
      | none => exact ⟨n, n.mem_subtree_self, List.nil_sublist _⟩
      | some b =>
        have below := mem_descendants_of_mem_children n.mem_subtree_self
          (mem_children_of_childOrKind? found)
        exact ⟨b, List.mem_cons_of_mem n below, List.filter_sublist⟩
    · exact ⟨n, n.mem_subtree_self, List.filter_sublist⟩
  · exact ⟨n, n.mem_subtree_self, List.nil_sublist _⟩

theorem mem_descendants_of_entered {n m x : Node} (listed : m ∈ n.enteredNodes)
    (below : x ∈ m.subtree) : x ∈ n.descendants := by
  obtain ⟨q, within, among⟩ := n.exists_container
  exact subtree_subset_descendants
    (mem_descendants_of_mem_children within (among.subset listed)) below

/-- What is found inside a node is below it. -/
theorem mem_descendants_of_spaceNodes {n s : Node} (listed : s ∈ spaceNodes n.enteredNodes) :
    s ∈ n.descendants := by
  obtain ⟨m, member, found⟩ := mem_spaceNodes.mp listed
  have smaller : m.size < n.size :=
    Nat.lt_of_le_of_lt (le_totalOf member) n.totalOf_size_enteredNodes_lt
  refine mem_descendants_of_entered member ?_
  rcases found with ⟨rfl, -⟩ | inside
  · exact s.mem_subtree_self
  · exact List.mem_cons_of_mem m (mem_descendants_of_spaceNodes inside)
termination_by n.size

theorem exists_pending {pending : List Node} {s : Node} (listed : s ∈ spaceNodes pending) :
    ∃ n ∈ pending, s ∈ n.subtree := by
  obtain ⟨n, member, ⟨rfl, -⟩ | inside⟩ := mem_spaceNodes.mp listed
  · exact ⟨s, member, s.mem_subtree_self⟩
  · exact ⟨n, member, List.mem_cons_of_mem n (mem_descendants_of_spaceNodes inside)⟩

theorem mem_descendants_of_scopeNodes {root s : Node}
    (listed : s ∈ spaceNodes root.namedChildren) : s ∈ root.descendants := by
  obtain ⟨n, named, below⟩ := exists_pending listed
  exact mem_descendants.mpr ⟨n, mem_children_of_mem_namedChildren named, below⟩

end Node

/-! ### What is recorded for them -/

/-- The scope of a namespace: its range, its using directives and its name. -/
structure IsScopeOf (n : Node) (scope : NamespaceScope) : Prop where
  start : scope.start = n.start
  stop : scope.stop = n.scopeStop
  usings : scope.usings = Node.usingDirectives n.searchedNodes
  name : ∃ (name : Node) (space? : Option String), n.child? "name" = some name ∧
    scope.name? = some (qualified space? name.compactText)

/-- The scopes of an outline in document order. -/
def scopesOf (entries : List OutlineEntry) : List NamespaceScope :=
  entries.filterMap fun
    | .scope scope => some scope
    | .type _ => none

@[simp] theorem scopesOf_nil : scopesOf [] = [] := rfl

@[simp] theorem scopesOf_scope (scope : NamespaceScope) (rest : List OutlineEntry) :
    scopesOf (.scope scope :: rest) = scope :: scopesOf rest := rfl

@[simp] theorem scopesOf_type (d : TypeDeclaration) (rest : List OutlineEntry) :
    scopesOf (.type d :: rest) = scopesOf rest := rfl

@[simp] theorem scopesOf_append (left right : List OutlineEntry) :
    scopesOf (left ++ right) = scopesOf left ++ scopesOf right :=
  List.filterMap_append

namespace Node

/-- The scopes are those of the namespaces among the pending nodes and inside them, one by one. -/
def ScopedAs (pending : List Node) (scopes : List NamespaceScope) : Prop :=
  List.Forall₂ IsScopeOf (spaceNodes pending) scopes

section

variable {n : Node} {rest : List Node} {inner later : List NamespaceScope}

theorem ScopedAs.skip (passed : n.isEntered = false) (others : ScopedAs rest later) :
    ScopedAs (n :: rest) later := by
  have same : spaceNodes (n :: rest) = spaceNodes rest := by
    simp [spaceNodes_cons, recordsScope, enteredNodes, passed, spaceNodes_nil]
  rwa [ScopedAs, same]

theorem ScopedAs.space {scope : NamespaceScope} (entered : n.isEntered = true)
    (space : namespaceKinds.contains n.kind = true) (own : IsScopeOf n scope)
    (inside : ScopedAs n.searchedNodes inner) (others : ScopedAs rest later) :
    ScopedAs (n :: rest) (scope :: (inner ++ later)) := by
  have records : n.recordsScope = true := by rw [recordsScope, entered, space, Bool.and_self]
  rw [ScopedAs, spaceNodes_cons, enteredNodes, if_pos entered, List.filter_cons_of_pos records]
  exact .cons own (List.rel_append inside others)

theorem ScopedAs.other (entered : n.isEntered = true)
    (other : namespaceKinds.contains n.kind = false)
    (inside : ScopedAs n.searchedNodes inner) (others : ScopedAs rest later) :
    ScopedAs (n :: rest) (inner ++ later) := by
  have silent : ¬n.recordsScope = true := by
    rw [recordsScope, other, Bool.and_false]
    exact Bool.false_ne_true
  rw [ScopedAs, spaceNodes_cons, enteredNodes, if_pos entered, List.filter_cons_of_neg silent]
  exact List.rel_append inside others

end

/-- Nothing is around the root. -/
theorem scopeStop_root (tree : Tree) : (Node.root tree).scopeStop = (Node.root tree).stop :=
  ite_self _

theorem scopeStop_block {n : Node} (kind : n.kind = "namespace_declaration") :
    n.scopeStop = n.stop := by
  simp [scopeStop, isFileSpace, kind]

theorem scopeStop_fileSpace {n : Node} {stop : Nat}
    (kind : n.kind = "file_scoped_namespace_declaration")
    (inside : n.parent?.map Node.stop = some stop) : n.scopeStop = stop := by
  simp [scopeStop, isFileSpace, kind, inside]

theorem parent_stop_of_namedChildren {n m : Node} (named : m ∈ n.namedChildren) :
    m.parent?.map Node.stop = some n.stop := by
  rw [parent?_of_mem_children (mem_children_of_mem_namedChildren named), Option.map_some]

theorem parent_stop_of_members {n m : Node} (member : m ∈ n.members) :
    m.parent?.map Node.stop = some ((n.body?.map Node.stop).getD 0) := by
  obtain ⟨b, found, child⟩ := mem_members member
  rw [parent?_of_mem_children child, found]
  rfl

/-- An outline records the scopes of the namespaces that it enters. The pending nodes are in a
container that ends at `stop`. -/
theorem scopedAs_outline (stop : Nat) (space? : Option String) (container? : Option TypeKey)
    (pending : List Node) (inside : ∀ n ∈ pending, n.parent?.map Node.stop = some stop) :
    ScopedAs pending (scopesOf (outline stop space? container? pending)) := by
  have passes {n : Node} (passed : n.isPassedOver none none = true) : n.isEntered = false := by
    rwa [isPassedOver_eq, Bool.not_eq_true'] at passed
  fun_induction outline stop space? container? pending
  -- Where the outline goes on with the other nodes, the node is passed over.
  case case1 =>
    rw [ScopedAs, spaceNodes_nil]
    exact .nil
  case case2 space unnamed later =>
    refine .skip (passes ?_) (later (List.forall_mem_cons.mp inside).2)
    simp [isPassedOver, namespaceKinds, eq_of_beq space, unnamed]
  case case4 space unnamed later =>
    refine .skip (passes ?_) (later (List.forall_mem_cons.mp inside).2)
    simp [isPassedOver, namespaceKinds, eq_of_beq space, unnamed]
  case case6 stop space? container? n rest _ _ declares unnamed later =>
    refine .skip ?_ (later (List.forall_mem_cons.mp inside).2)
    rw [← Bool.not_eq_true', ← isPassedOver_eq n space? container?]
    simp_all [isPassedOver, namespaceKinds]
  case case9 later =>
    refine .skip (passes ?_) (later (List.forall_mem_cons.mp inside).2)
    simp_all [isPassedOver, namespaceKinds]
  -- In the other cases the container of what is searched is the body of the node, or the node.
  case case3 stop space? container? n rest kind name named full inner later =>
    have kind := eq_of_beq kind
    have space : namespaceKinds.contains n.kind = true := by rw [kind]; rfl
    have own := searchedNodes_of_hasSearchedBody (hasSearchedBody_of_space kind)
    rw [scopesOf_scope, scopesOf_append]
    refine .space (isEntered_of_namespace space named) space ?_ ?_
      (later (List.forall_mem_cons.mp inside).2)
    · exact ⟨rfl, (scopeStop_block kind).symm, by rw [own], name, space?, named, rfl⟩
    · exact own ▸ inner fun m => parent_stop_of_members
  case case5 stop space? container? n rest _ kind name named full inner later =>
    have kind := eq_of_beq kind
    have space : namespaceKinds.contains n.kind = true := by rw [kind]; rfl
    have own := searchedNodes_of_isSearched (isSearched_of_fileSpace kind)
    obtain ⟨here, others⟩ := List.forall_mem_cons.mp inside
    rw [scopesOf_scope, scopesOf_append]
    refine .space (isEntered_of_namespace space named) space ?_ ?_ (later others)
    · have ends := (scopeStop_fileSpace kind here).symm
      exact ⟨rfl, ends, by rw [own], name, space?, named, rfl⟩
    · exact own ▸ inner fun m => parent_stop_of_namedChildren
  case case7 stop space? container? n rest _ _ declares declaration found inner later =>
    obtain ⟨-, -, -, -, name, visible, -⟩ := typeDeclaration?_eq_some found
    have own := searchedNodes_of_hasSearchedBody (hasSearchedBody_of_type declares)
    rw [scopesOf_type, scopesOf_append]
    refine .other (isEntered_of_type declares (hasName_of_some name visible))
      (not_namespace_of_type declares) ?_ (later (List.forall_mem_cons.mp inside).2)
    exact own ▸ inner fun m => parent_stop_of_members
  case case8 stop space? container? n rest _ _ _ broken inner later =>
    have own := searchedNodes_of_isSearched (isSearched_of_part broken)
    rw [scopesOf_append]
    refine .other (isEntered_of_part broken) (not_namespace_of_part broken) ?_
      (later (List.forall_mem_cons.mp inside).2)
    exact own ▸ inner fun m => parent_stop_of_namedChildren

end Node

/-! ### The scopes of a file -/

/-- The nodes with a scope of their own, each with its scope. -/
def recordedScopes (root : Node) : List (Node × NamespaceScope) :=
  root.scopeNodes.zip (SymbolTable.ofRoot root).scopes

theorem scopes_ofRoot (root : Node) : (SymbolTable.ofRoot root).scopes =
    ⟨none, root.start, root.stop, Node.usingDirectives root.namedChildren⟩ ::
      scopesOf (Node.outline root.stop none none root.namedChildren) := rfl

theorem scopedAs_namedChildren (root : Node) : Node.ScopedAs root.namedChildren
    (scopesOf (Node.outline root.stop none none root.namedChildren)) :=
  Node.scopedAs_outline _ _ _ _ fun _ named => Node.parent_stop_of_namedChildren named

theorem length_scopes (root : Node) :
    root.scopeNodes.length = (SymbolTable.ofRoot root).scopes.length := by
  rw [scopes_ofRoot, Node.scopeNodes, List.length_cons, List.length_cons,
    (scopedAs_namedChildren root).length_eq]

theorem map_fst_recordedScopes (root : Node) :
    (recordedScopes root).map Prod.fst = root.scopeNodes :=
  List.map_fst_zip (Nat.le_of_eq (length_scopes root))

theorem map_snd_recordedScopes (root : Node) :
    (recordedScopes root).map Prod.snd = (SymbolTable.ofRoot root).scopes :=
  List.map_snd_zip (Nat.le_of_eq (length_scopes root).symm)

/-- After the scope of the file, which has no name, come those of the namespaces. -/
theorem recordedScopes_eq (root : Node) : ∃ spaces,
    recordedScopes root =
      (root, ⟨none, root.start, root.stop, Node.usingDirectives root.namedChildren⟩) :: spaces ∧
    ∀ r ∈ spaces, IsScopeOf r.1 r.2 := by
  refine ⟨_, rfl, fun r member => ?_⟩
  exact (List.forall₂_iff_zip.mp (scopedAs_namedChildren root)).2 member

theorem range_of_recorded {tree : Tree} {r : Node × NamespaceScope}
    (recorded : r ∈ recordedScopes (.root tree)) :
    r.2.start = r.1.start ∧ r.2.stop = r.1.scopeStop := by
  obtain ⟨spaces, all, scopes⟩ := recordedScopes_eq (.root tree)
  rw [all, List.mem_cons] at recorded
  rcases recorded with rfl | recorded
  · exact ⟨rfl, (Node.scopeStop_root tree).symm⟩
  · exact ⟨(scopes r recorded).start, (scopes r recorded).stop⟩

end ClassAtlas
