import ClassAtlas.Proofs.Symbols.Recorded

/-!
# Enclosing declarations

The container that an outline notes for a declaration is the nearest declaration around its node,
unless a namespace stands between them: a namespace starts anew.
-/
namespace ClassAtlas

/-- The declaration recorded for a node. -/
def recordedAt? (ds : List TypeDeclaration) (n : Node) : Option TypeDeclaration :=
  ds.find? fun d => d.node.address == n.address

/-- The nearest recorded declaration around a node. -/
def enclosing? (ds : List TypeDeclaration) (n : Node) : Option TypeDeclaration :=
  n.ancestors.findSome? (recordedAt? ds)

namespace Node

/-- No namespace stands inside a type declaration. -/
def NamespacesOutside (root : Node) : Prop :=
  ∀ n ∈ root.subtree,
    namespaceKinds.contains n.kind = true →
    ∀ x ∈ n.ancestors, typeDeclarationKinds.contains x.kind = false

theorem namespacesOutside_of_infos {tree : Tree}
    (absent : ∀ info ∈ tree.infos, namespaceKinds.contains info.kind = false) :
    NamespacesOutside (.root tree) := by
  intro n below space
  have other := absent n.info (info_mem_infos below)
  exact absurd space (Bool.eq_false_iff.mp other)

/-! ### What an outline searches -/

/-- Nodes whose outline is that of a body of their own. -/
def hasSearchedBody (n : Node) : Bool :=
  n.kind == "namespace_declaration" || typeDeclarationKinds.contains n.kind

/-- Nodes whose outline is that of their own children. -/
def isSearched (n : Node) : Bool :=
  ["ERROR", "declaration_list", "file_scoped_namespace_declaration"].contains n.kind

/-- The outline of a file comes to the children of the node. -/
inductive Searched (root : Node) : Node → Prop
  | file : Searched root root
  | body {p n b : Node} : Searched root p → n ∈ p.children → n.hasSearchedBody = true →
      n.body? = some b → Searched root b
  | part {p n : Node} : Searched root p → n ∈ p.children → n.isSearched = true → Searched root n

theorem Searched.mem_subtree {root n : Node} (searched : Searched root n) : n ∈ root.subtree := by
  induction searched with
  | file => exact root.mem_subtree_self
  | body _ child _ found ih =>
    have inner := mem_children_of_childOrKind? found
    have own := mem_descendants_of_mem_children ih child
    exact List.mem_cons_of_mem root
      (mem_descendants_of_mem_children (List.mem_cons_of_mem root own) inner)
  | part _ child _ ih =>
    exact List.mem_cons_of_mem root (mem_descendants_of_mem_children ih child)

theorem not_isSearched_of_hasSearchedBody {n : Node} (has : n.hasSearchedBody = true) :
    n.isSearched = false := by
  have apart : ∀ kind ∈ "namespace_declaration" :: typeDeclarationKinds,
      ["ERROR", "declaration_list", "file_scoped_namespace_declaration"].contains kind = false := by
    decide
  refine apart n.kind ?_
  rw [hasSearchedBody, Bool.or_eq_true, beq_iff_eq, List.contains_iff_mem] at has
  exact List.mem_cons.mpr has

theorem parent_unique {n p q : Node} (child : n ∈ p.children) (child' : n ∈ q.children) : p = q :=
  Option.some.inj ((parent?_of_mem_children child).symm.trans (parent?_of_mem_children child'))

theorem root_not_mem_children {tree : Tree} {n : Node} : Node.root tree ∉ n.children := by
  intro child
  cases parent?_of_mem_children child

/-- The outline does not come to the children of a node whose body it searches. -/
theorem not_searched_of_hasSearchedBody {tree : Tree} {p n : Node}
    (searched : Searched (.root tree) p) (child : n ∈ p.children)
    (has : n.hasSearchedBody = true) : ¬Searched (.root tree) n := by
  -- A searched node of this kind would be a body of its parent, which then is one, too.
  have upward {n p : Node} (child : n ∈ p.children) (has : n.hasSearchedBody = true)
      (again : Searched (.root tree) n) :
      p.hasSearchedBody = true ∧ ∃ q, Searched (.root tree) q ∧ p ∈ q.children := by
    cases again with
    | file => exact absurd child root_not_mem_children
    | part _ _ own =>
      exact absurd own (Bool.eq_false_iff.mp (not_isSearched_of_hasSearchedBody has))
    | @body q m _ outer inner bodied found =>
      obtain rfl := parent_unique child (mem_children_of_childOrKind? found)
      exact ⟨bodied, q, outer, inner⟩
  -- Going up from such a body to body, one never gets to the root.
  induction searched generalizing n with
  | file =>
    intro again
    obtain ⟨-, q, -, inner⟩ := upward child has again
    exact root_not_mem_children inner
  | part _ _ own =>
    intro again
    have bodied := (upward child has again).1
    exact Bool.eq_false_iff.mp (not_isSearched_of_hasSearchedBody bodied) own
  | @body q m b _ outer bodied found ih =>
    intro again
    obtain ⟨-, q', above, inner⟩ := upward child has again
    obtain rfl := parent_unique inner (mem_children_of_childOrKind? found)
    exact ih outer bodied above

/-- The outline of a file comes to the node. -/
def Listed (root n : Node) : Prop := ∃ p, Searched root p ∧ n ∈ p.children

theorem Listed.mem_subtree {root n : Node} (listed : Listed root n) : n ∈ root.subtree := by
  obtain ⟨p, searched, child⟩ := listed
  exact List.mem_cons_of_mem root (mem_descendants_of_mem_children searched.mem_subtree child)

theorem body_not_listed {tree : Tree} {n b : Node} (listed : Listed (.root tree) n)
    (has : n.hasSearchedBody = true) (found : n.body? = some b) : ¬Listed (.root tree) b := by
  obtain ⟨p, searched, child⟩ := listed
  rintro ⟨q, searched', child'⟩
  obtain rfl := parent_unique child' (mem_children_of_childOrKind? found)
  exact not_searched_of_hasSearchedBody searched child has searched'

theorem mem_members {n m : Node} (member : m ∈ n.members) :
    ∃ b, n.body? = some b ∧ m ∈ b.children := by
  unfold members at member
  cases found : n.body? with
  | none =>
    rw [found] at member
    exact absurd member List.not_mem_nil
  | some b =>
    rw [found] at member
    exact ⟨b, rfl, mem_children_of_mem_namedChildren member⟩

theorem Listed.members {root n : Node} (listed : Listed root n) (has : n.hasSearchedBody = true) :
    ∀ m ∈ n.members, Listed root m := by
  intro m member
  obtain ⟨p, searched, child⟩ := listed
  obtain ⟨b, found, inner⟩ := mem_members member
  exact ⟨b, .body searched child has found, inner⟩

theorem Listed.namedChildren {root n : Node} (listed : Listed root n)
    (own : n.isSearched = true) : ∀ c ∈ n.namedChildren, Listed root c := by
  intro c named
  obtain ⟨p, searched, child⟩ := listed
  exact ⟨n, .part searched child own, mem_children_of_mem_namedChildren named⟩

theorem hasSearchedBody_of_space {n : Node} (kind : n.kind = "namespace_declaration") :
    n.hasSearchedBody = true := by
  simp [hasSearchedBody, kind]

theorem hasSearchedBody_of_type {n : Node}
    (declares : typeDeclarationKinds.contains n.kind = true) : n.hasSearchedBody = true := by
  rw [hasSearchedBody, declares, Bool.or_true]

theorem isSearched_of_fileSpace {n : Node} (kind : n.kind = "file_scoped_namespace_declaration") :
    n.isSearched = true := by
  simp [isSearched, kind]

theorem isSearched_of_part {n : Node}
    (broken : ["ERROR", "declaration_list"].contains n.kind = true) : n.isSearched = true := by
  have more : ∀ kind ∈ ["ERROR", "declaration_list"],
      ["ERROR", "declaration_list", "file_scoped_namespace_declaration"].contains kind = true := by
    decide
  exact more n.kind (List.contains_iff_mem.mp broken)

/-- What a file declares are type declarations among the listed nodes. -/
theorem listed_of_recorded {root : Node} {d : TypeDeclaration} (recorded : d ∈ root.declarations) :
    typeDeclarationKinds.contains d.node.kind = true ∧ Listed root d.node :=
  root.declarations_outlined.forall_found (P := fun _ n => Listed root n)
    (fun own kind => own.members (hasSearchedBody_of_space kind))
    (fun own kind => own.namedChildren (isSearched_of_fileSpace kind))
    (fun own declares _ => own.members (hasSearchedBody_of_type declares))
    (fun own broken => own.namedChildren (isSearched_of_part broken))
    (List.Subset.refl _)
    (fun _ named => ⟨root, .file, mem_children_of_mem_namedChildren named⟩) d recorded

end Node

/-! ### The nearest declaration around a node -/

section

variable {tree : Tree}

theorem recordedAt?_eq_some {ds : List TypeDeclaration} {n : Node} {d : TypeDeclaration}
    (found : recordedAt? ds n = some d) : d ∈ ds ∧ d.node.address = n.address := by
  refine ⟨List.mem_of_find?_eq_some found, ?_⟩
  exact eq_of_beq (List.find?_some (p := fun e : TypeDeclaration =>
    e.node.address == n.address) found)

theorem recordedAt?_recorded {root : Node} {d : TypeDeclaration}
    (recorded : d ∈ root.declarations) : recordedAt? root.declarations d.node = some d := by
  cases found : recordedAt? root.declarations d.node with
  | none =>
    have apart := List.find?_eq_none.mp found d recorded
    exact absurd (beq_self_eq_true _) apart
  | some e =>
    obtain ⟨recorded', same⟩ := recordedAt?_eq_some found
    rw [eq_of_recorded_address recorded recorded' same.symm]

theorem recordedAt?_eq_none {root n : Node} (below : n ∈ root.subtree)
    (undeclared : ∀ d ∈ root.declarations, d.node ≠ n) :
    recordedAt? root.declarations n = none := by
  -- Within one tree the address tells which node it is.
  rw [recordedAt?, List.find?_eq_none]
  intro d recorded same
  have inside := Node.mem_subtree_of_mem_declarations recorded
  exact undeclared d recorded (Node.eq_of_address inside below (eq_of_beq same))

theorem recordedAt?_eq_none_of_kind {root n : Node} (below : n ∈ root.subtree)
    (kind : Node.typeDeclarationKinds.contains n.kind = false) :
    recordedAt? root.declarations n = none := by
  refine recordedAt?_eq_none below fun d recorded same => ?_
  have declares := (Node.listed_of_recorded recorded).1
  rw [same, kind] at declares
  exact Bool.false_ne_true declares

theorem enclosing?_child {ds : List TypeDeclaration} {n c : Node} (child : c ∈ n.children) :
    enclosing? ds c = (recordedAt? ds n).or (enclosing? ds n) := by
  rw [enclosing?, Node.ancestors_of_mem_children child, List.findSome?_cons]
  cases recordedAt? ds n <;> rfl

/-- What is searched inside a declaration is nearest to it: its body declares nothing. -/
theorem enclosing?_member {n m : Node} (listed : Node.Listed (.root tree) n)
    (has : n.hasSearchedBody = true) (member : m ∈ n.members) :
    enclosing? (Node.root tree).declarations m =
      (recordedAt? (Node.root tree).declarations n).or
        (enclosing? (Node.root tree).declarations n) := by
  -- Between a member and its declaration there is only the body.
  obtain ⟨b, found, inner⟩ := Node.mem_members member
  have child := Node.mem_children_of_childOrKind? found
  have below : b ∈ (Node.root tree).subtree := List.mem_cons_of_mem _
    (Node.mem_descendants_of_mem_children listed.mem_subtree child)
  have undeclared : recordedAt? (Node.root tree).declarations b = none := by
    refine recordedAt?_eq_none below ?_
    rintro d recorded rfl
    exact Node.body_not_listed listed has found (Node.listed_of_recorded recorded).2
  rw [enclosing?_child inner, undeclared, Option.none_or, enclosing?_child child]

theorem enclosing?_space {n : Node} (outside : Node.NamespacesOutside (.root tree))
    (below : n ∈ (Node.root tree).subtree)
    (space : Node.namespaceKinds.contains n.kind = true) :
    enclosing? (Node.root tree).declarations n = none := by
  rw [enclosing?, List.findSome?_eq_none_iff]
  intro x around
  -- The root has nothing around it, and a node around a namespace declares nothing.
  obtain above | ⟨within, -⟩ := Node.mem_ancestors below around
  · exact absurd above List.not_mem_nil
  · exact recordedAt?_eq_none_of_kind within (outside n below space x around)

/-- The container of a declaration is the nearest one around it, if no namespace stands inside a
type. -/
theorem enclosing?_key (outside : Node.NamespacesOutside (.root tree)) {d : TypeDeclaration}
    (recorded : d ∈ (Node.root tree).declarations) :
    (enclosing? (Node.root tree).declarations d.node).map TypeDeclaration.key = d.container? := by
  -- The invariant of the outline: the container is the nearest declaration around what is pending.
  let P : Option TypeKey → Node → Prop := fun container? n => Node.Listed (.root tree) n ∧
    (enclosing? (Node.root tree).declarations n).map TypeDeclaration.key = container?
  have inSpace {n : Node} (below : n ∈ (Node.root tree).subtree)
      (space : Node.namespaceKinds.contains n.kind = true) :
      (recordedAt? (Node.root tree).declarations n).or
        (enclosing? (Node.root tree).declarations n) = none := by
    have apart : ∀ kind ∈ Node.namespaceKinds,
        Node.typeDeclarationKinds.contains kind = false := by decide
    rw [recordedAt?_eq_none_of_kind below (apart _ (List.contains_iff_mem.mp space)),
      enclosing?_space outside below space]
    rfl
  have found := (Node.root tree).declarations_outlined.forall_found (P := P)
    ?space ?fileSpace ?type ?part (List.Subset.refl _) ?start d recorded
  · exact found.2.2
  case space =>
    rintro _ n ⟨own, -⟩ kind m member
    have has := Node.hasSearchedBody_of_space kind
    refine ⟨own.members has m member, ?_⟩
    have space : Node.namespaceKinds.contains n.kind = true := by simp [kind, Node.namespaceKinds]
    rw [enclosing?_member own has member, inSpace own.mem_subtree space]
    rfl
  case fileSpace =>
    rintro _ n ⟨own, -⟩ kind m member
    refine ⟨own.namedChildren (Node.isSearched_of_fileSpace kind) m member, ?_⟩
    rw [enclosing?_child (Node.mem_children_of_mem_namedChildren member),
      inSpace own.mem_subtree (by simp [kind, Node.namespaceKinds])]
    rfl
  case type =>
    rintro _ e ⟨own, -⟩ declares recorded m member
    have has := Node.hasSearchedBody_of_type declares
    refine ⟨own.members has m member, ?_⟩
    rw [enclosing?_member own has member, recordedAt?_recorded recorded]
    rfl
  case part =>
    rintro _ n ⟨own, around⟩ broken m member
    have apart : ∀ kind ∈ ["ERROR", "declaration_list"],
        Node.typeDeclarationKinds.contains kind = false := by decide
    refine ⟨own.namedChildren (Node.isSearched_of_part broken) m member, ?_⟩
    rw [enclosing?_child (Node.mem_children_of_mem_namedChildren member),
      recordedAt?_eq_none_of_kind own.mem_subtree (apart _ (List.contains_iff_mem.mp broken))]
    exact around
  case start =>
    intro n named
    have child := Node.mem_children_of_mem_namedChildren named
    have rootless : recordedAt? (Node.root tree).declarations (.root tree) = none := by
      refine recordedAt?_eq_none (Node.mem_subtree_self _) fun e recorded same => ?_
      obtain ⟨p, -, above⟩ := (Node.listed_of_recorded recorded).2
      exact Node.root_not_mem_children (same ▸ above)
    refine ⟨⟨.root tree, .file, child⟩, ?_⟩
    rw [enclosing?_child child, rootless]
    rfl

end

end ClassAtlas
