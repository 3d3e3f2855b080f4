import ClassAtlas.Proofs.Symbols.Enclosing

/-!
# What an outline enters

The outline of a file comes to a node through namespaces, types and the remains of broken source
alone, and it enters a namespace or type only if this has a name. The declarations of the file are
exactly the named type declarations among the nodes it comes to.
-/
namespace ClassAtlas.Node

/-- The declaration has a name that is not empty. -/
def hasName (n : Node) : Bool := n.name?.any (· != "")

/-- The namespace has a name that is not empty. -/
def hasSpaceName (n : Node) : Bool := (n.child? "name").any fun name => name.compactText != ""

/-- Nodes of the kinds that an outline looks into. -/
def isOpen (n : Node) : Bool := n.hasSearchedBody || n.isSearched

/-- An outline looks into the node: it does not into a namespace without a name node, nor into a
type without a name. -/
def isEntered (n : Node) : Bool :=
  n.isOpen && if namespaceKinds.contains n.kind then (n.child? "name").isSome
    else !(typeDeclarationKinds.contains n.kind) || n.hasName

/-- The nodes among which an outline goes on inside a node. -/
def searchedNodes (n : Node) : List Node := if n.hasSearchedBody then n.members else n.namedChildren

/-- An outline comes to the node when it looks into the nodes that are selected. -/
inductive Within (root : Node) (enters : Node → Bool) : Node → Prop
  | top {n : Node} : n ∈ root.namedChildren → Within root enters n
  | inner {n m : Node} : Within root enters n → enters n = true → m ∈ n.searchedNodes →
      Within root enters m

/-! ### Names and kinds -/

theorem searchedNodes_of_hasSearchedBody {n : Node} (has : n.hasSearchedBody = true) :
    n.searchedNodes = n.members := if_pos has

theorem searchedNodes_of_isSearched {n : Node} (own : n.isSearched = true) :
    n.searchedNodes = n.namedChildren := by
  refine if_neg fun has => ?_
  exact Bool.eq_false_iff.mp (not_isSearched_of_hasSearchedBody has) own

theorem hasName_of_some {n : Node} {name : String} (named : n.name? = some name)
    (visible : name ≠ "") : n.hasName = true := by
  simp [hasName, named, visible]

theorem isSome_typeDeclaration? {n : Node} (space? : Option String) (container? : Option TypeKey)
    (declares : typeDeclarationKinds.contains n.kind = true) :
    (n.typeDeclaration? space? container?).isSome = n.hasName := by
  have known : ∀ kind ∈ typeDeclarationKinds, (TypeKind.ofNodeKind? kind).isSome = true := by decide
  obtain ⟨kind, found⟩ :=
    Option.isSome_iff_exists.mp (known n.kind (List.contains_iff_mem.mp declares))
  unfold typeDeclaration? hasName
  cases n.name? with
  | none => simp [found]
  | some name => by_cases empty : name = "" <;> simp [found, empty]

/-- An outline passes over the nodes that it does not look into. -/
theorem isPassedOver_eq (n : Node) (space? : Option String) (container? : Option TypeKey) :
    n.isPassedOver space? container? = !n.isEntered := by
  have apart : ∀ kind ∈ namespaceKinds, typeDeclarationKinds.contains kind = false := by decide
  unfold isPassedOver isEntered isOpen
  by_cases space : namespaceKinds.contains n.kind = true
  · have opened : (n.hasSearchedBody || n.isSearched) = true := by
      simp only [namespaceKinds, List.contains_cons, List.contains_nil, Bool.or_false,
        Bool.or_eq_true, beq_iff_eq] at space
      rcases space with kind | kind
      · rw [hasSearchedBody_of_space kind, Bool.true_or]
      · rw [isSearched_of_fileSpace kind, Bool.or_true]
    rw [if_pos space, if_pos space, opened, Bool.true_and, Option.not_isSome]
  · rw [if_neg space, if_neg space]
    by_cases declares : typeDeclarationKinds.contains n.kind = true
    · rw [if_pos declares, hasSearchedBody_of_type declares, declares, ← Option.not_isSome,
        isSome_typeDeclaration? space? container? declares]
      simp
    · simp only [namespaceKinds, List.contains_cons, List.contains_nil] at space
      rw [if_neg declares]
      simp_all [hasSearchedBody, isSearched]

theorem isEntered_of_namespace {n name : Node} (space : namespaceKinds.contains n.kind = true)
    (named : n.child? "name" = some name) : n.isEntered = true := by
  have passed := n.isPassedOver_eq none none
  rw [isPassedOver, if_pos space, named] at passed
  simpa using passed

theorem not_namespace_of_type {n : Node} (declares : typeDeclarationKinds.contains n.kind = true) :
    namespaceKinds.contains n.kind = false := by
  have apart : ∀ kind ∈ typeDeclarationKinds, namespaceKinds.contains kind = false := by decide
  exact apart _ (List.contains_iff_mem.mp declares)

theorem not_namespace_of_part {n : Node}
    (broken : ["ERROR", "declaration_list"].contains n.kind = true) :
    namespaceKinds.contains n.kind = false := by
  have apart : ∀ kind ∈ ["ERROR", "declaration_list"], namespaceKinds.contains kind = false := by
    decide
  exact apart _ (List.contains_iff_mem.mp broken)

theorem isEntered_of_type {n : Node} (declares : typeDeclarationKinds.contains n.kind = true)
    (named : n.hasName = true) : n.isEntered = true := by
  rw [isEntered, isOpen, hasSearchedBody_of_type declares, not_namespace_of_type declares, named]
  simp

theorem isEntered_of_part {n : Node}
    (broken : ["ERROR", "declaration_list"].contains n.kind = true) : n.isEntered = true := by
  have apart : ∀ kind ∈ ["ERROR", "declaration_list"],
      typeDeclarationKinds.contains kind = false := by decide
  rw [isEntered, isOpen, isSearched_of_part broken, not_namespace_of_part broken,
    apart _ (List.contains_iff_mem.mp broken)]
  simp

/-! ### What is found -/

/-- The declarations have in them the one that the node makes and all that an outline finds inside
the node. -/
structure Explored (ds : List TypeDeclaration) (n : Node) : Prop where
  own : typeDeclarationKinds.contains n.kind = true → ∃ d ∈ ds, d.node = n
  inside : ∃ space? container? inner, Outlined space? container? n.searchedNodes inner ∧ inner ⊆ ds

theorem Explored.mono {ds more : List TypeDeclaration} {n : Node} (explored : Explored ds n)
    (within : ds ⊆ more) : Explored more n := by
  obtain ⟨space?, container?, inner, outlined, found⟩ := explored.inside
  refine ⟨fun declares => ?_, space?, container?, inner, outlined, List.Subset.trans found within⟩
  obtain ⟨d, recorded, same⟩ := explored.own declares
  exact ⟨d, within recorded, same⟩

theorem explored_of_inner {space? : Option String} {container? : Option TypeKey} {n : Node}
    {inner : List TypeDeclaration} (undeclared : typeDeclarationKinds.contains n.kind = false)
    (outlined : Outlined space? container? n.searchedNodes inner) : Explored inner n where
  own declares := absurd declares (Bool.eq_false_iff.mp undeclared)
  inside := ⟨space?, container?, inner, outlined, List.Subset.refl inner⟩

theorem forall_explored {n : Node} {rest : List Node} {inner later : List TypeDeclaration}
    (first : Explored inner n) (others : ∀ m ∈ rest, m.isEntered = true → Explored later m) :
    ∀ m ∈ n :: rest, m.isEntered = true → Explored (inner ++ later) m := by
  refine List.forall_mem_cons.mpr ⟨fun _ => first.mono (List.subset_append_left _ _), ?_⟩
  intro m listed entered
  exact (others m listed entered).mono (List.subset_append_right _ _)

theorem Outlined.explored {space? : Option String} {container? : Option TypeKey}
    {pending : List Node} {ds : List TypeDeclaration}
    (outlined : Outlined space? container? pending ds) :
    ∀ n ∈ pending, n.isEntered = true → Explored ds n := by
  induction outlined with
  | nil => exact fun _ listed => absurd listed List.not_mem_nil
  | skip passed _ ih =>
    refine List.forall_mem_cons.mpr ⟨fun entered => ?_, ih⟩
    rw [isPassedOver_eq, entered] at passed
    cases passed
  | space kind _ own _ _ ih =>
    rw [← searchedNodes_of_hasSearchedBody (hasSearchedBody_of_space kind)] at own
    exact forall_explored (explored_of_inner (by rw [kind]; rfl) own) ih
  | fileSpace kind _ own _ _ ih =>
    rw [← searchedNodes_of_isSearched (isSearched_of_fileSpace kind)] at own
    exact forall_explored (explored_of_inner (by rw [kind]; rfl) own) ih
  | @type _ _ n d _ inner _ declares made own _ _ ih =>
    rw [← searchedNodes_of_hasSearchedBody (hasSearchedBody_of_type declares)] at own
    obtain ⟨here, -⟩ := typeDeclaration?_eq_some made
    -- The declaration itself comes first, then what is found in it.
    have first : Explored (d :: inner) n := by
      refine ⟨fun _ => ⟨d, List.mem_cons_self, here⟩, _, _, inner, own, ?_⟩
      exact List.subset_cons_self d inner
    exact forall_explored first ih
  | part broken own _ _ ih =>
    have apart : ∀ kind ∈ ["ERROR", "declaration_list"],
        typeDeclarationKinds.contains kind = false := by decide
    rw [← searchedNodes_of_isSearched (isSearched_of_part broken)] at own
    exact forall_explored (explored_of_inner (apart _ (List.contains_iff_mem.mp broken)) own) ih

/-- Everything that the outline of a file comes to is part of an outline of its own, whose
declarations are those of the file. -/
theorem Within.outlined {root n : Node} (within : Within root isEntered n) :
    ∃ space? container? pending ds, Outlined space? container? pending ds ∧ n ∈ pending ∧
      ds ⊆ root.declarations := by
  induction within with
  | top named =>
    exact ⟨none, none, _, _, root.declarations_outlined, named, List.Subset.refl _⟩
  | inner _ entered listed ih =>
    obtain ⟨space?, container?, pending, ds, outlined, member, found⟩ := ih
    obtain ⟨space'?, container'?, inner, own, within⟩ :=
      (outlined.explored _ member entered).inside
    exact ⟨space'?, container'?, _, inner, own, listed, List.Subset.trans within found⟩

theorem Outlined.within {root : Node} {space? : Option String} {container? : Option TypeKey}
    {pending : List Node} {ds : List TypeDeclaration}
    (outlined : Outlined space? container? pending ds)
    (start : ∀ n ∈ pending, Within root isEntered n) :
    ∀ d ∈ ds, Within root isEntered d.node ∧ d.node.hasName = true := by
  -- The outline hands on that it has come to the pending nodes, and declares them in passing.
  induction outlined with
  | nil => exact fun _ member => absurd member List.not_mem_nil
  | skip _ _ ih => exact ih fun n listed => start n (List.mem_cons_of_mem _ listed)
  | space kind named _ _ inner later =>
    obtain ⟨here, others⟩ := List.forall_mem_cons.mp start
    have entered := isEntered_of_namespace (by rw [kind]; rfl) named
    have own := searchedNodes_of_hasSearchedBody (hasSearchedBody_of_space kind)
    refine List.forall_mem_append.mpr ⟨inner fun m listed => ?_, later others⟩
    exact .inner here entered (own ▸ listed)
  | fileSpace kind named _ _ inner later =>
    obtain ⟨here, others⟩ := List.forall_mem_cons.mp start
    have entered := isEntered_of_namespace (by rw [kind]; rfl) named
    have own := searchedNodes_of_isSearched (isSearched_of_fileSpace kind)
    refine List.forall_mem_append.mpr ⟨inner fun m listed => ?_, later others⟩
    exact .inner here entered (own ▸ listed)
  | type declares made _ _ inner later =>
    obtain ⟨rfl, -, -, -, name, visible, -⟩ := typeDeclaration?_eq_some made
    obtain ⟨here, others⟩ := List.forall_mem_cons.mp start
    have named := hasName_of_some name visible
    have own := searchedNodes_of_hasSearchedBody (hasSearchedBody_of_type declares)
    refine List.forall_mem_cons.mpr ⟨⟨here, named⟩, ?_⟩
    refine List.forall_mem_append.mpr ⟨inner fun m listed => ?_, later others⟩
    exact .inner here (isEntered_of_type declares named) (own ▸ listed)
  | part broken _ _ inner later =>
    obtain ⟨here, others⟩ := List.forall_mem_cons.mp start
    have own := searchedNodes_of_isSearched (isSearched_of_part broken)
    refine List.forall_mem_append.mpr ⟨inner fun m listed => ?_, later others⟩
    exact .inner here (isEntered_of_part broken) (own ▸ listed)

/-- A file declares exactly the type declarations with a name to which its outline comes. -/
theorem recorded_iff_within {root n : Node}
    (declares : typeDeclarationKinds.contains n.kind = true) :
    (∃ d ∈ root.declarations, d.node = n) ↔ Within root isEntered n ∧ n.hasName = true := by
  constructor
  · rintro ⟨d, recorded, rfl⟩
    exact root.declarations_outlined.within (fun _ named => .top named) d recorded
  · rintro ⟨within, named⟩
    obtain ⟨_, _, _, ds, outlined, listed, found⟩ := within.outlined
    have explored := outlined.explored n listed (isEntered_of_type declares named)
    obtain ⟨d, recorded, same⟩ := explored.own declares
    exact ⟨d, found recorded, same⟩

/-! ### Names all the way up -/

/-- A type or namespace has a name that is not empty. -/
def IsNamed (n : Node) : Prop :=
  (typeDeclarationKinds.contains n.kind = true → n.hasName = true) ∧
    (namespaceKinds.contains n.kind = true → n.hasSpaceName = true)

instance (n : Node) : Decidable n.IsNamed := inferInstanceAs (Decidable (_ ∧ _))

theorem ancestors_of_searchedNodes {n m : Node} (listed : m ∈ n.searchedNodes) :
    n :: n.ancestors ⊆ m.ancestors := by
  unfold searchedNodes at listed
  split at listed
  -- Between a member and its declaration there is the body.
  · obtain ⟨b, found, child⟩ := mem_members listed
    rw [ancestors_of_mem_children child,
      ancestors_of_mem_children (mem_children_of_childOrKind? found)]
    exact List.subset_cons_self _ _
  · rw [ancestors_of_mem_children (mem_children_of_mem_namedChildren listed)]
    exact List.Subset.refl _

theorem isEntered_of_isNamed {n : Node} (opened : n.isOpen = true) (named : n.IsNamed) :
    n.isEntered = true := by
  by_cases space : namespaceKinds.contains n.kind = true
  · obtain ⟨name, known, -⟩ := (Option.any_eq_true _ _).mp (named.2 space)
    exact isEntered_of_namespace space known
  · rw [isEntered, opened, if_neg space]
    by_cases declares : typeDeclarationKinds.contains n.kind = true
    · rw [named.1 declares, Bool.or_true, Bool.and_true]
    · rw [Bool.eq_false_iff.mpr declares]
      rfl

/-- Where everything around a node has a name, names do not keep an outline from coming to it. -/
theorem within_of_named {root n : Node} (within : Within root isOpen n)
    (named : ∀ a ∈ n.ancestors, a.IsNamed) : Within root isEntered n := by
  induction within with
  | top listed => exact .top listed
  | inner _ opened listed ih =>
    have around := ancestors_of_searchedNodes listed
    obtain ⟨own, outer⟩ := List.forall_mem_cons.mp fun a above => named a (around above)
    exact .inner (ih outer) (isEntered_of_isNamed opened own) listed

theorem Within.isOpen {root n : Node} (within : Within root isEntered n) :
    Within root isOpen n := by
  induction within with
  | top listed => exact .top listed
  | inner _ entered listed ih => exact .inner ih (Bool.and_eq_true_iff.mp entered).1 listed

end ClassAtlas.Node
