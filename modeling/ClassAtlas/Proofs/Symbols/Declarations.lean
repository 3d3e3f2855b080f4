import ClassAtlas.Symbols.Outline

/-!
# Declarations of an outline

The type declarations of an outline as a relation between the pending nodes, the namespace and the
type they are in, and the declarations found, with one rule for each kind of node.
-/
namespace ClassAtlas

/-- The declarations of an outline in document order. -/
def declarationsOf (entries : List OutlineEntry) : List TypeDeclaration :=
  entries.filterMap fun
    | .type declaration => some declaration
    | .scope _ => none

@[simp] theorem declarationsOf_nil : declarationsOf [] = [] := rfl

@[simp] theorem declarationsOf_scope (scope : NamespaceScope) (rest : List OutlineEntry) :
    declarationsOf (.scope scope :: rest) = declarationsOf rest := rfl

@[simp] theorem declarationsOf_type (d : TypeDeclaration) (rest : List OutlineEntry) :
    declarationsOf (.type d :: rest) = d :: declarationsOf rest := rfl

@[simp] theorem declarationsOf_append (left right : List OutlineEntry) :
    declarationsOf (left ++ right) = declarationsOf left ++ declarationsOf right :=
  List.filterMap_append

/-- The path of the declaration continues that of the type around it, or else its namespace. -/
def TypeDeclaration.IsPlaced (d : TypeDeclaration) : Prop :=
  d.path = match d.container? with
    | some container => dotted container.path d.name
    | none => qualified d.space? d.name

namespace Node

def namespaceKinds : List String := ["namespace_declaration", "file_scoped_namespace_declaration"]

/-- The declarations of a file in document order, given its root. -/
def declarations (root : Node) : List TypeDeclaration := declarationsOf root.fileOutline

/-- What a node declares, it declares under a name of its own in the given surroundings. -/
theorem typeDeclaration?_eq_some {n : Node} {space? : Option String}
    {container? : Option TypeKey} {d : TypeDeclaration}
    (found : n.typeDeclaration? space? container? = some d) :
    d.node = n ∧ d.space? = space? ∧ d.container? = container? ∧ d.IsPlaced ∧
      n.name? = some d.name ∧ d.name ≠ "" ∧ d.typeParameters = n.typeParameters := by
  unfold typeDeclaration? at found
  -- Each step of the definition can fail; where none does, the fields are read off.
  cases kind : TypeKind.ofNodeKind? n.kind with
  | none => simp [kind] at found
  | some k =>
    cases name : n.name? with
    | none => simp [kind, name] at found
    | some written =>
      simp only [kind, name, Option.bind_eq_bind, Option.bind_some] at found
      split at found
      · cases found
      next visible =>
        cases found
        exact ⟨rfl, rfl, rfl, rfl, rfl, by simpa using visible, rfl⟩

/-- The outline has nothing to say about the node: it is of no kind that is searched, or it is a
namespace or type without a name. -/
def isPassedOver (n : Node) (space? : Option String) (container? : Option TypeKey) : Bool :=
  if namespaceKinds.contains n.kind then
    (n.child? "name").isNone
  else if typeDeclarationKinds.contains n.kind then (n.typeDeclaration? space? container?).isNone
  else !(["ERROR", "declaration_list"].contains n.kind)

/-- The declarations that the outline of the pending nodes finds, for nodes in a namespace and in a
type. -/
inductive Outlined : Option String → Option TypeKey → List Node → List TypeDeclaration → Prop
  | nil {space? : Option String} {container? : Option TypeKey} : Outlined space? container? [] []
  | skip {space? : Option String} {container? : Option TypeKey} {n : Node} {rest : List Node}
      {later : List TypeDeclaration} :
      n.isPassedOver space? container? = true → Outlined space? container? rest later →
      Outlined space? container? (n :: rest) later
  | space {space? : Option String} {container? : Option TypeKey} {n name : Node}
      {rest : List Node} {inner later : List TypeDeclaration} :
      n.kind = "namespace_declaration" → n.child? "name" = some name →
      Outlined (some (qualified space? name.compactText)) none n.members inner →
      Outlined space? container? rest later →
      Outlined space? container? (n :: rest) (inner ++ later)
  | fileSpace {space? : Option String} {container? : Option TypeKey} {n name : Node}
      {rest : List Node} {inner later : List TypeDeclaration} :
      n.kind = "file_scoped_namespace_declaration" → n.child? "name" = some name →
      Outlined (some (qualified space? name.compactText)) none n.namedChildren inner →
      Outlined (some (qualified space? name.compactText)) container? rest later →
      Outlined space? container? (n :: rest) (inner ++ later)
  | type {space? : Option String} {container? : Option TypeKey} {n : Node} {d : TypeDeclaration}
      {rest : List Node} {inner later : List TypeDeclaration} :
      typeDeclarationKinds.contains n.kind = true →
      n.typeDeclaration? space? container? = some d →
      Outlined space? (some d.key) n.members inner → Outlined space? container? rest later →
      Outlined space? container? (n :: rest) (d :: (inner ++ later))
  | part {space? : Option String} {container? : Option TypeKey} {n : Node} {rest : List Node}
      {inner later : List TypeDeclaration} :
      ["ERROR", "declaration_list"].contains n.kind = true →
      Outlined space? container? n.namedChildren inner → Outlined space? container? rest later →
      Outlined space? container? (n :: rest) (inner ++ later)

theorem outlined (stop : Nat) (space? : Option String) (container? : Option TypeKey)
    (pending : List Node) :
    Outlined space? container? pending
      (declarationsOf (outline stop space? container? pending)) := by
  -- The unnamed cases of the function are those of `skip`; each other case is a rule of its own.
  fun_induction outline stop space? container? pending
  case case1 => exact .nil
  case case2 space unnamed later =>
    exact .skip (by simp [isPassedOver, namespaceKinds, eq_of_beq space, unnamed]) later
  case case4 space unnamed later =>
    exact .skip (by simp [isPassedOver, namespaceKinds, eq_of_beq space, unnamed]) later
  case case6 declares unnamed later =>
    exact .skip (by simp_all [isPassedOver, namespaceKinds]) later
  case case9 later =>
    exact .skip (by simp_all [isPassedOver, namespaceKinds]) later
  case case3 space _ named _ inner later =>
    rw [declarationsOf_scope, declarationsOf_append]
    exact .space (eq_of_beq space) named inner later
  case case5 space _ named _ inner later =>
    rw [declarationsOf_scope, declarationsOf_append]
    exact .fileSpace (eq_of_beq space) named inner later
  case case7 declares _ found inner later =>
    rw [declarationsOf_type, declarationsOf_append]
    exact .type declares found inner later
  case case8 broken inner later =>
    rw [declarationsOf_append]
    exact .part broken inner later

theorem beq_false_of_contains {kinds : List String} {kind other : String}
    (among : kinds.contains kind = true) (apart : kinds.contains other = false) :
    (kind == other) = false :=
  beq_eq_false_iff_ne.mpr fun same => Bool.false_ne_true (apart ▸ same ▸ among)

/-- The rules leave no choice. -/
theorem Outlined.eq {space? : Option String} {container? : Option TypeKey} {pending : List Node}
    {ds : List TypeDeclaration} (outlined : Outlined space? container? pending ds) (stop : Nat) :
    declarationsOf (outline stop space? container? pending) = ds := by
  induction outlined generalizing stop with
  | nil => rw [outline, declarationsOf_nil]
  | @skip space? _ n rest _ passed _ later =>
    rw [outline]
    -- A node is passed over for different reasons, so the kinds are told apart as the outline does.
    unfold isPassedOver namespaceKinds at passed
    by_cases space : n.kind = "namespace_declaration"
    · simp_all
    · by_cases fileSpace : n.kind = "file_scoped_namespace_declaration"
      · simp_all
      · simp only [List.contains_cons, beq_iff_eq, space, fileSpace, List.contains_nil,
          if_false] at passed ⊢
        by_cases declares : typeDeclarationKinds.contains n.kind = true
        · simp_all
        · simp_all
  | space kind named _ _ inner later =>
    rw [outline, kind]
    simp [named, inner, later]
  | fileSpace kind named _ _ inner later =>
    rw [outline, kind]
    simp [named, inner, later]
  | type declares found _ _ inner later =>
    rw [outline, beq_false_of_contains declares (by decide), declares,
      beq_false_of_contains declares (by decide)]
    simp [found, inner, later]
  | part broken _ _ inner later =>
    -- The kinds that are searched as they stand declare no types.
    have apart : ∀ kind ∈ ["ERROR", "declaration_list"],
        typeDeclarationKinds.contains kind = false := by decide
    rw [outline, beq_false_of_contains broken (by decide), broken,
      beq_false_of_contains broken (by decide), apart _ (List.contains_iff_mem.mp broken)]
    simp [inner, later]

theorem forall_mem_append_of_subset {P : TypeDeclaration → Prop}
    {all left right : List TypeDeclaration} (within : left ++ right ⊆ all)
    (inner : left ⊆ all → ∀ d ∈ left, P d) (later : right ⊆ all → ∀ d ∈ right, P d) :
    ∀ d ∈ left ++ right, P d := by
  obtain ⟨here, after⟩ := List.append_subset.mp within
  exact List.forall_mem_append.mpr ⟨inner here, later after⟩

/-- What holds of the pending nodes in their container, and is handed on to the nodes searched
inside them, holds of everything found. -/
theorem Outlined.forall_found {all : List TypeDeclaration} {P : Option TypeKey → Node → Prop}
    (space : ∀ {container? : Option TypeKey} {n : Node}, P container? n →
      n.kind = "namespace_declaration" → ∀ m ∈ n.members, P none m)
    (fileSpace : ∀ {container? : Option TypeKey} {n : Node}, P container? n →
      n.kind = "file_scoped_namespace_declaration" → ∀ m ∈ n.namedChildren, P none m)
    (type : ∀ {container? : Option TypeKey} {d : TypeDeclaration}, P container? d.node →
      typeDeclarationKinds.contains d.node.kind = true → d ∈ all →
      ∀ m ∈ d.node.members, P (some d.key) m)
    (part : ∀ {container? : Option TypeKey} {n : Node}, P container? n →
      ["ERROR", "declaration_list"].contains n.kind = true → ∀ m ∈ n.namedChildren, P container? m)
    {space? : Option String} {container? : Option TypeKey} {pending : List Node}
    {ds : List TypeDeclaration} (outlined : Outlined space? container? pending ds)
    (within : ds ⊆ all) (start : ∀ n ∈ pending, P container? n) :
    ∀ d ∈ ds, typeDeclarationKinds.contains d.node.kind = true ∧ P d.container? d.node := by
  induction outlined with
  | nil => exact fun _ member => absurd member List.not_mem_nil
  | skip _ _ later => exact later within fun n member => start n (List.mem_cons_of_mem _ member)
  | space kind _ _ _ inner later =>
    have own := space (start _ List.mem_cons_self) kind
    have others := fun n member => start n (List.mem_cons_of_mem _ member)
    exact forall_mem_append_of_subset within (inner · own) (later · others)
  | fileSpace kind _ _ _ inner later =>
    have own := fileSpace (start _ List.mem_cons_self) kind
    have others := fun n member => start n (List.mem_cons_of_mem _ member)
    exact forall_mem_append_of_subset within (inner · own) (later · others)
  | type declares made _ _ inner later =>
    -- The declaration itself is found here, before what its members declare.
    obtain ⟨rfl, -, around, -⟩ := typeDeclaration?_eq_some made
    obtain ⟨found, within⟩ := List.cons_subset.mp within
    have here := start _ List.mem_cons_self
    have own := type here declares found
    have others := fun n member => start n (List.mem_cons_of_mem _ member)
    refine List.forall_mem_cons.mpr ⟨⟨declares, around.symm ▸ here⟩, ?_⟩
    exact forall_mem_append_of_subset within (inner · own) (later · others)
  | part broken _ _ inner later =>
    have own := part (start _ List.mem_cons_self) broken
    have others := fun n member => start n (List.mem_cons_of_mem _ member)
    exact forall_mem_append_of_subset within (inner · own) (later · others)

theorem declarations_outlined (root : Node) :
    Outlined none none root.namedChildren root.declarations :=
  outlined root.stop none none root.namedChildren

end Node

end ClassAtlas
