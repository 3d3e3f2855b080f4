import ClassAtlas.Proofs.Extraction.Descriptors
import ClassAtlas.Proofs.Symbols.Coherence
import ClassAtlas.Proofs.Symbols.Entered
import ClassAtlas.Proofs.Symbols.Identity

/-!
# One descriptor per declaration

In full, a file is described by exactly one descriptor for each named class declaration that its
outline comes to, in document order. Names apart, what keeps a declaration from being described is a
node around it that the outline does not look into, such as a conditional section.
-/
namespace ClassAtlas

/-- The descriptor is that of a node that declares a class. -/
def Model.Describes (m : Model) (settings : Settings) (path : String) (n : Node)
    (d : ClassDescriptor) : Prop :=
  ∃ id, m.table.declaredBy? n = some id ∧ m.descriptor? settings path ⟨n, id⟩ = some d

/-- The node is a declaration of a class, struct or record with a name that is not empty. -/
def Node.IsClassDeclaration (n : Node) : Prop :=
  Node.classLikeKinds.contains n.kind = true ∧ n.hasName = true

instance (n : Node) : Decidable n.IsClassDeclaration := inferInstanceAs (Decidable (_ ∧ _))

theorem forall₂_filterMap {α β : Type} {f : α → Option β} {R : α → β → Prop} {xs : List α}
    (each : ∀ x ∈ xs, ∃ y, f x = some y ∧ R x y) : List.Forall₂ R xs (xs.filterMap f) := by
  induction xs with
  | nil => exact .nil
  | cons x rest ih =>
    obtain ⟨⟨y, found, related⟩, others⟩ := List.forall_mem_cons.mp each
    rw [List.filterMap_cons_some found]
    exact .cons related (ih others)

namespace Model

variable {settings : Settings} {tree : Tree}

theorem declaredBy?_of_mem_classDeclarations {m : Model} {c : ClassDeclaration}
    (listed : c ∈ m.classDeclarations) : m.table.declaredBy? c.node = some c.id := by
  obtain ⟨n, -, made⟩ := List.mem_filterMap.mp listed
  obtain ⟨id, declared, rfl⟩ := Option.map_eq_some_iff.mp made
  exact declared

/-- In full, every class declaration has a descriptor. -/
theorem exists_descriptor {c : ClassDeclaration} (path : String)
    (listed : c ∈ (ofTree tree).classDeclarations) (full : settings.profile = .full) :
    ∃ d, (ofTree tree).descriptor? settings path c = some d := by
  obtain ⟨s, there, -, -⟩ := mem_classDeclarations.mp listed
  refine ⟨((ofTree tree).describe settings path c s).1, ?_⟩
  rw [descriptor?_of_get? there, full]
  rfl

/-- The class declarations of a file are those with a name to which its outline comes. -/
theorem mem_classDeclarations_iff_within {n : Node} :
    n ∈ (ofTree tree).classDeclarations.map ClassDeclaration.node ↔
      n.IsClassDeclaration ∧ Node.Within (.root tree) Node.isEntered n := by
  have declares : ∀ kind ∈ Node.classLikeKinds, Node.typeDeclarationKinds.contains kind = true := by
    decide
  -- The walk over all nodes keeps those that the table has recorded, and these are entered.
  rw [map_node_classDeclarations, Node.classLikeNodes, List.mem_filter, List.mem_filter]
  constructor
  · rintro ⟨⟨below, kind⟩, declared⟩
    have recorded :=
      (SymbolTable.declaredBy?_isSome_iff (List.mem_cons_of_mem _ below)).mp declared
    obtain ⟨within, named⟩ :=
      (Node.recorded_iff_within (declares _ (List.contains_iff_mem.mp kind))).mp recorded
    exact ⟨⟨kind, named⟩, within⟩
  · rintro ⟨⟨kind, named⟩, within⟩
    obtain ⟨d, recorded, rfl⟩ :=
      (Node.recorded_iff_within (declares _ (List.contains_iff_mem.mp kind))).mpr ⟨within, named⟩
    have below := (Node.root tree).declarations_sublist.subset (List.mem_map_of_mem recorded)
    refine ⟨⟨below, kind⟩, ?_⟩
    exact (SymbolTable.declaredBy?_isSome_iff (List.mem_cons_of_mem _ below)).mpr
      ⟨d, recorded, rfl⟩

end Model

open Model in
/-- In full, a file has exactly one descriptor for each class declaration with a name to which its
outline comes, in document order. Where the types and namespaces around such a declaration have
names, it is described exactly if the outline looks into every node on the way to it. -/
theorem extract_describes_within (file : ParsedFile) (settings : Settings) (path : String)
    (valid : settings.flaw? = none) (full : settings.profile = .full) :
    ∃ e nodes, file.extract settings path = .ok e ∧
      nodes.Sublist (Node.root file.tree).descendants ∧ nodes.Nodup ∧
      List.Forall₂ ((ofTree file.tree).Describes settings path) nodes e.classes ∧
      (∀ n, n ∈ nodes ↔
        n.IsClassDeclaration ∧ Node.Within (.root file.tree) Node.isEntered n) ∧
      ∀ n ∈ (Node.root file.tree).descendants, n.IsClassDeclaration →
        (∀ a ∈ n.ancestors, a.IsNamed) →
        (n ∈ nodes ↔ Node.Within (.root file.tree) Node.isOpen n) := by
  have ordered := (ofTree file.tree).classDeclarations_sublist
  refine ⟨_, _, file.extract_of_valid path valid, ordered,
    (Node.root file.tree).descendants_nodup.sublist ordered, ?described,
    fun n => mem_classDeclarations_iff_within, ?reached⟩
  case described =>
    rw [file.classes_describe, List.forall₂_map_left_iff]
    refine forall₂_filterMap fun c listed => ?_
    obtain ⟨d, described⟩ := exists_descriptor path listed full
    exact ⟨d, described, c.id, declaredBy?_of_mem_classDeclarations listed, described⟩
  case reached =>
    intro n _ declaration named
    rw [mem_classDeclarations_iff_within]
    constructor
    · rintro ⟨-, within⟩
      exact within.isOpen
    · intro within
      exact ⟨declaration, Node.within_of_named within named⟩

/-! ### A class in a conditional section -/

/-- A node that goes over some rows. -/
def rowsTree (kind : String) (field? : Option String) (start row lastRow : Nat) (text : String)
    (children : List Tree) : Tree :=
  .node ⟨kind, field?, true, false, ⟨start, start + text.utf8ByteSize, row, lastRow⟩, text⟩ children

/-- `class A { }` on the third row, between `#if X` and `#endif`. -/
def guardedSection : Tree :=
  rowsTree "preproc_if" none 10 1 3 "#if X\nclass A \x7b \x7d\n#endif"
    [rowsTree "identifier" (some "condition") 14 1 1 "X" [],
      rowsTree "class_declaration" none 16 2 2 "class A \x7b \x7d"
        [rowsTree "identifier" (some "name") 22 2 2 "A" [],
          rowsTree "declaration_list" (some "body") 24 2 2 "\x7b \x7d" []]]

/-- A class `B` whose only member is a conditional section with a class `A` in it. -/
def guardedClass : Tree :=
  rowsTree "compilation_unit" none 0 0 4 "class B \x7b\n#if X\nclass A \x7b \x7d\n#endif\n\x7d"
    [rowsTree "class_declaration" none 0 0 4 "class B \x7b\n#if X\nclass A \x7b \x7d\n#endif\n\x7d"
      [rowsTree "identifier" (some "name") 6 0 0 "B" [],
        rowsTree "declaration_list" (some "body") 8 0 4 "\x7b\n#if X\nclass A \x7b \x7d\n#endif\n\x7d"
          [guardedSection]]]

/-- The conditional section as the only member of the class. -/
def guardedSectionNode : Node :=
  ((Node.root guardedClass).namedChildren.flatMap Node.members).headD (.root guardedClass)

theorem guardedClass_inner : ∃ n ∈ (Node.root guardedClass).descendants, n.name? = some "A" ∧
    n.IsClassDeclaration ∧ ∀ a ∈ n.ancestors, a.IsNamed := by
  decide +kernel

/-- The outline does not come to what is in the conditional section. -/
theorem guardedClass_within {n : Node} (within : Node.Within (.root guardedClass) Node.isOpen n) :
    n ∈ (Node.root guardedClass).namedChildren ∨ n = guardedSectionNode := by
  induction within with
  | top listed => exact .inl listed
  | inner _ opened listed ih =>
    -- Inside the class there is only the section, and the section is not open.
    rcases ih with first | rfl
    · obtain rfl := List.mem_singleton.mp first
      exact .inr (List.mem_singleton.mp listed)
    · exact absurd opened (by decide)

/-- The class in the conditional section has a name, and so has everything around it, but it is not
described. -/
theorem guardedClass_undescribed :
    Settings.standard.flaw? = none ∧ Settings.standard.profile = .full ∧
      ∃ n ∈ (Node.root guardedClass).descendants, n.name? = some "A" ∧ n.IsClassDeclaration ∧
        (∀ a ∈ n.ancestors, a.IsNamed) ∧
        ∃ e nodes, ParsedFile.extract ⟨guardedClass, false⟩ .standard "In.cs" = .ok e ∧
          List.Forall₂ ((Model.ofTree guardedClass).Describes .standard "In.cs") nodes e.classes ∧
          n ∉ nodes := by
  obtain ⟨n, below, name, declaration, named⟩ := guardedClass_inner
  obtain ⟨e, nodes, extracted, -, -, described, -, reached⟩ :=
    extract_describes_within ⟨guardedClass, false⟩ .standard "In.cs" (by decide +kernel) rfl
  refine ⟨by decide +kernel, rfl, n, below, name, declaration, named, e, nodes, extracted,
    described, fun listed => ?_⟩
  rcases guardedClass_within ((reached n below declaration named).mp listed) with first | rfl
  · rw [List.mem_singleton.mp first] at name
    exact absurd name (by decide +kernel)
  · exact absurd declaration.1 (by decide)

end ClassAtlas
