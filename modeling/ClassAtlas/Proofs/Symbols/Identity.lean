import ClassAtlas.Proofs.Symbols.Enclosing
import ClassAtlas.Proofs.Symbols.FullName

/-!
# Identity of types

When two declarations ought to be parts of one type, and when the table takes them for parts of one
type. The table compares dotted paths and the type parameters of the innermost type alone, so it
merges types that differ only in the type parameters of the types around them.
-/
namespace ClassAtlas

/-- The recorded declarations around a node, nearest first. -/
def around (ds : List TypeDeclaration) (n : Node) : List TypeDeclaration :=
  n.ancestors.filterMap (recordedAt? ds)

/-- A declaration and those around it, from the inside out. -/
def outward (ds : List TypeDeclaration) (d : TypeDeclaration) : List TypeDeclaration :=
  d :: around ds d.node

/-- The numbers of type parameters of a declaration and of those around it. -/
def arities (ds : List TypeDeclaration) (d : TypeDeclaration) : List Nat :=
  (outward ds d).map fun t => t.key.arity

/-- The names and numbers of type parameters of a declaration and of those around it. -/
def levels (ds : List TypeDeclaration) (d : TypeDeclaration) : List (String × Nat) :=
  (outward ds d).map fun t => (t.name, t.key.arity)

/-- The namespace of the outermost declaration; the global namespace has the empty name. -/
def outermostSpace (ds : List TypeDeclaration) (d : TypeDeclaration) : String :=
  ((outward ds d).getLast?.bind TypeDeclaration.space?).getD ""

/-- Two recorded declarations ought to be parts of one type: they agree in name and number of type
parameters, and are in the same namespace or else in declarations of the same type. -/
inductive SameType (ds : List TypeDeclaration) : TypeDeclaration → TypeDeclaration → Prop
  | outermost {d e : TypeDeclaration} : d.name = e.name → d.key.arity = e.key.arity →
      enclosing? ds d.node = none → enclosing? ds e.node = none →
      d.space?.getD "" = e.space?.getD "" → SameType ds d e
  | nested {d e d' e' : TypeDeclaration} : d.name = e.name → d.key.arity = e.key.arity →
      enclosing? ds d.node = some d' → enclosing? ds e.node = some e' → SameType ds d' e' →
      SameType ds d e

/-! ### From the inside out -/

theorem enclosing?_eq_head? (ds : List TypeDeclaration) (n : Node) :
    enclosing? ds n = (around ds n).head? :=
  List.head?_filterMap.symm

theorem outward_of_none {ds : List TypeDeclaration} {d : TypeDeclaration}
    (outermost : enclosing? ds d.node = none) : outward ds d = [d] := by
  rw [enclosing?_eq_head?, List.head?_eq_none_iff] at outermost
  rw [outward, outermost]

section

variable {tree : Tree} {d d' e : TypeDeclaration}

/-- The nearest declaration around a declaration of a file is recorded, and the others around the
one are around the other. -/
theorem outward_of_some (recorded : d ∈ (Node.root tree).declarations)
    (nested : enclosing? (Node.root tree).declarations d.node = some d') :
    d' ∈ (Node.root tree).declarations ∧
      outward (Node.root tree).declarations d = d :: outward (Node.root tree).declarations d' := by
  obtain ⟨x, above, found, further⟩ := Node.filterMap_ancestors nested
  obtain ⟨recorded', here⟩ := recordedAt?_eq_some found
  -- What is around a node of the file is a node of the file, as nothing is around the root.
  have inside : x ∈ (Node.root tree).subtree := by
    obtain outside | ⟨within, -⟩ :=
      Node.mem_ancestors (Node.mem_subtree_of_mem_declarations recorded) above
    · exact absurd outside List.not_mem_nil
    · exact within
  have same := Node.eq_of_address (Node.mem_subtree_of_mem_declarations recorded') inside here
  refine ⟨recorded', ?_⟩
  rw [outward, around, further, ← same]
  rfl

/-- What holds of outermost declarations, and of two declarations if it does of the nearest ones
around them, holds of any two declarations with equally many around them. -/
theorem recorded_induction {P : TypeDeclaration → TypeDeclaration → Prop}
    (outermost : ∀ {d e : TypeDeclaration}, d ∈ (Node.root tree).declarations →
      e ∈ (Node.root tree).declarations →
      enclosing? (Node.root tree).declarations d.node = none →
      enclosing? (Node.root tree).declarations e.node = none → P d e)
    (nested : ∀ {d e d' e' : TypeDeclaration}, d ∈ (Node.root tree).declarations →
      e ∈ (Node.root tree).declarations →
      enclosing? (Node.root tree).declarations d.node = some d' →
      enclosing? (Node.root tree).declarations e.node = some e' → P d' e' → P d e)
    (recorded : d ∈ (Node.root tree).declarations) (recorded' : e ∈ (Node.root tree).declarations)
    (depth : (outward (Node.root tree).declarations d).length =
      (outward (Node.root tree).declarations e).length) : P d e := by
  -- The induction is on how many declarations there are around each of the two.
  generalize size : (outward (Node.root tree).declarations d).length = levels
  induction levels generalizing d e with
  | zero => cases size
  | succ levels ih =>
    cases outer : enclosing? (Node.root tree).declarations d.node with
    | none =>
      cases outer' : enclosing? (Node.root tree).declarations e.node with
      | none => exact outermost recorded recorded' outer outer'
      | some e' =>
        rw [outward_of_none outer, (outward_of_some recorded' outer').2, outward] at depth
        simp at depth
    | some d' =>
      obtain ⟨inside, further⟩ := outward_of_some recorded outer
      rw [further, List.length_cons] at depth size
      cases outer' : enclosing? (Node.root tree).declarations e.node with
      | none =>
        rw [outward_of_none outer', outward] at depth
        simp at depth
      | some e' =>
        obtain ⟨inside', further'⟩ := outward_of_some recorded' outer'
        rw [further', List.length_cons] at depth
        have around := ih inside inside' (Nat.add_right_cancel depth) (Nat.add_right_cancel size)
        exact nested recorded recorded' outer outer' around

/-! ### The rule in full -/

theorem levels_of_none {ds : List TypeDeclaration} (outermost : enclosing? ds d.node = none) :
    levels ds d = [(d.name, d.key.arity)] := by
  rw [levels, outward_of_none outermost]
  rfl

theorem levels_of_some (recorded : d ∈ (Node.root tree).declarations)
    (nested : enclosing? (Node.root tree).declarations d.node = some d') :
    levels (Node.root tree).declarations d =
      (d.name, d.key.arity) :: levels (Node.root tree).declarations d' := by
  rw [levels, (outward_of_some recorded nested).2]
  rfl

theorem arities_of_some (recorded : d ∈ (Node.root tree).declarations)
    (nested : enclosing? (Node.root tree).declarations d.node = some d') :
    arities (Node.root tree).declarations d =
      d.key.arity :: arities (Node.root tree).declarations d' := by
  rw [arities, (outward_of_some recorded nested).2]
  rfl

theorem arities_eq (ds : List TypeDeclaration) (d : TypeDeclaration) :
    arities ds d = (levels ds d).map Prod.snd := by
  rw [arities, levels, List.map_map]
  rfl

theorem outermostSpace_of_none {ds : List TypeDeclaration}
    (outermost : enclosing? ds d.node = none) : outermostSpace ds d = d.space?.getD "" := by
  rw [outermostSpace, outward_of_none outermost]
  rfl

theorem outermostSpace_of_some (recorded : d ∈ (Node.root tree).declarations)
    (nested : enclosing? (Node.root tree).declarations d.node = some d') :
    outermostSpace (Node.root tree).declarations d =
      outermostSpace (Node.root tree).declarations d' := by
  unfold outermostSpace
  rw [(outward_of_some recorded nested).2, outward, List.getLast?_cons_cons]

/-- Declarations are parts of one type exactly when they agree level by level, from their own names
and numbers of type parameters to the namespace of the outermost declarations. -/
theorem sameType_iff_levels (recorded : d ∈ (Node.root tree).declarations)
    (recorded' : e ∈ (Node.root tree).declarations) :
    SameType (Node.root tree).declarations d e ↔
      levels (Node.root tree).declarations d = levels (Node.root tree).declarations e ∧
        outermostSpace (Node.root tree).declarations d =
          outermostSpace (Node.root tree).declarations e := by
  constructor
  · intro same
    induction same with
    | outermost name arity outer outer' space =>
      rw [levels_of_none outer, levels_of_none outer', outermostSpace_of_none outer,
        outermostSpace_of_none outer', name, arity]
      exact ⟨rfl, space⟩
    | nested name arity outer outer' _ ih =>
      have inside := (outward_of_some recorded outer).1
      have inside' := (outward_of_some recorded' outer').1
      obtain ⟨further, space⟩ := ih inside inside'
      rw [levels_of_some recorded outer, levels_of_some recorded' outer',
        outermostSpace_of_some recorded outer, outermostSpace_of_some recorded' outer', name, arity,
        further]
      exact ⟨rfl, space⟩
  · rintro ⟨same, space⟩
    have depth : (outward (Node.root tree).declarations d).length =
        (outward (Node.root tree).declarations e).length := by
      simpa only [levels, List.length_map] using congrArg List.length same
    refine recorded_induction (P := fun d e => levels _ d = levels _ e →
      outermostSpace _ d = outermostSpace _ e → SameType _ d e)
      ?outermost ?nested recorded recorded' depth same space
    case outermost =>
      intro d e _ _ outer outer' same space
      rw [levels_of_none outer, levels_of_none outer', List.cons.injEq, Prod.mk.injEq] at same
      rw [outermostSpace_of_none outer, outermostSpace_of_none outer'] at space
      exact .outermost same.1.1 same.1.2 outer outer' space
    case nested =>
      intro d e d' e' recorded recorded' outer outer' ih same space
      rw [levels_of_some recorded outer, levels_of_some recorded' outer', List.cons.injEq,
        Prod.mk.injEq] at same
      rw [outermostSpace_of_some recorded outer, outermostSpace_of_some recorded' outer'] at space
      exact .nested same.1.1 same.1.2 outer outer' (ih same.2 space)

/-! ### The table -/

theorem path_of_some (outside : Node.NamespacesOutside (.root tree))
    (recorded : d ∈ (Node.root tree).declarations)
    (nested : enclosing? (Node.root tree).declarations d.node = some d') :
    d.path = dotted d'.path d.name := by
  have placed := (Node.root tree).declarations_outerFirst.placed d recorded
  have container := enclosing?_key outside recorded
  rw [nested, Option.map_some] at container
  unfold TypeDeclaration.IsPlaced at placed
  rwa [← container] at placed

theorem path_of_none (outside : Node.NamespacesOutside (.root tree))
    (recorded : d ∈ (Node.root tree).declarations)
    (outermost : enclosing? (Node.root tree).declarations d.node = none) :
    d.path = qualified d.space? d.name := by
  have placed := (Node.root tree).declarations_outerFirst.placed d recorded
  have container := enclosing?_key outside recorded
  rw [outermost, Option.map_none] at container
  unfold TypeDeclaration.IsPlaced at placed
  rwa [← container] at placed

theorem qualified_congr {space? space'? : Option String} {name : String}
    (same : space?.getD "" = space'?.getD "") : qualified space? name = qualified space'? name := by
  rw [qualified, qualified, same]

theorem path_eq_of_sameType (outside : Node.NamespacesOutside (.root tree))
    (recorded : d ∈ (Node.root tree).declarations) (recorded' : e ∈ (Node.root tree).declarations)
    (same : SameType (Node.root tree).declarations d e) : d.path = e.path := by
  induction same with
  | outermost name _ outer outer' space =>
    rw [path_of_none outside recorded outer, path_of_none outside recorded' outer', name,
      qualified_congr space]
  | nested name _ outer outer' _ ih =>
    have inside := (outward_of_some recorded outer).1
    have inside' := (outward_of_some recorded' outer').1
    rw [path_of_some outside recorded outer, path_of_some outside recorded' outer', name,
      ih inside inside']

theorem arity_eq_of_sameType {ds : List TypeDeclaration} (same : SameType ds d e) :
    d.key.arity = e.key.arity := by
  cases same <;> assumption

end

/-! ### Names without dots -/

/-- A name without dots can be split off. -/
theorem dotted_inj {head head' name name' : String} (single : '.' ∉ name.toList)
    (single' : '.' ∉ name'.toList) (same : dotted head name = dotted head' name') :
    head = head' ∧ name = name' := by
  have last : name = name' := by
    rw [← lastPart_dotted head single, same, lastPart_dotted head' single']
  have all := congrArg String.toList same
  rw [toList_dotted, toList_dotted, last] at all
  exact ⟨String.toList_inj.mp (List.append_cancel_right all), last⟩

theorem dot_mem_dotted (head name : String) : '.' ∈ (dotted head name).toList := by
  rw [toList_dotted]
  exact List.mem_append_right _ List.mem_cons_self

theorem qualified_inj {space? space'? : Option String} {name name' : String}
    (single : '.' ∉ name.toList) (single' : '.' ∉ name'.toList)
    (same : qualified space? name = qualified space'? name') :
    space?.getD "" = space'?.getD "" ∧ name = name' := by
  -- A name without dots is not a qualified one, so both have a namespace or neither has.
  unfold qualified joined at same
  split at same
  · next empty =>
    split at same
    · next empty' =>
      exact ⟨(String.isEmpty_iff.mp empty).trans (String.isEmpty_iff.mp empty').symm, same⟩
    · exact absurd (same ▸ dot_mem_dotted _ _) single
  · split at same
    · exact absurd (same ▸ dot_mem_dotted _ _) single'
    · exact dotted_inj single single' same

section

variable {tree : Tree} {d e : TypeDeclaration}

/-- When names have no dots, a path and the numbers of type parameters tell the types apart. -/
theorem sameType_of_path (outside : Node.NamespacesOutside (.root tree))
    (single : ∀ t ∈ (Node.root tree).declarations, '.' ∉ t.name.toList)
    (recorded : d ∈ (Node.root tree).declarations) (recorded' : e ∈ (Node.root tree).declarations)
    (path : d.path = e.path)
    (parameters : arities (Node.root tree).declarations d =
      arities (Node.root tree).declarations e) :
    SameType (Node.root tree).declarations d e := by
  -- The numbers of type parameters also tell how many types there are around.
  have depth : (outward (Node.root tree).declarations d).length =
      (outward (Node.root tree).declarations e).length := by
    simpa only [arities, List.length_map] using congrArg List.length parameters
  refine recorded_induction (P := fun d e => d.path = e.path → arities _ d = arities _ e →
    SameType _ d e) ?outermost ?nested recorded recorded' depth path parameters
  case outermost =>
    intro d e recorded recorded' outer outer' path parameters
    rw [path_of_none outside recorded outer, path_of_none outside recorded' outer'] at path
    obtain ⟨space, name⟩ := qualified_inj (single d recorded) (single e recorded') path
    rw [arities_eq, arities_eq, levels_of_none outer, levels_of_none outer'] at parameters
    exact .outermost name (List.cons.inj parameters).1 outer outer' space
  case nested =>
    intro d e d' e' recorded recorded' outer outer' ih path parameters
    rw [path_of_some outside recorded outer, path_of_some outside recorded' outer'] at path
    obtain ⟨around, name⟩ := dotted_inj (single d recorded) (single e recorded') path
    rw [arities_of_some recorded outer, arities_of_some recorded' outer'] at parameters
    obtain ⟨own, further⟩ := List.cons.inj parameters
    exact .nested name own outer outer' (ih around further)

end

/-- The table takes two declarations for parts of one type if their paths and their own numbers of
type parameters agree. They ought to be parts of one type if they agree level by level. Parts of one
type are always merged; when names have no dots, merged declarations are parts of one type exactly
when the types around them have equally many type parameters, too. -/
theorem declaredBy?_eq_iff_sameType (tree : Tree) :
    let ds := (Node.root tree).declarations
    let table := SymbolTable.ofRoot (.root tree)
    (∀ n ∈ (Node.root tree).subtree, (table.declaredBy? n).isSome ↔ ∃ d ∈ ds, d.node = n) ∧
    (∀ d ∈ ds, ∀ e ∈ ds,
      (table.declaredBy? d.node = table.declaredBy? e.node ↔
        d.path = e.path ∧ d.typeParameters.length = e.typeParameters.length) ∧
      (SameType ds d e ↔
        levels ds d = levels ds e ∧ outermostSpace ds d = outermostSpace ds e)) ∧
    (Node.NamespacesOutside (.root tree) → ∀ d ∈ ds, ∀ e ∈ ds,
      (SameType ds d e → table.declaredBy? d.node = table.declaredBy? e.node) ∧
      ((∀ t ∈ ds, '.' ∉ t.name.toList) →
        (SameType ds d e ↔
          table.declaredBy? d.node = table.declaredBy? e.node ∧ arities ds d = arities ds e))) := by
  intro ds table
  have merged {d e : TypeDeclaration} (recorded : d ∈ ds) (recorded' : e ∈ ds) :
      table.declaredBy? d.node = table.declaredBy? e.node ↔
        d.path = e.path ∧ d.typeParameters.length = e.typeParameters.length := by
    rw [SymbolTable.declaredBy?_eq_iff recorded recorded', TypeDeclaration.key, TypeDeclaration.key,
      TypeKey.mk.injEq]
  refine ⟨fun n below => SymbolTable.declaredBy?_isSome_iff below, ?_, ?_⟩
  · intro d recorded e recorded'
    exact ⟨merged recorded recorded', sameType_iff_levels recorded recorded'⟩
  · intro outside d recorded e recorded'
    have together (same : SameType ds d e) :
        table.declaredBy? d.node = table.declaredBy? e.node :=
      (merged recorded recorded').mpr
        ⟨path_eq_of_sameType outside recorded recorded' same, arity_eq_of_sameType same⟩
    refine ⟨together, fun single => ?_⟩
    constructor
    · intro same
      have parameters := ((sameType_iff_levels recorded recorded').mp same).1
      rw [arities_eq, arities_eq, parameters]
      exact ⟨together same, rfl⟩
    · rintro ⟨declared, parameters⟩
      have path := ((merged recorded recorded').mp declared).1
      exact sameType_of_path outside single recorded recorded' path parameters

/-! ### Two types of one name with a type of one name inside -/

/-- `class Inner { }` -/
def innerClass (start : Nat) : Tree :=
  firstRowTree "class_declaration" none start "class Inner \x7b \x7d"
    [firstRowTree "identifier" (some "name") (start + 6) "Inner" [],
      firstRowTree "declaration_list" (some "body") (start + 12) "\x7b \x7d" []]

/-- `class Outer { class Inner { } } class Outer<T> { class Inner { } }` -/
def twinClasses : Tree :=
  firstRowTree "compilation_unit" none 0
    "class Outer \x7b class Inner \x7b \x7d \x7d class Outer<T> \x7b class Inner \x7b \x7d \x7d"
    [firstRowTree "class_declaration" none 0 "class Outer \x7b class Inner \x7b \x7d \x7d"
      [firstRowTree "identifier" (some "name") 6 "Outer" [],
        firstRowTree "declaration_list" (some "body") 12 "\x7b class Inner \x7b \x7d \x7d"
          [innerClass 14]],
    firstRowTree "class_declaration" none 32 "class Outer<T> \x7b class Inner \x7b \x7d \x7d"
      [firstRowTree "identifier" (some "name") 38 "Outer" [],
        firstRowTree "type_parameter_list" none 43 "<T>"
          [firstRowTree "type_parameter" none 44 "T"
            [firstRowTree "identifier" (some "name") 44 "T" []]],
        firstRowTree "declaration_list" (some "body") 47 "\x7b class Inner \x7b \x7d \x7d"
          [innerClass 49]]]

def twinOuter (i : Fin 2) : TypeDeclaration :=
  ⟨(Node.root twinClasses).namedChildren.get i, .classType, "Outer",
    if i = 0 then [] else ["T"], none, none, "Outer"⟩

def twinInner (i : Fin 2) : TypeDeclaration :=
  ⟨(twinOuter i).node.members.headD (.root twinClasses), .classType, "Inner", [], none,
    some (twinOuter i).key, "Outer.Inner"⟩

theorem twinClasses_declarations :
    (Node.root twinClasses).declarations =
      [twinOuter 0, twinInner 0, twinOuter 1, twinInner 1] := by
  have inner (i : Fin 2) : Node.Outlined none (some (twinOuter i).key) (twinOuter i).node.members
      [twinInner i] := by
    have single : (twinOuter i).node.members = [(twinInner i).node] := by
      match i with
      | 0 | 1 => rfl
    have empty : Node.Outlined none (some (twinInner i).key) (twinInner i).node.members [] := by
      match i with
      | 0 | 1 => exact .nil
    rw [single]
    match i with
    | 0 | 1 => exact .type (by decide) rfl empty .nil
  have second : Node.Outlined none none [(twinOuter 1).node] [twinOuter 1, twinInner 1] :=
    .type (by decide) rfl (inner 1) .nil
  exact Node.Outlined.eq (.type (by decide) rfl (inner 0) second) _

theorem twinClasses_namespacesOutside : Node.NamespacesOutside (.root twinClasses) :=
  Node.namespacesOutside_of_infos (by decide)

theorem twinInner_not_sameType :
    ¬SameType (Node.root twinClasses).declarations (twinInner 0) (twinInner 1) := by
  have recorded (i : Fin 2) : twinInner i ∈ (Node.root twinClasses).declarations := by
    rw [twinClasses_declarations]
    match i with
    | 0 | 1 => simp
  have container (i : Fin 2) : (enclosing? (Node.root twinClasses).declarations
      (twinInner i).node).map TypeDeclaration.key = some (twinOuter i).key :=
    enclosing?_key twinClasses_namespacesOutside (recorded i)
  intro same
  -- Both are inside a class, and these classes have different numbers of type parameters.
  cases same with
  | outermost _ _ outermost _ _ =>
    have around := container 0
    rw [outermost] at around
    cases around
  | nested _ _ outer outer' same =>
    have around := container 0
    have around' := container 1
    rw [outer, Option.map_some, Option.some.injEq] at around
    rw [outer', Option.map_some, Option.some.injEq] at around'
    have arity := arity_eq_of_sameType same
    rw [around, around'] at arity
    exact absurd arity (by decide)

/-- The inner types are merged although their outer types have different type parameters. -/
theorem twinClasses_merged :
    Node.NamespacesOutside (.root twinClasses) ∧
      (∀ t ∈ (Node.root twinClasses).declarations, '.' ∉ t.name.toList) ∧
      twinInner 0 ∈ (Node.root twinClasses).declarations ∧
      twinInner 1 ∈ (Node.root twinClasses).declarations ∧
      (SymbolTable.ofRoot (.root twinClasses)).declaredBy? (twinInner 0).node =
        (SymbolTable.ofRoot (.root twinClasses)).declaredBy? (twinInner 1).node ∧
      arities (Node.root twinClasses).declarations (twinInner 0) ≠
        arities (Node.root twinClasses).declarations (twinInner 1) ∧
      ¬SameType (Node.root twinClasses).declarations (twinInner 0) (twinInner 1) := by
  have outside := twinClasses_namespacesOutside
  have apart := twinInner_not_sameType
  have single : ∀ t ∈ (Node.root twinClasses).declarations, '.' ∉ t.name.toList := by
    rw [twinClasses_declarations]
    simp [twinOuter, twinInner]
  have first : twinInner 0 ∈ (Node.root twinClasses).declarations := by
    simp [twinClasses_declarations]
  have second : twinInner 1 ∈ (Node.root twinClasses).declarations := by
    simp [twinClasses_declarations]
  obtain ⟨-, law, rule⟩ := declaredBy?_eq_iff_sameType twinClasses
  have merged := (law _ first _ second).1.mpr ⟨rfl, rfl⟩
  have precise := (rule outside _ first _ second).2 single
  exact ⟨outside, single, first, second, merged, fun equal => apart (precise.mpr ⟨merged, equal⟩),
    apart⟩

end ClassAtlas
