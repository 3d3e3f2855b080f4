import ClassAtlas.Model.Binding
import ClassAtlas.Proofs.Layout.Spaces
import ClassAtlas.Proofs.Symbols.Containment
import ClassAtlas.Proofs.Symbols.FullName

/-!
# Scopes are confined

Of the scopes of a file the binding of a type reads those alone that are found where the type and
its parts begin. So the name and the using directives of a block namespace mean nothing to a type
outside of it, unless the type begins where the block ends.
-/
namespace ClassAtlas

/-! ### Parts of type syntax -/

namespace Node

variable {n c : Node}

theorem mem_children_of_field_or_named {field : String} {other? : Option Node}
    (named : ∀ d, other? = some d → d ∈ n.namedChildren)
    (found : (n.child? field).or other? = some c) : c ∈ n.children := by
  rcases Option.or_eq_some_iff.mp found with known | ⟨-, known⟩
  · exact mem_children_of_child? known
  · exact mem_children_of_mem_namedChildren (named c known)

theorem mem_children_of_innerType? (found : n.innerType? = some c) : c ∈ n.children :=
  mem_children_of_field_or_named (fun _ => List.mem_of_head?) found

theorem mem_children_of_modifiedType? (found : n.modifiedType? = some c) : c ∈ n.children :=
  mem_children_of_field_or_named (fun _ => List.mem_of_getLast?) found

theorem mem_children_of_qualifier? (found : n.qualifier? = some c) : c ∈ n.children :=
  mem_children_of_field_or_named (fun _ => List.mem_of_head?) found

theorem mem_children_of_unqualified? (found : n.unqualified? = some c) : c ∈ n.children :=
  mem_children_of_field_or_named (fun _ => List.mem_of_getLast?) found

theorem mem_children_of_tupleElementNodes (member : c ∈ n.tupleElementNodes) : c ∈ n.children :=
  mem_children_of_mem_namedChildren (List.mem_filter.mp member).1

theorem mem_descendants_of_typeArgumentNodes (member : c ∈ n.typeArgumentNodes) :
    c ∈ n.descendants := by
  unfold typeArgumentNodes at member
  cases found : n.childOfKind? ["type_argument_list"] with
  | none =>
    rw [found] at member
    cases member
  | some list =>
    rw [found] at member
    have child := mem_children_of_mem_namedChildren (mem_namedChildren_of_childOfKind? found)
    exact mem_descendants_of_mem_children
      (List.mem_cons_of_mem n (mem_descendants_of_mem_children n.mem_subtree_self child))
      (mem_children_of_mem_namedChildren member)

end Node

namespace Model

/-- The model with other namespace scopes. -/
def withScopes (m : Model) (scopes : List NamespaceScope) : Model :=
  { m with table := { m.table with scopes := scopes } }

variable {m : Model} {scopes : List NamespaceScope} {n : Node}

/-! ### Names -/

section

variable (same : (m.withScopes scopes).table.scopesAt n.start = m.table.scopesAt n.start)
include same

theorem spacesAt_withScopes : (m.withScopes scopes).spacesAt n = m.spacesAt n := by
  rw [spacesAt, spacesAt, SymbolTable.namespaceAt?, SymbolTable.namespaceAt?, same]

theorem scopesOutward_withScopes : (m.withScopes scopes).scopesOutward n = m.scopesOutward n := by
  rw [scopesOutward, scopesOutward, same]

theorem resolvePath_withScopes (path : String) :
    (m.withScopes scopes).resolvePath path n = m.resolvePath path n := by
  unfold resolvePath
  rw [spacesAt_withScopes same]
  rfl

theorem usedIn?_withScopes (name : String) (args : List TypeRef) (scope : NamespaceScope) :
    (m.withScopes scopes).usedIn? name args n scope = m.usedIn? name args n scope := by
  unfold usedIn?
  simp only [resolvePath_withScopes same]
  rfl

theorem lookupSimple?_withScopes (name : String) (args : List TypeRef) :
    (m.withScopes scopes).lookupSimple? name args n = m.lookupSimple? name args n := by
  have used : (m.withScopes scopes).usedIn? name args n = m.usedIn? name args n :=
    funext (usedIn?_withScopes same name args)
  unfold lookupSimple?
  rw [spacesAt_withScopes same, scopesOutward_withScopes same, used]
  rfl

theorem lookupQualified?_withScopes (qualifier : Node) (qualifierType? : Option TypeRef)
    (name : String) (args : List TypeRef) :
    (m.withScopes scopes).lookupQualified? n qualifier qualifierType? name args =
      m.lookupQualified? n qualifier qualifierType? name args := by
  have expanded (path : String) :
      (m.withScopes scopes).expandAlias? path n = m.expandAlias? path n := by
    unfold expandAlias?
    rw [scopesOutward_withScopes same]
  unfold lookupQualified?
  rw [spacesAt_withScopes same]
  simp only [expanded]
  rfl

end

/-! ### Type syntax -/

/-- The scopes found in the subtree of a node are the same. -/
def SameScopes (m : Model) (scopes : List NamespaceScope) (n : Node) : Prop :=
  ∀ x ∈ n.subtree, (m.withScopes scopes).table.scopesAt x.start = m.table.scopesAt x.start

theorem SameScopes.below (same : m.SameScopes scopes n) {c : Node} (below : c ∈ n.subtree) :
    m.SameScopes scopes c :=
  fun x inside => same x (Node.subtree_subset_of_mem_subtree below inside)

/-- A node denotes the same with other scopes. -/
structure BindsAlike (m : Model) (scopes : List NamespaceScope) (n : Node) : Prop where
  resolved : (m.withScopes scopes).resolve? n = m.resolve? n
  simple : (m.withScopes scopes).simpleName? n = m.simpleName? n
  named : (m.withScopes scopes).named? n = m.named? n

section

variable (below : ∀ c ∈ n.descendants, BindsAlike m scopes c)
include below

theorem child_alike {c : Node} (child : c ∈ n.children) : BindsAlike m scopes c :=
  below c (Node.mem_descendants_of_mem_children n.mem_subtree_self child)

theorem elementType_alike : (m.withScopes scopes).elementType? n = m.elementType? n := by
  rw [elementType?, elementType?]
  split
  · rfl
  next type inner => exact (child_alike below (Node.mem_children_of_innerType? inner)).resolved

theorem simpleName_alike : (m.withScopes scopes).simpleName? n = m.simpleName? n := by
  have arguments {arg : Node} (member : arg ∈ n.typeArgumentNodes) :
      (m.withScopes scopes).resolve? arg = m.resolve? arg :=
    (below arg (Node.mem_descendants_of_typeArgumentNodes member)).resolved
  rw [simpleName?, simpleName?]
  split
  · rfl
  · congr 1
    funext name
    congr 1
    apply List.map_congr_left
    rintro ⟨arg, member⟩ -
    dsimp only
    rw [arguments member]
  · rfl

variable (same : (m.withScopes scopes).table.scopesAt n.start = m.table.scopesAt n.start)
include same

theorem qualified_alike : (m.withScopes scopes).qualified? n = m.qualified? n := by
  rw [qualified?, qualified?]
  split
  next qualifier simple before after =>
    have named := (child_alike below (Node.mem_children_of_qualifier? before)).named
    rw [(child_alike below (Node.mem_children_of_unqualified? after)).simple, named]
    congr 1
    funext named
    exact lookupQualified?_withScopes same qualifier _ named.1 named.2
  · rfl

theorem named_alike : (m.withScopes scopes).named? n = m.named? n := by
  rw [named?, named?]
  split
  case h_1 | h_2 =>
    rw [simpleName_alike below]
    congr 1
    funext named
    exact lookupSimple?_withScopes same named.1 named.2
  case h_3 => exact qualified_alike below same
  case h_4 | h_5 => rfl

theorem resolved_alike : (m.withScopes scopes).resolve? n = m.resolve? n := by
  have inner {c : Node} (found : n.innerType? = some c) :
      (m.withScopes scopes).resolve? c = m.resolve? c :=
    (child_alike below (Node.mem_children_of_innerType? found)).resolved
  rw [resolve?, resolve?]
  -- One case for each kind of node that is read as a type, in the order of the definition.
  split
  case h_1 | h_12 | h_13 => rfl
  case h_2 => rw [lookupSimple?_withScopes same]
  case h_3 =>
    rw [simpleName_alike below]
    congr 1
    funext named
    obtain ⟨name, args⟩ := named
    dsimp only
    rw [lookupSimple?_withScopes same]
  case h_4 =>
    rw [qualified_alike below same]
    split
    · rfl
    · split
      next qualifier simple _ after =>
        rw [(child_alike below (Node.mem_children_of_unqualified? after)).simple]
      · rfl
  case h_5 => rw [resolvePath_withScopes same]
  case h_6 | h_7 | h_8 =>
    split
    · rfl
    next c found => rw [inner found]
  case h_9 =>
    congr 2
    apply List.map_congr_left
    rintro ⟨element, member⟩ -
    have child := Node.mem_children_of_tupleElementNodes member
    have alike : (m.withScopes scopes).elementType? element = m.elementType? element :=
      elementType_alike fun c inside =>
        below c (Node.mem_descendants.mpr ⟨element, child, List.mem_cons_of_mem _ inside⟩)
    dsimp only
    rw [alike]
  case h_10 | h_11 =>
    split
    · rfl
    next c found =>
      exact (child_alike below (Node.mem_children_of_modifiedType? found)).resolved

end

/-- What a node denotes is decided by the scopes found where the node and its parts begin. -/
theorem bindsAlike (same : m.SameScopes scopes n) : ∀ x ∈ n.subtree, BindsAlike m scopes x := by
  induction n using Node.childInduction with
  | step n ih =>
    have below : ∀ x ∈ n.descendants, BindsAlike m scopes x := by
      intro x inside
      obtain ⟨c, child, deeper⟩ := Node.mem_descendants.mp inside
      have part := Node.subtree_subset_of_mem_children child c.mem_subtree_self
      exact ih c child (same.below part) x deeper
    have here := same n n.mem_subtree_self
    exact List.forall_mem_cons.mpr
      ⟨⟨resolved_alike below here, simpleName_alike below, named_alike below here⟩, below⟩

end Model

/-! ### Scopes outside of which a type is -/

theorem filter_set_of_excluded {α : Type} {test : α → Bool} {l : List α} {i : Nat} {a b : α}
    (there : l[i]? = some a) (out : test a = false) (out' : test b = false) :
    (l.set i b).filter test = l.filter test := by
  induction l generalizing i with
  | nil => cases there
  | cons x rest ih =>
    cases i with
    | zero =>
      obtain rfl := Option.some.inj there
      rw [List.set_cons_zero, List.filter_cons, List.filter_cons, out, out']
      rfl
    | succ i => rw [List.set_cons_succ, List.filter_cons, List.filter_cons, ih there]

section

variable {tree : Tree} {n s : Node} {i : Nat} {scope : NamespaceScope}

/-- What is outside of a block namespace, and does not begin where it ends, has no part that its
scope encloses, unless the part is empty and in front of the namespace. -/
theorem not_enclosed_of_outside (nested : (Node.root tree).RangesNested)
    (below : n ∈ (Node.root tree).subtree) (recorded : s ∈ (Node.root tree).subtree)
    (outside : n ∉ s.subtree) (apart : s ∉ n.subtree) (behind : n.start ≠ s.stop) {x : Node}
    (part : x ∈ n.subtree) (visible : x.start = s.start → x.start < x.stop) :
    ¬(s.start ≤ x.start ∧ x.start ≤ s.stop) := by
  have own := nested.of_mem_subtree below
  have forward := own.forward part
  obtain ⟨starts, stops⟩ := own.within part
  rcases nested.cases below recorded with inside | around | earlier | later
  · exact absurd inside outside
  · exact absurd around apart
  · omega
  · omega

theorem scopesAt_set (there : (recordedScopes (.root tree))[i]? = some (s, scope))
    (block : s.kind = "namespace_declaration") {offset : Nat}
    (away : ¬(s.start ≤ offset ∧ offset ≤ s.stop)) (name? : Option String)
    (usings : List UsingDirective) :
    SymbolTable.scopesAt { SymbolTable.ofRoot (.root tree) with
        scopes := (SymbolTable.ofRoot (.root tree)).scopes.set i
          { scope with name? := name?, usings := usings } } offset =
      (SymbolTable.ofRoot (.root tree)).scopesAt offset := by
  obtain ⟨starts, stops⟩ := range_of_recorded (List.mem_of_getElem? there)
  rw [Node.scopeStop_block block] at stops
  have known : (SymbolTable.ofRoot (.root tree)).scopes[i]? = some scope := by
    rw [← map_snd_recordedScopes, List.getElem?_map, there, Option.map_some]
  have out : (decide (scope.start ≤ offset) && decide (offset ≤ scope.stop)) = false := by
    rw [Bool.eq_false_iff, ne_eq, Bool.and_eq_true, decide_eq_true_eq, decide_eq_true_eq, starts,
      stops]
    exact away
  rw [SymbolTable.scopesAt, SymbolTable.scopesAt, filter_set_of_excluded known out out]

end

/-- The scopes found where a token begins are those which the token is in, from the outside to the
inside, except that a scope which ends right there is found, too. So a type outside of a block
namespace denotes the same whatever the name and the using directives of its scope are, if the type
does not begin where the namespace ends and has no empty part where the namespace begins. -/
theorem scopes_follow_containment (tree : Tree) (nested : (Node.root tree).RangesNested) :
    (∀ n ∈ (Node.root tree).subtree, n.children = [] → n.start < n.stop →
      ∃ found, FoundAt (.root tree) n found) ∧
    ∀ n ∈ (Node.root tree).subtree, ∀ i s scope,
      (recordedScopes (.root tree))[i]? = some (s, scope) → s.kind = "namespace_declaration" →
      n ∉ s.subtree → s ∉ n.subtree → n.start ≠ s.stop →
      (∀ x ∈ n.subtree, x.start = s.start → x.start < x.stop) →
      ∀ name? usings, (Model.ofTree tree).BindsAlike ((Model.ofTree tree).table.scopes.set i
        { scope with name? := name?, usings := usings }) n := by
  refine ⟨fun n below leaf visible => exists_foundAt nested below leaf visible, ?_⟩
  intro n below i s scope there block outside apart behind visible name? usings
  have recorded := (mem_subtree_of_recorded (List.mem_of_getElem? there)).2
  refine Model.bindsAlike (fun x part => ?_) n n.mem_subtree_self
  have away := not_enclosed_of_outside nested below recorded outside apart behind part
    (visible x part)
  exact scopesAt_set there block away name? usings

/-! ### A class right behind a namespace -/

/-- A literal token in the first row. -/
def tokenTree (start : Nat) (text : String) : Tree := literalTree text false text start 0

/-- A class without members, such as `class X { }`, with a name of one letter. -/
def emptyClass (start : Nat) (name : String) : Tree :=
  firstRowTree "class_declaration" none start ("class " ++ name ++ " \x7b \x7d")
    [tokenTree start "class",
      firstRowTree "identifier" (some "name") (start + 6) name [],
      firstRowTree "declaration_list" (some "body") (start + 8) "\x7b \x7d"
        [tokenTree (start + 8) "\x7b", tokenTree (start + 10) "\x7d"]]

/-- `namespace A { class X { } }class Y { }` -/
def adjoiningFile : Tree :=
  firstRowTree "compilation_unit" none 0
    "namespace A \x7b class X \x7b \x7d \x7dclass Y \x7b \x7d"
    [firstRowTree "namespace_declaration" none 0 "namespace A \x7b class X \x7b \x7d \x7d"
        [tokenTree 0 "namespace",
          firstRowTree "identifier" (some "name") 10 "A" [],
          firstRowTree "declaration_list" (some "body") 12 "\x7b class X \x7b \x7d \x7d"
            [tokenTree 12 "\x7b", emptyClass 14 "X", tokenTree 26 "\x7d"]],
      emptyClass 27 "Y"]

/-- The first node that begins at an offset and has a text. -/
def adjoiningNode (start : Nat) (text : String) : Node :=
  ((Node.root adjoiningFile).subtree.find? fun n => n.start == start && n.text == text).getD
    (.root adjoiningFile)

theorem adjoiningNode_mem_subtree {start : Nat} {text : String}
    (there : ((Node.root adjoiningFile).subtree.find? fun n =>
      n.start == start && n.text == text).isSome = true) :
    adjoiningNode start text ∈ (Node.root adjoiningFile).subtree := by
  obtain ⟨n, found⟩ := Option.isSome_iff_exists.mp there
  rw [adjoiningNode, found]
  exact List.mem_of_find?_eq_some found

/-- The scope of the namespace is found at the keyword right behind it, although that is not in the
scope. The name after the keyword is bound without it. -/
theorem adjoiningFile_scopes :
    (Node.root adjoiningFile).RangesNested ∧
      ∃ s scope, (recordedScopes (.root adjoiningFile))[1]? = some (s, scope) ∧
        s.kind = "namespace_declaration" ∧ scope.name? = some "A" ∧
        ¬(adjoiningNode 27 "class").InScopeOf s ∧
        scope ∈ (SymbolTable.ofRoot (.root adjoiningFile)).scopesAt 27 ∧
        (Model.ofTree adjoiningFile).BindsAlike ((Model.ofTree adjoiningFile).table.scopes.set 1
          { scope with name? := some "B", usings := [] }) (adjoiningNode 33 "Y") := by
  have nested : (Node.root adjoiningFile).RangesNested := by decide +kernel
  obtain ⟨⟨s, scope⟩, there⟩ : ∃ r, (recordedScopes (.root adjoiningFile))[1]? = some r :=
    Option.isSome_iff_exists.mp (by decide +kernel)
  have about : ((recordedScopes (.root adjoiningFile))[1]?).map (fun r =>
      (r.1.kind, r.1.start, r.1.stop, r.2.name?)) =
        some ("namespace_declaration", 0, 27, some "A") := by decide +kernel
  simp only [there, Option.map_some, Option.some.injEq, Prod.mk.injEq] at about
  obtain ⟨block, starts, stops, name⟩ := about
  have ends : s.scopeStop = 27 := (Node.scopeStop_block block).trans stops
  have recorded := List.mem_of_getElem? there
  have inTree : s ∈ (Node.root adjoiningFile).subtree := (mem_subtree_of_recorded recorded).2
  obtain ⟨atTokens, atTypes⟩ := scopes_follow_containment adjoiningFile nested
  refine ⟨nested, s, scope, there, block, name, fun inside => ?_, ?_, ?_⟩
  · have bounds := (Node.range_of_inScopeOf nested inTree inside).2.1
    have : (adjoiningNode 27 "class").stop = 32 := by decide +kernel
    omega
  · have begins : (adjoiningNode 27 "class").start = 27 := by decide +kernel
    obtain ⟨found, scopes⟩ := atTokens (adjoiningNode 27 "class")
      (adjoiningNode_mem_subtree (by decide +kernel)) (List.isEmpty_iff.mp (by decide +kernel))
      (by decide +kernel)
    have touches : s.scopeStop = (adjoiningNode 27 "class").start := ends.trans begins.symm
    have member : (s, scope) ∈ found := (scopes.exactly _ recorded).mpr (.inr touches)
    rw [← begins]
    exact scopes.all.symm.subset (List.mem_map_of_mem member)
  · have begins : (adjoiningNode 33 "Y").start = 33 := by decide +kernel
    have stops' : (adjoiningNode 33 "Y").stop = 34 := by decide +kernel
    have below : adjoiningNode 33 "Y" ∈ (Node.root adjoiningFile).subtree :=
      adjoiningNode_mem_subtree (by decide +kernel)
    refine atTypes _ below 1 s scope there block (fun inside => ?_) (fun around => ?_) (by omega)
      (fun x part begins' => ?_) (some "B") []
    · have := ((nested.of_mem_subtree inTree).within inside).2
      omega
    · have := ((nested.of_mem_subtree below).within around).1
      omega
    · have := ((nested.of_mem_subtree below).within part).1
      omega

end ClassAtlas
