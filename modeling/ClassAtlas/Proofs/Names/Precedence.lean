import ClassAtlas.Proofs.Names.Spaces
import ClassAtlas.Proofs.Symbols.Coherence
import ClassAtlas.Proofs.Symbols.Identity
import ClassAtlas.Model.Binding

/-!
# Precedence of simple names

A simple name is bound by what is around it: by a method or type declaration, innermost first, by
the longest namespace, by the using directives of a scope, innermost first, or by nothing. For the
declarations the table is asked, which knows a type by its path and the type parameters of its first
declaration. That is what the source says only as far as the parts of a type agree in their type
parameters, and its path is not that of a type that differs in the type parameters around it.
-/
namespace ClassAtlas

/-! ### The first that offers something -/

/-- Of the candidates, in their order, the first one that offers something offers `b`. -/
inductive FirstOf {α β : Type} (offers : α → β → Prop) : List α → β → Prop
  | here {a : α} {rest : List α} {b : β} : offers a b → FirstOf offers (a :: rest) b
  | later {a : α} {rest : List α} {b : β} : (∀ c, ¬offers a c) → FirstOf offers rest b →
      FirstOf offers (a :: rest) b

section

variable {α β : Type} {offers : α → β → Prop} {f : α → Option β} {xs : List α}

theorem FirstOf.exists_offers {b : β} (first : FirstOf offers xs b) : ∃ a ∈ xs, offers a b := by
  induction first with
  | here offered => exact ⟨_, List.mem_cons_self, offered⟩
  | later _ _ ih =>
    obtain ⟨a, member, offered⟩ := ih
    exact ⟨a, List.mem_cons_of_mem _ member, offered⟩

theorem findSome?_eq_some_iff_firstOf (same : ∀ a ∈ xs, ∀ b, f a = some b ↔ offers a b) {b : β} :
    xs.findSome? f = some b ↔ FirstOf offers xs b := by
  induction xs with
  | nil =>
    constructor
    · rintro ⟨⟩
    · rintro ⟨⟩
  | cons a rest ih =>
    obtain ⟨own, others⟩ := List.forall_mem_cons.mp same
    rw [List.findSome?_cons]
    cases found : f a with
    | some c =>
      have offered := (own c).mp found
      constructor
      · rintro ⟨⟩
        exact .here offered
      · intro first
        cases first with
        | here offered => rw [← (own b).mpr offered, found]
        | later nothing _ => exact absurd offered (nothing c)
    | none =>
      have nothing (c : β) : ¬offers a c := fun offered => by
        rw [(own c).mpr offered] at found
        cases found
      constructor
      · intro first
        exact .later nothing ((ih others).mp first)
      · intro first
        cases first with
        | here offered => exact absurd offered (nothing b)
        | later _ first => exact (ih others).mpr first

theorem findSome?_eq_none_iff_offers (same : ∀ a ∈ xs, ∀ b, f a = some b ↔ offers a b) :
    xs.findSome? f = none ↔ ∀ a ∈ xs, ∀ b, ¬offers a b := by
  rw [List.findSome?_eq_none_iff]
  constructor
  · intro nothing a member b offered
    have absent := nothing a member
    rw [(same a member b).mpr offered] at absent
    cases absent
  · intro nothing a member
    exact Option.eq_none_iff_forall_ne_some.mpr fun b found =>
      nothing a member b ((same a member b).mp found)

end

/-! ### The rule -/

/-- What a node declares: type parameters of a type, and types inside a type by name and number of
type parameters. -/
structure DeclarationReading where
  parameter : Node → String → Prop
  nested : Node → String → Nat → TypeId → Prop

/-- The node is a method with the type parameter. -/
def Node.IsMethodWith (n : Node) (name : String) : Prop :=
  n.kind ∈ ["method_declaration", "local_function_statement"] ∧ name ∈ n.typeParameters

/-- What a declaration around a name binds it to. -/
inductive DeclarationOffers (reading : DeclarationReading) (name : String) (args : List TypeRef) :
    Node → TypeRef → Prop
  | method {a : Node} : args = [] → a.IsMethodWith name →
      DeclarationOffers reading name args a (.param name)
  | parameter {a : Node} : args = [] → reading.parameter a name →
      DeclarationOffers reading name args a (.param name)
  | nested {a : Node} {id : TypeId} :
      (args = [] → ¬a.IsMethodWith name ∧ ¬reading.parameter a name) →
      reading.nested a name args.length id →
      DeclarationOffers reading name args a (.declared id args)

namespace Model

variable {m : Model}

/-- What an imported namespace binds a name to. -/
inductive ImportOffers (m : Model) (name : String) (args : List TypeRef) :
    UsingDirective → TypeRef → Prop
  | source {space : String} {id : TypeId} :
      m.table.lookup? (joined space name) args.length = some id →
      ImportOffers m name args (.types space) (.declared id args)
  | core {space : String} {type : CoreType} :
      m.table.lookup? (joined space name) args.length = none →
      CoreType.lookup? space name args.length = some type →
      ImportOffers m name args (.types space) (.core type args)

/-- What the using directives of a scope bind a name to: an alias first, then an import. -/
inductive ScopeOffers (m : Model) (n : Node) (name : String) (args : List TypeRef) :
    NamespaceScope → TypeRef → Prop
  | alias {scope : NamespaceScope} {target : String} : args = [] →
      FirstOf (fun u target => u = .alias name target) scope.usings target →
      ScopeOffers m n name args scope (m.resolvePath target n)
  | imported {scope : NamespaceScope} {t : TypeRef} :
      (args = [] → ∀ u ∈ scope.usings, ∀ target, u ≠ .alias name target) →
      FirstOf (m.ImportOffers name args) scope.usings t → ScopeOffers m n name args scope t

/-- What a name at a node denotes, with the declarations around it read in a certain way: the first
of four that applies. -/
inductive Binds (m : Model) (reading : DeclarationReading) (n : Node) (name : String)
    (args : List TypeRef) : TypeRef → Prop
  | declaration {t : TypeRef} : FirstOf (DeclarationOffers reading name args) n.ancestors t →
      Binds m reading n name args t
  | space {id : TypeId} : (∀ a ∈ n.ancestors, ∀ t, ¬DeclarationOffers reading name args a t) →
      m.InLongestSpace n name args.length id → Binds m reading n name args (.declared id args)
  | scope {t : TypeRef} : (∀ a ∈ n.ancestors, ∀ t, ¬DeclarationOffers reading name args a t) →
      (∀ id, ¬m.InLongestSpace n name args.length id) →
      FirstOf (m.ScopeOffers n name args) (m.scopesOutward n) t → Binds m reading n name args t
  | unknown : (∀ a ∈ n.ancestors, ∀ t, ¬DeclarationOffers reading name args a t) →
      (∀ id, ¬m.InLongestSpace n name args.length id) →
      (∀ scope ∈ m.scopesOutward n, ∀ t, ¬m.ScopeOffers n name args scope t) →
      Binds m reading n name args (.external name args)

/-! ### One level after the other -/

theorem importedFrom?_eq_some_iff {space name : String} {args : List TypeRef} {t : TypeRef} :
    m.importedFrom? space name args = some t ↔ m.ImportOffers name args (.types space) t := by
  unfold importedFrom?
  cases found : m.table.lookup? (joined space name) args.length with
  | some id =>
    constructor
    · rintro ⟨⟩
      exact .source found
    · intro offered
      cases offered with
      | source known => rw [Option.some.inj (found.symm.trans known)]
      | core absent _ => rw [found] at absent; cases absent
  | none =>
    constructor
    · intro offered
      obtain ⟨type, known, rfl⟩ := Option.map_eq_some_iff.mp offered
      exact .core found known
    · intro offered
      cases offered with
      | source known => rw [found] at known; cases known
      | core _ known => exact Option.map_eq_some_iff.mpr ⟨_, known, rfl⟩

/-- The target that a using directive gives a name by itself. -/
def aliasTarget? (name : String) : UsingDirective → Option String
  | .alias other target => if other = name then some target else none
  | _ => none

theorem aliasTarget?_eq_some_iff {name target : String} {u : UsingDirective} :
    aliasTarget? name u = some target ↔ u = .alias name target := by
  cases u with
  | «alias» other target' => by_cases same : other = name <;> simp [aliasTarget?, same]
  | types | members => simp [aliasTarget?]

/-- What a using directive that imports a namespace gives a name. -/
def imported? (m : Model) (name : String) (args : List TypeRef) : UsingDirective → Option TypeRef
  | .types space => m.importedFrom? space name args
  | _ => none

theorem imported?_eq_some_iff {name : String} {args : List TypeRef} {u : UsingDirective}
    {t : TypeRef} : m.imported? name args u = some t ↔ m.ImportOffers name args u t := by
  cases u with
  | types => exact importedFrom?_eq_some_iff
  | «alias» | members =>
    constructor
    · rintro ⟨⟩
    · rintro ⟨⟩

theorem usedIn?_eq (name : String) (args : List TypeRef) (n : Node) (scope : NamespaceScope) :
    m.usedIn? name args n scope =
      match if args = [] then scope.usings.findSome? (aliasTarget? name) else none with
      | some target => some (m.resolvePath target n)
      | none => scope.usings.findSome? (m.imported? name args) := by
  have same : (scope.usings.findSome? fun
        | .alias other target => if args.isEmpty && other == name then some target else none
        | _ => none) = if args = [] then scope.usings.findSome? (aliasTarget? name) else none := by
    by_cases plain : args = []
    · rw [if_pos plain]
      congr 1
      funext u
      cases u <;> simp [aliasTarget?, plain]
    · rw [if_neg plain, List.findSome?_eq_none_iff]
      intro u _
      cases u <;> simp [plain]
  rw [← same]
  rfl

theorem usedIn?_eq_some_iff {n : Node} {name : String} {args : List TypeRef}
    {scope : NamespaceScope} {t : TypeRef} :
    m.usedIn? name args n scope = some t ↔ m.ScopeOffers n name args scope t := by
  have aliases : ∀ u ∈ scope.usings, ∀ target, aliasTarget? name u = some target ↔
      u = .alias name target := fun _ _ _ => aliasTarget?_eq_some_iff
  have imports : scope.usings.findSome? (m.imported? name args) = some t ↔
      FirstOf (m.ImportOffers name args) scope.usings t :=
    findSome?_eq_some_iff_firstOf fun _ _ _ => imported?_eq_some_iff
  rw [usedIn?_eq]
  split
  -- An alias comes before all imports of its scope, and only a name without arguments can be one.
  next target chosen =>
    have plain : args = [] := by
      by_contra generic
      rw [if_neg generic] at chosen
      cases chosen
    rw [if_pos plain] at chosen
    have first := (findSome?_eq_some_iff_firstOf aliases).mp chosen
    constructor
    · rintro ⟨⟩
      exact .alias plain first
    · intro offered
      cases offered with
      | «alias» _ first' =>
        rw [← findSome?_eq_some_iff_firstOf aliases, chosen] at first'
        rw [Option.some.inj first']
      | imported noAlias _ =>
        rw [(findSome?_eq_none_iff_offers aliases).mpr (noAlias plain)] at chosen
        cases chosen
  next chosen =>
    rw [imports]
    constructor
    · intro first
      refine .imported (fun plain => ?_) first
      rw [if_pos plain] at chosen
      exact (findSome?_eq_none_iff_offers aliases).mp chosen
    · intro offered
      cases offered with
      | «alias» plain first =>
        rw [if_pos plain, (findSome?_eq_some_iff_firstOf aliases).mpr first] at chosen
        cases chosen
      | imported _ first => exact first

/-- How the table reads the declarations around a name: as those of the type that they are part of,
which has the type parameters of its first declaration, and the types with a path that continues its
path inside it. -/
def tableReading (m : Model) : DeclarationReading where
  parameter a name := ∃ id s, m.table.declaredBy? a = some id ∧ m.table.get? id = some s ∧
    name ∈ s.typeParameters
  nested a name arity id := ∃ outer, m.table.declaredBy? a = some outer ∧
    m.table.nested? outer name arity = some id

theorem boundBy?_eq_some_iff {name : String} {args : List TypeRef} {a : Node} {t : TypeRef} :
    m.boundBy? name args a = some t ↔ DeclarationOffers m.tableReading name args a t := by
  -- The tests of the lookup, in its order, are the premises of the rules.
  have isMethod : (args.isEmpty && ["method_declaration", "local_function_statement"].contains
      a.kind && a.typeParameters.contains name) = true ↔ args = [] ∧ a.IsMethodWith name := by
    simp [Node.IsMethodWith, and_assoc]
  unfold boundBy?
  split
  next method =>
    obtain ⟨plain, method⟩ := isMethod.mp method
    constructor
    · rintro ⟨⟩
      exact .method plain method
    · intro offered
      cases offered with
      | method | parameter => rfl
      | nested other _ => exact absurd method (other plain).1
  next other =>
    rw [isMethod, not_and] at other
    cases declared : m.table.declaredBy? a with
    | none =>
      constructor
      · rintro ⟨⟩
      · intro offered
        cases offered with
        | method plain method => exact absurd method (other plain)
        | parameter _ own =>
          obtain ⟨id, s, declared', -⟩ := own
          rw [declared] at declared'
          cases declared'
        | nested _ inside =>
          obtain ⟨outer, declared', -⟩ := inside
          rw [declared] at declared'
          cases declared'
    | some id =>
      have isParameter : (args.isEmpty && (m.table.get? id).any fun s =>
          s.typeParameters.contains name) = true ↔ args = [] ∧ m.tableReading.parameter a name := by
        simp [tableReading, declared, Option.any_eq_true]
      dsimp only
      split
      next parameter =>
        obtain ⟨plain, parameter⟩ := isParameter.mp parameter
        constructor
        · rintro ⟨⟩
          exact .parameter plain parameter
        · intro offered
          cases offered with
          | method | parameter => rfl
          | nested other _ => exact absurd parameter (other plain).2
      next other' =>
        rw [isParameter, not_and] at other'
        constructor
        · intro found
          obtain ⟨inner, nested, rfl⟩ := Option.map_eq_some_iff.mp found
          exact .nested (fun plain => ⟨other plain, other' plain⟩) ⟨id, declared, nested⟩
        · intro offered
          cases offered with
          | method plain method => exact absurd method (other plain)
          | parameter plain own => exact absurd own (other' plain)
          | nested _ inside =>
            obtain ⟨outer, declared', nested⟩ := inside
            cases declared.symm.trans declared'
            exact Option.map_eq_some_iff.mpr ⟨_, nested, rfl⟩

/-- A simple name is bound as the declarations around it bind it, read in any way that agrees with
what is looked up. -/
theorem lookupSimple?_getD_iff {reading : DeclarationReading} {n : Node} {name : String}
    {args : List TypeRef}
    (reads : ∀ a ∈ n.ancestors, ∀ t, m.boundBy? name args a = some t ↔
      DeclarationOffers reading name args a t) {t : TypeRef} :
    (m.lookupSimple? name args n).getD (.external name args) = t ↔
      m.Binds reading n name args t := by
  have scopes : ∀ scope ∈ m.scopesOutward n, ∀ t, m.usedIn? name args n scope = some t ↔
      m.ScopeOffers n name args scope t := fun _ _ _ => usedIn?_eq_some_iff
  have noSpace : m.typeIn? (m.spacesAt n) name args.length = none ↔
      ∀ id, ¬m.InLongestSpace n name args.length id := by
    simp only [← typeIn?_eq_some_iff, Option.eq_none_iff_forall_ne_some, ne_eq]
  constructor
  · rintro rfl
    unfold lookupSimple?
    -- What one level does not bind is left to the next one.
    split
    next bound around => exact .declaration ((findSome?_eq_some_iff_firstOf reads).mp around)
    next around =>
      have nothing := (findSome?_eq_none_iff_offers reads).mp around
      split
      next id inSpace => exact .space nothing (typeIn?_eq_some_iff.mp inSpace)
      next outside =>
        have nowhere := noSpace.mp outside
        cases used : (m.scopesOutward n).findSome? (m.usedIn? name args n) with
        | some t => exact .scope nothing nowhere ((findSome?_eq_some_iff_firstOf scopes).mp used)
        | none => exact .unknown nothing nowhere ((findSome?_eq_none_iff_offers scopes).mp used)
  · intro binds
    unfold lookupSimple?
    cases binds with
    | declaration first =>
      rw [(findSome?_eq_some_iff_firstOf reads).mpr first]
      rfl
    | space nothing inSpace =>
      rw [(findSome?_eq_none_iff_offers reads).mpr nothing, typeIn?_eq_some_iff.mpr inSpace]
      rfl
    | scope nothing nowhere first =>
      rw [(findSome?_eq_none_iff_offers reads).mpr nothing, noSpace.mpr nowhere]
      dsimp only
      rw [(findSome?_eq_some_iff_firstOf scopes).mpr first]
      rfl
    | unknown nothing nowhere unused =>
      rw [(findSome?_eq_none_iff_offers reads).mpr nothing, noSpace.mpr nowhere]
      dsimp only
      rw [(findSome?_eq_none_iff_offers scopes).mpr unused]
      rfl

/-- An identifier or a generic name denotes at least an unknown type of this name. -/
theorem resolve?_simpleName {n : Node} {name : String} {args : List TypeRef}
    (named : m.simpleName? n = some (name, args)) (inferred : name ≠ "var")
    (unbound : name ≠ "dynamic") :
    m.resolve? n = some ((m.lookupSimple? name args n).getD (.external name args)) := by
  have named' := named
  rw [simpleName?] at named'
  split at named'
  next kind =>
    cases named'
    rw [resolve?]
    simp only [kind]
    have written : unboundIdentifier? n.trimmedText = some (.external n.trimmedText []) := by
      simp [unboundIdentifier?, inferred, unbound, TypeRef.written]
    rw [written]
    cases m.lookupSimple? n.trimmedText [] n <;> rfl
  next kind =>
    rw [resolve?]
    simp only [kind]
    rw [named]
    rfl
  next => cases named'

end Model

/-! ### What the source says -/

/-- How the source reads: each declaration has its own type parameters, and inside a type are those
types whose nearest surrounding declaration is part of it. -/
def sourceReading (root : Node) : DeclarationReading where
  parameter a name := ∃ d, recordedAt? root.declarations a = some d ∧ name ∈ d.typeParameters
  nested a name arity id := ∃ d e d', recordedAt? root.declarations a = some d ∧
    e ∈ root.declarations ∧ e.name = name ∧ e.key.arity = arity ∧
    enclosing? root.declarations e.node = some d' ∧ SameType root.declarations d' d ∧
    (SymbolTable.ofRoot root).declaredBy? e.node = some id

/-- Around a node the table knows of a name what the source says: the parts of each type agree on
whether it is a type parameter, and what continues the path of a type by the name is inside it. -/
structure ReadsAlike (root n : Node) (name : String) : Prop where
  parameters : ∀ d ∈ around root.declarations n, ∀ s ∈ (SymbolTable.ofRoot root).types,
    s.key = d.key → (name ∈ s.typeParameters ↔ name ∈ d.typeParameters)
  inside : ∀ d ∈ around root.declarations n, ∀ e ∈ root.declarations,
    e.path = dotted d.path name → ∃ d', enclosing? root.declarations e.node = some d' ∧
      SameType root.declarations d' d

theorem DeclarationOffers.reread {reading reading' : DeclarationReading} {name : String}
    {args : List TypeRef} {a : Node} {t : TypeRef}
    (offered : DeclarationOffers reading name args a t)
    (parameter : reading.parameter a name ↔ reading'.parameter a name)
    (nested : ∀ id, reading.nested a name args.length id ↔
      reading'.nested a name args.length id) : DeclarationOffers reading' name args a t := by
  cases offered with
  | method plain method => exact .method plain method
  | parameter plain own => exact .parameter plain (parameter.mp own)
  | nested other inside =>
    refine .nested (fun plain => ?_) ((nested _).mp inside)
    obtain ⟨noMethod, noParameter⟩ := other plain
    exact ⟨noMethod, fun own => noParameter (parameter.mpr own)⟩

theorem dotted_right_inj {head name name' : String} (same : dotted head name = dotted head name') :
    name = name' := by
  have all := congrArg String.toList same
  rw [toList_dotted, toList_dotted] at all
  exact String.toList_inj.mp (List.cons.inj (List.append_cancel_left all)).2

section

variable {tree : Tree} {a n : Node} {name : String}

theorem declaredBy?_eq_some_iff_recordedAt? (below : a ∈ (Node.root tree).subtree) {id : TypeId} :
    (SymbolTable.ofRoot (.root tree)).declaredBy? a = some id ↔
      ∃ d, recordedAt? (Node.root tree).declarations a = some d ∧
        SymbolTable.idOf? (SymbolTable.ofRoot (.root tree)).types d.key = some id := by
  constructor
  · intro declared
    have known := (SymbolTable.declaredBy?_isSome_iff below).mp (by rw [declared]; rfl)
    obtain ⟨d, recorded, rfl⟩ := known
    rw [SymbolTable.declaredBy?_of_recorded recorded] at declared
    exact ⟨d, recordedAt?_recorded recorded, declared⟩
  · rintro ⟨d, found, known⟩
    obtain ⟨recorded, here⟩ := recordedAt?_eq_some found
    have inside := Node.mem_subtree_of_mem_declarations recorded
    rw [← Node.eq_of_address inside below here, SymbolTable.declaredBy?_of_recorded recorded, known]

theorem exists_type_of_recorded {root : Node} {d : TypeDeclaration}
    (recorded : d ∈ root.declarations) :
    ∃ id s, SymbolTable.idOf? (SymbolTable.ofRoot root).types d.key = some id ∧
      (SymbolTable.ofRoot root).get? id = some s ∧ s.key = d.key := by
  have known := ((SymbolTable.merges_ofRoot root).keys d.key).mpr (List.mem_map_of_mem recorded)
  obtain absent | ⟨id, found⟩ :=
    Option.eq_none_or_eq_some (SymbolTable.idOf? (SymbolTable.ofRoot root).types d.key)
  · exact absurd known (SymbolTable.idOf?_eq_none_iff.mp absent)
  · obtain ⟨s, there, same⟩ := SymbolTable.idOf?_eq_some found
    exact ⟨id, s, found, there, same⟩

theorem mem_around {ds : List TypeDeclaration} {d : TypeDeclaration} (above : a ∈ n.ancestors)
    (found : recordedAt? ds a = some d) : d ∈ around ds n :=
  List.mem_filterMap.mpr ⟨a, above, found⟩

theorem parameter_iff (alike : ReadsAlike (.root tree) n name)
    (below : a ∈ (Node.root tree).subtree) (above : a ∈ n.ancestors) :
    (Model.ofTree tree).tableReading.parameter a name ↔
      (sourceReading (.root tree)).parameter a name := by
  constructor
  · rintro ⟨id, s, declared, there, own⟩
    obtain ⟨d, found, known⟩ := (declaredBy?_eq_some_iff_recordedAt? below).mp declared
    obtain ⟨s', there', same⟩ := SymbolTable.idOf?_eq_some known
    cases there.symm.trans there'
    have member := List.mem_of_getElem? there
    exact ⟨d, found, (alike.parameters d (mem_around above found) s member same).mp own⟩
  · rintro ⟨d, found, own⟩
    obtain ⟨recorded, -⟩ := recordedAt?_eq_some found
    obtain ⟨id, s, known, there, same⟩ := exists_type_of_recorded recorded
    have declared := (declaredBy?_eq_some_iff_recordedAt? below).mpr ⟨d, found, known⟩
    have member := List.mem_of_getElem? there
    exact ⟨id, s, declared, there,
      (alike.parameters d (mem_around above found) s member same).mpr own⟩

theorem nested_iff (outside : Node.NamespacesOutside (.root tree))
    (alike : ReadsAlike (.root tree) n name) (below : a ∈ (Node.root tree).subtree)
    (above : a ∈ n.ancestors) (arity : Nat) (id : TypeId) :
    (Model.ofTree tree).tableReading.nested a name arity id ↔
      (sourceReading (.root tree)).nested a name arity id := by
  constructor
  · rintro ⟨outer, declared, nested⟩
    obtain ⟨d, found, known⟩ := (declaredBy?_eq_some_iff_recordedAt? below).mp declared
    obtain ⟨o, there, nested⟩ := Option.bind_eq_some_iff.mp nested
    obtain ⟨o', there', same⟩ := SymbolTable.idOf?_eq_some known
    cases there.symm.trans there'
    obtain ⟨s, inner, key⟩ := SymbolTable.lookup?_eq_some nested
    -- The type that was found has been declared somewhere.
    have listed := ((SymbolTable.merges_ofRoot (.root tree)).keys s.key).mp
      (List.mem_map_of_mem (List.mem_of_getElem? inner))
    obtain ⟨e, recorded, key'⟩ := List.mem_map.mp listed
    rw [key] at key'
    have path : e.path = dotted d.path name := by
      have outerPath : o.path = d.path := congrArg TypeKey.path same
      rw [← outerPath]
      exact congrArg TypeKey.path key'
    -- Its path continues that of the type around the name, so it really is inside that type.
    obtain ⟨d', around, part⟩ := alike.inside d (mem_around above found) e recorded path
    have recorded' := (recordedAt?_eq_some found).1
    have named : e.name = name := by
      have outward := path_of_some outside recorded around
      rw [path, path_eq_of_sameType outside (outward_of_some recorded around).1 recorded' part]
        at outward
      exact (dotted_right_inj outward).symm
    refine ⟨d, e, d', found, recorded, named, congrArg TypeKey.arity key', around, part, ?_⟩
    rw [SymbolTable.declaredBy?_of_recorded recorded, key', ← SymbolTable.lookup?_eq_idOf?]
    exact nested
  · rintro ⟨d, e, d', found, recorded, named, arity', around, part, declared⟩
    have recorded' := (recordedAt?_eq_some found).1
    obtain ⟨outer, o, known, there, same⟩ := exists_type_of_recorded recorded'
    refine ⟨outer, (declaredBy?_eq_some_iff_recordedAt? below).mpr ⟨d, found, known⟩, ?_⟩
    have outerPath : o.path = d.path := congrArg TypeKey.path same
    have path : e.path = dotted o.path name := by
      rw [path_of_some outside recorded around, named, outerPath,
        path_eq_of_sameType outside (outward_of_some recorded around).1 recorded' part]
    have key : e.key = ⟨dotted o.path name, arity⟩ := by
      rw [TypeDeclaration.key, TypeKey.mk.injEq]
      exact ⟨path, arity'⟩
    rw [SymbolTable.declaredBy?_of_recorded recorded, key, ← SymbolTable.lookup?_eq_idOf?]
      at declared
    exact Option.bind_eq_some_iff.mpr ⟨o, there, declared⟩

end

/-- A simple name is bound by the declarations around it as the table reads them, else by the
longest namespace that has the type, else by the using directives, and otherwise stays unknown.
Where the table and the source read alike, this is what the source says. -/
theorem resolve?_simple (tree : Tree) (n : Node) (below : n ∈ (Node.root tree).subtree)
    (name : String) (args : List TypeRef)
    (named : (Model.ofTree tree).simpleName? n = some (name, args)) (inferred : name ≠ "var")
    (unbound : name ≠ "dynamic") :
    (∀ t, (Model.ofTree tree).resolve? n = some t ↔
      (Model.ofTree tree).Binds (Model.ofTree tree).tableReading n name args t) ∧
    (Node.NamespacesOutside (.root tree) → ReadsAlike (.root tree) n name →
      ∀ t, (Model.ofTree tree).resolve? n = some t ↔
        (Model.ofTree tree).Binds (sourceReading (.root tree)) n name args t) := by
  rw [Model.resolve?_simpleName named inferred unbound]
  simp only [Option.some.injEq]
  constructor
  · intro t
    exact Model.lookupSimple?_getD_iff fun a _ t => Model.boundBy?_eq_some_iff
  · intro outside alike t
    apply Model.lookupSimple?_getD_iff
    intro a above t
    -- What is around a node of the file is in the file.
    have inside : a ∈ (Node.root tree).subtree := by
      rcases Node.mem_ancestors below above with further | ⟨inside, -⟩
      · exact absurd further List.not_mem_nil
      · exact inside
    have parameter := parameter_iff alike inside above
    have nested := nested_iff outside alike inside above args.length
    rw [Model.boundBy?_eq_some_iff]
    constructor
    · intro offered
      exact offered.reread parameter nested
    · intro offered
      exact offered.reread parameter.symm fun id => (nested id).symm

/-! ### A type parameter of another class -/

/-- `class Inner<P> { P held; }` for the given type parameter -/
def genericInner (start : Nat) (parameter : String) : Tree :=
  firstRowTree "class_declaration" none start
    ("class Inner<" ++ parameter ++ "> \x7b " ++ parameter ++ " held; \x7d")
    [firstRowTree "identifier" (some "name") (start + 6) "Inner" [],
      firstRowTree "type_parameter_list" none (start + 11) ("<" ++ parameter ++ ">")
        [firstRowTree "type_parameter" none (start + 12) parameter
          [firstRowTree "identifier" (some "name") (start + 12) parameter []]],
      firstRowTree "declaration_list" (some "body") (start + 15)
        ("\x7b " ++ parameter ++ " held; \x7d")
        [firstRowTree "field_declaration" none (start + 17) (parameter ++ " held;")
          [firstRowTree "variable_declaration" none (start + 17) (parameter ++ " held")
            [firstRowTree "identifier" (some "type") (start + 17) parameter [],
              firstRowTree "variable_declarator" none (start + 19) "held"
                [firstRowTree "identifier" (some "name") (start + 19) "held" []]]]]]

/-- `class Outer { class Inner<T> { T held; } } class Outer<A> { class Inner<U> { U held; } }` -/
def parameterFile : Tree :=
  firstRowTree "compilation_unit" none 0
    ("class Outer \x7b " ++ (genericInner 14 "T").info.text ++ " \x7d class Outer<A> \x7b " ++
      (genericInner 60 "U").info.text ++ " \x7d")
    [firstRowTree "class_declaration" none 0
        ("class Outer \x7b " ++ (genericInner 14 "T").info.text ++ " \x7d")
        [firstRowTree "identifier" (some "name") 6 "Outer" [],
          firstRowTree "declaration_list" (some "body") 12
            ("\x7b " ++ (genericInner 14 "T").info.text ++ " \x7d") [genericInner 14 "T"]],
      firstRowTree "class_declaration" none 43
        ("class Outer<A> \x7b " ++ (genericInner 60 "U").info.text ++ " \x7d")
        [firstRowTree "identifier" (some "name") 49 "Outer" [],
          firstRowTree "type_parameter_list" none 54 "<A>"
            [firstRowTree "type_parameter" none 55 "A"
              [firstRowTree "identifier" (some "name") 55 "A" []]],
          firstRowTree "declaration_list" (some "body") 58
            ("\x7b " ++ (genericInner 60 "U").info.text ++ " \x7d") [genericInner 60 "U"]]]

/-- The type of the field that is of the given type. -/
def parameterUse (name : String) : Node :=
  ((Node.root parameterFile).subtree.find? fun n =>
    n.field? == some "type" && n.text == name).getD (.root parameterFile)

theorem parameterUse_mem_subtree {name : String} (there : ((Node.root parameterFile).subtree.find?
      fun n => n.field? == some "type" && n.text == name).isSome = true) :
    parameterUse name ∈ (Node.root parameterFile).subtree := by
  obtain ⟨n, found⟩ := Option.isSome_iff_exists.mp there
  rw [parameterUse, found]
  exact List.mem_of_find?_eq_some found

/-- In the first inner class its type parameter is found. In the second one it stays unknown: the
table takes the class for a part of the first one, which has another type parameter. -/
theorem parameterFile_unknown :
    ReadsAlike (.root parameterFile) (parameterUse "T") "T" ∧
      (Model.ofTree parameterFile).Binds (sourceReading (.root parameterFile)) (parameterUse "T")
        "T" [] (.param "T") ∧
      (∃ a ∈ (parameterUse "U").ancestors,
        (sourceReading (.root parameterFile)).parameter a "U") ∧
      (Model.ofTree parameterFile).resolve? (parameterUse "U") = some (.external "U" []) ∧
      ¬(Model.ofTree parameterFile).Binds (sourceReading (.root parameterFile)) (parameterUse "U")
        "U" [] (.external "U" []) := by
  have outside : Node.NamespacesOutside (.root parameterFile) :=
    Node.namespacesOutside_of_infos (by decide)
  have named : (Model.ofTree parameterFile).simpleName? (parameterUse "T") = some ("T", []) := by
    decide +kernel
  have known : (Model.ofTree parameterFile).resolve? (parameterUse "T") = some (.param "T") := by
    decide +kernel
  have parameters : ∀ d ∈ around (Node.root parameterFile).declarations (parameterUse "T"),
      ∀ s ∈ (SymbolTable.ofRoot (.root parameterFile)).types, s.key = d.key →
        ("T" ∈ s.typeParameters ↔ "T" ∈ d.typeParameters) := by decide +kernel
  have apart : ∀ d ∈ around (Node.root parameterFile).declarations (parameterUse "T"),
      ∀ e ∈ (Node.root parameterFile).declarations, e.path ≠ dotted d.path "T" := by
    decide +kernel
  have alike : ReadsAlike (.root parameterFile) (parameterUse "T") "T" :=
    ⟨parameters, fun d around e recorded same => absurd same (apart d around e recorded)⟩
  have unknown : (Model.ofTree parameterFile).resolve? (parameterUse "U") =
      some (.external "U" []) := by decide +kernel
  have declares : ((parameterUse "U").ancestors.any fun a =>
      (recordedAt? (Node.root parameterFile).declarations a).any fun d =>
        d.typeParameters.contains "U") = true := by decide +kernel
  obtain ⟨a, above, declares⟩ := List.any_eq_true.mp declares
  obtain ⟨d, found, own⟩ := (Option.any_eq_true _ _).mp declares
  have parameter : (sourceReading (.root parameterFile)).parameter a "U" :=
    ⟨d, found, List.contains_iff_mem.mp own⟩
  refine ⟨alike, ?_, ⟨a, above, parameter⟩, unknown, fun binds => ?_⟩
  · have below : parameterUse "T" ∈ (Node.root parameterFile).subtree :=
      parameterUse_mem_subtree (by decide +kernel)
    exact ((resolve?_simple parameterFile _ below "T" [] named (by decide) (by decide)).2
      outside alike _).mp known
  -- An unknown name would have no declaration around it that binds it.
  · cases binds with
    | declaration first =>
      obtain ⟨b, -, offered⟩ := first.exists_offers
      cases offered
    | scope nothing | unknown nothing => exact nothing a above _ (.parameter rfl parameter)

end ClassAtlas
