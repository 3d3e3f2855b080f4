import ClassAtlas.Proofs.Types.Produced

/-!
# Members of base classes

An inherited member is declared in terms of the type parameters of the class that declares it. To a
receiver these stand for what the base lists in between write for them. What is replaced in the type
of the member are the type parameters of the receiver instead, so the two agree exactly if every
type parameter in that type is replaced by the same.
-/
namespace ClassAtlas

namespace Model

open TypeRef

variable {m : Model}

/-! ### The class that declares a member -/

/-- The return type of a method of a given name, when the member is one. -/
def returnType? (m : Model) (name : String) (member : Node) : Option TypeRef :=
  (m.methodSymbol? member).bind fun method =>
    if method.name == name then method.returnType? else none

/-- What the members of a type itself give, base classes apart. -/
def ownMember? (m : Model) (ofMember? : Node → Option TypeRef) (id : TypeId) : Option TypeRef :=
  (((m.table.get? id).map fun s => s.declarations.flatMap Node.members).getD []).findSome? ofMember?

/-- Of a type and its base classes, `declaring` is the nearest one in which a member gives `t`. It
comes after the classes of the path. -/
structure NearestWith (m : Model) (ofMember? : Node → Option TypeRef) (id : TypeId)
    (path : List TypeId) (declaring : TypeId) (t : TypeRef) : Prop where
  chain : path ++ [declaring] <+: m.baseChain id
  nearer : ∀ c ∈ path, m.ownMember? ofMember? c = none
  own : m.ownMember? ofMember? declaring = some t

/-- A search in groups searches one group after the other. -/
theorem findSome?_flatMap {α β γ : Type} (f : α → List β) (g : β → Option γ) (xs : List α) :
    (xs.flatMap f).findSome? g = xs.findSome? fun x => (f x).findSome? g := by
  induction xs with
  | nil => rfl
  | cons x rest ih =>
    rw [List.flatMap_cons, List.findSome?_append, ih, List.findSome?_cons]
    cases (f x).findSome? g <;> rfl

theorem findSome?_inheritedMembers (ofMember? : Node → Option TypeRef) (id : TypeId) :
    (m.inheritedMembers id).findSome? ofMember? =
      (m.baseChain id).findSome? (m.ownMember? ofMember?) :=
  findSome?_flatMap _ ofMember? (m.baseChain id)

theorem findSome?_inheritedMembers_iff {ofMember? : Node → Option TypeRef} {id : TypeId}
    {t : TypeRef} :
    (m.inheritedMembers id).findSome? ofMember? = some t ↔
      ∃ path declaring, m.NearestWith ofMember? id path declaring t := by
  rw [findSome?_inheritedMembers, List.findSome?_eq_some_iff]
  constructor
  · rintro ⟨path, declaring, rest, chain, own, nearer⟩
    exact ⟨path, declaring, ⟨rest, by simp [chain]⟩, nearer, own⟩
  · rintro ⟨path, declaring, ⟨rest, chain⟩, nearer, own⟩
    exact ⟨path, declaring, rest, by simp [← chain], own, nearer⟩

/-! ### The type arguments of a base class -/

/-- To a receiver with `args` for the type parameters of `id`, the class `b` at the end of the path
has `seen` for its own: each class of the path writes the next one in its base list, in terms of its
own type parameters. -/
inductive Inherits (m : Model) :
    List TypeId → TypeId → List TypeRef → TypeId → List TypeRef → Prop
  | own {id : TypeId} {args : List TypeRef} : Inherits m [] id args id args
  | base {path : List TypeId} {id next b : TypeId} {s : TypeSymbol} {args written seen} :
      m.table.get? id = some s → m.baseClass? id = some next →
      .declared next written ∈ m.baseTypes id →
      Inherits m path next (written.map fun a => a.substitute s.typeParameters args) b seen →
      Inherits m (id :: path) id args b seen

theorem exists_inherits_from {path : List TypeId} {already : List TypeId} {id b : TypeId}
    (chain : path ++ [b] <+: m.baseChainFrom already id) (args : List TypeRef) :
    ∃ seen, m.Inherits path id args b seen := by
  -- The induction is on the classes before `b`, each with what the one before it writes for it.
  induction path generalizing already id args with
  | nil =>
    rw [baseChainFrom] at chain
    split at chain
    · obtain ⟨rfl, -⟩ := List.cons_prefix_cons.mp chain
      exact ⟨args, .own⟩
    · exact absurd (List.prefix_nil.mp chain) (by simp)
  | cons c path ih =>
    rw [baseChainFrom] at chain
    split at chain
    next fresh =>
      obtain ⟨rfl, further⟩ := List.cons_prefix_cons.mp chain
      split at further
      · exact absurd (List.prefix_nil.mp further) (by simp)
      next next found =>
        have there := List.getElem?_eq_getElem fresh.1
        obtain ⟨written, listed⟩ := exists_declared_of_baseClass? found
        obtain ⟨seen, inherits⟩ := ih further _
        exact ⟨seen, .base there found listed inherits⟩
    · exact absurd (List.prefix_nil.mp chain) (by simp)

theorem Inherits.wellFormed {path : List TypeId} {id b : TypeId} {args seen : List TypeRef}
    (inherits : m.Inherits path id args b seen) (wf : (declared id args).WellFormed m.table) :
    (declared b seen).WellFormed m.table := by
  induction inherits with
  | own => exact wf
  | @base _ _ _ _ s args _ _ there _ listed _ ih =>
    -- What the base list writes is well formed, and so are the arguments that are put in.
    have replaced := (wellFormed_of_mem_baseTypes listed).substitute s.typeParameters
      fun a (part : a ∈ args) => wf.parts part
    obtain ⟨s, there', count⟩ := wf.declared .whole
    cases there.symm.trans there'
    rw [substitute_eq_replace count.symm, TypeRef.replace, replaceAll_eq_map] at replaced
    refine ih ?_
    simpa only [substitute_eq_replace count.symm] using replaced

/-! ### What a receiver gets -/

/-- The expression `n` asks the receiver of the member access `access` for a member: for a property,
field or event, or for a method that it calls. -/
inductive AsksFor (m : Model) : Node → Node → (Node → Option TypeRef) → Prop
  | value {n : Node} {name : String} : n.kind = "member_access_expression" →
      (n.child? "name").bind Node.usedName? = some name → AsksFor m n n (m.valueType? name)
  | call {n access : Node} {name : String} : n.kind = "invocation_expression" →
      n.child? "function" = some access → access.kind = "member_access_expression" →
      (access.child? "name").bind Node.usedName? = some name →
      AsksFor m n access (m.returnType? name)

theorem typeOf?_of_asksFor {scope : Scope} {n access : Node} {ofMember? : Node → Option TypeRef}
    (asks : m.AsksFor n access ofMember?) :
    m.typeOf? scope n = m.throughReceiver? (m.typeOfReceiver? scope access) fun id =>
      (m.inheritedMembers id).findSome? ofMember? := by
  rw [typeOf?]
  cases asks with
  | value kind used =>
    simp only [kind]
    rw [used, Option.bind_some]
    rfl
  | call kind function access used =>
    simp only [kind]
    split
    next absent => rw [function] at absent; cases absent
    next found =>
      cases function.symm.trans found
      simp only [access]
      rw [used, Option.bind_some]
      rfl

/-- A member of a base class gets its declared type with the type parameters of the receiver
replaced. That is the type which the base lists give it exactly if every type parameter in it stands
for the same as a parameter of the receiver and as one of the class that declares the member. -/
theorem typeOf?_inherited (m : Model) (scope : Scope) (n access : Node)
    (ofMember? : Node → Option TypeRef) (asks : m.AsksFor n access ofMember?) (id : TypeId)
    (args : List TypeRef) (receiver : m.typeOfReceiver? scope access = some (.declared id args))
    (wf : (declared id args).WellFormed m.table) (path : List TypeId) (b : TypeId) (t : TypeRef)
    (nearest : m.NearestWith ofMember? id path b t) :
    ∃ s declaring, m.table.get? id = some s ∧ m.table.get? b = some declaring ∧
      m.typeOf? scope n = some (t.substitute s.typeParameters args) ∧
      (∃ seen, m.Inherits path id args b seen) ∧
      ∀ seen, m.Inherits path id args b seen →
        (m.typeOf? scope n = some (t.substitute declaring.typeParameters seen) ↔
          ∀ name, (param name).Inside t →
            (param name).substitute s.typeParameters args =
              (param name).substitute declaring.typeParameters seen) := by
  obtain ⟨s, there, count⟩ := wf.declared .whole
  have gets : m.typeOf? scope n = some (t.substitute s.typeParameters args) := by
    have found := findSome?_inheritedMembers_iff.mpr ⟨path, b, nearest⟩
    rw [typeOf?_of_asksFor asks, receiver, throughReceiver?, found, Option.bind_some, there,
      Option.map_some]
  obtain ⟨seen, inherits⟩ := exists_inherits_from nearest.chain args
  obtain ⟨declaring, there', -⟩ := (inherits.wellFormed wf).declared .whole
  refine ⟨s, declaring, there, there', gets, ⟨seen, inherits⟩, ?_⟩
  -- A base list may name the class more than once, so there can be other arguments.
  intro seen inherits
  obtain ⟨declaring', there'', count'⟩ := (inherits.wellFormed wf).declared .whole
  cases there'.symm.trans there''
  rw [gets, Option.some.injEq]
  simp only [substitute_eq_replace count.symm, substitute_eq_replace count'.symm]
  exact replace_eq_replace_iff

end Model

/-! ### A base class with a type parameter of the same name -/

/-- `class Base<T> { T item; }` -/
def baseOfSameName : Tree :=
  firstRowTree "class_declaration" none 0 "class Base<T> \x7b T item; \x7d"
    [firstRowTree "identifier" (some "name") 6 "Base" [],
      firstRowTree "type_parameter_list" none 10 "<T>"
        [firstRowTree "type_parameter" none 11 "T"
          [firstRowTree "identifier" (some "name") 11 "T" []]],
      firstRowTree "declaration_list" (some "body") 14 "\x7b T item; \x7d"
        [firstRowTree "field_declaration" none 16 "T item;"
          [firstRowTree "variable_declaration" none 16 "T item"
            [firstRowTree "identifier" (some "type") 16 "T" [],
              firstRowTree "variable_declarator" none 18 "item"
                [firstRowTree "identifier" (some "name") 18 "item" []]]]]]

/-- `class Derived<T> : Base<string> { }` -/
def derivedOfSameName : Tree :=
  firstRowTree "class_declaration" none 26 "class Derived<T> : Base<string> \x7b \x7d"
    [firstRowTree "identifier" (some "name") 32 "Derived" [],
      firstRowTree "type_parameter_list" none 39 "<T>"
        [firstRowTree "type_parameter" none 40 "T"
          [firstRowTree "identifier" (some "name") 40 "T" []]],
      firstRowTree "base_list" none 43 ": Base<string>"
        [firstRowTree "generic_name" none 45 "Base<string>"
          [firstRowTree "identifier" none 45 "Base" [],
            firstRowTree "type_argument_list" none 49 "<string>"
              [firstRowTree "predefined_type" none 50 "string" []]]],
      firstRowTree "declaration_list" (some "body") 58 "\x7b \x7d" []]

/-- `void Run(Derived<int> box) { box.item; }` -/
def inheritingMethod : Tree :=
  firstRowTree "method_declaration" none 75 "void Run(Derived<int> box) \x7b box.item; \x7d"
    [firstRowTree "predefined_type" (some "returns") 75 "void" [],
      firstRowTree "identifier" (some "name") 80 "Run" [],
      firstRowTree "parameter_list" (some "parameters") 83 "(Derived<int> box)"
        [firstRowTree "parameter" none 84 "Derived<int> box"
          [firstRowTree "generic_name" (some "type") 84 "Derived<int>"
            [firstRowTree "identifier" none 84 "Derived" [],
              firstRowTree "type_argument_list" none 91 "<int>"
                [firstRowTree "predefined_type" none 92 "int" []]],
            firstRowTree "identifier" (some "name") 97 "box" []]],
      firstRowTree "block" (some "body") 102 "\x7b box.item; \x7d"
        [firstRowTree "expression_statement" none 104 "box.item;"
          [firstRowTree "member_access_expression" none 104 "box.item"
            [firstRowTree "identifier" (some "expression") 104 "box" [],
              firstRowTree "identifier" (some "name") 108 "item" []]]]]

/-- The two classes before it, and a third one with the method. -/
def inheritingFile : Tree :=
  firstRowTree "compilation_unit" none 0
    (baseOfSameName.info.text ++ " " ++ derivedOfSameName.info.text ++
      " class Page \x7b " ++ inheritingMethod.info.text ++ " \x7d")
    [baseOfSameName, derivedOfSameName,
      firstRowTree "class_declaration" none 62
        ("class Page \x7b " ++ inheritingMethod.info.text ++ " \x7d")
        [firstRowTree "identifier" (some "name") 68 "Page" [],
          firstRowTree "declaration_list" (some "body") 73
            ("\x7b " ++ inheritingMethod.info.text ++ " \x7d") [inheritingMethod]]]

def inheritingNode (kind : String) : Node :=
  ((Node.root inheritingFile).subtree.find? fun n => n.kind == kind).getD (.root inheritingFile)

def inheritingScope : Scope :=
  (Model.ofTree inheritingFile).scopeAfter (inheritingNode "method_declaration") 0

def stringType : TypeRef := .ofCore ⟨"System", "String", some "string"⟩

/-- The base list makes the item a string, and it gets the argument of the other parameter. -/
theorem inheritingFile_item :
    (Model.ofTree inheritingFile).memberType? 1 "item" = some (.param "T") ∧
      (Model.ofTree inheritingFile).baseTypes 1 = [.declared 0 [stringType]] ∧
      (Model.ofTree inheritingFile).Inherits [1] 1 [intType] 0 [stringType] ∧
      (Model.ofTree inheritingFile).typeOf? inheritingScope
          (inheritingNode "member_access_expression") = some intType ∧
      (Model.ofTree inheritingFile).typeOf? inheritingScope
          (inheritingNode "member_access_expression") ≠
        some ((TypeRef.param "T").substitute ["T"] [stringType]) := by
  have kind : (inheritingNode "member_access_expression").kind = "member_access_expression" := by
    decide +kernel
  have used : ((inheritingNode "member_access_expression").child? "name").bind Node.usedName? =
      some "item" := by decide +kernel
  have receiver : (Model.ofTree inheritingFile).typeOfReceiver? inheritingScope
      (inheritingNode "member_access_expression") = some (.declared 1 [intType]) := by
    decide +kernel
  have derived : ((Model.ofTree inheritingFile).table.get? 1).map TypeSymbol.typeParameters =
      some ["T"] := by decide +kernel
  have base : ((Model.ofTree inheritingFile).table.get? 0).map TypeSymbol.typeParameters =
      some ["T"] := by decide +kernel
  have bases : (Model.ofTree inheritingFile).baseTypes 1 = [.declared 0 [stringType]] := by
    decide +kernel
  have inherited : (Model.ofTree inheritingFile).baseClass? 1 = some 0 := by decide +kernel
  have chain : (Model.ofTree inheritingFile).baseChain 1 = [1, 0] := by decide +kernel
  have nearest : (Model.ofTree inheritingFile).NearestWith
      ((Model.ofTree inheritingFile).valueType? "item") 1 [1] 0 (.param "T") :=
    ⟨⟨[], by rw [chain]; rfl⟩, by decide +kernel, by decide +kernel⟩
  have member : (Model.ofTree inheritingFile).memberType? 1 "item" = some (.param "T") :=
    Model.findSome?_inheritedMembers_iff.mpr ⟨_, _, nearest⟩
  obtain ⟨s, there, params⟩ := Option.map_eq_some_iff.mp derived
  have inherits : (Model.ofTree inheritingFile).Inherits [1] 1 [intType] 0 [stringType] := by
    refine .base there inherited (bases ▸ List.mem_cons_self) ?_
    rw [params]
    exact .own
  have wf : (TypeRef.declared 1 [intType]).WellFormed (Model.ofTree inheritingFile).table :=
    Model.wellFormed_typeOfReceiver? (Model.wellFormed_scopeAfter _ _) receiver
  obtain ⟨s', declaring, there', there'', gets, -, law⟩ := Model.typeOf?_inherited
    (Model.ofTree inheritingFile) inheritingScope _ _ _ (.value kind used) 1 [intType] receiver wf
    [1] 0 (.param "T") nearest
  cases there.symm.trans there'
  rw [there'', Option.map_some, Option.some.injEq] at base
  rw [params] at gets
  refine ⟨member, bases, inherits, gets, ?_⟩
  rw [← base]
  intro wrong
  have same := (law _ inherits).mp wrong "T" .whole
  rw [params, base] at same
  exact absurd same (by decide +kernel)

end ClassAtlas
