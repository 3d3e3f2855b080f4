import ClassAtlas.Proofs.Symbols.Identity
import ClassAtlas.Proofs.Types.Inference

/-!
# All references of a file

Every reference that a model gives for a file is well formed. So the table is asked only for types
it has, and a type parameter in the type of a member is always replaced by what the receiver has in
its place.
-/
namespace ClassAtlas

namespace Model

open TypeRef

variable {m : Model} {scope : Scope}

/-- The references that a model gives for any question about a file. -/
inductive Produced (m : Model) : TypeRef → Prop
  | resolved {n : Node} {t : TypeRef} : m.resolve? n = some t → Produced m t
  | named {n : Node} {t : TypeRef} : m.named? n = some t → Produced m t
  | base {id : TypeId} {t : TypeRef} : t ∈ m.baseTypes id → Produced m t
  | member {id : TypeId} {name : String} {t : TypeRef} : m.memberType? id name = some t →
      Produced m t
  | returned {id : TypeId} {name : String} {t : TypeRef} : m.methodReturnType? id name = some t →
      Produced m t
  | method {n : Node} {method : MethodSymbol} {t : TypeRef} : m.methodSymbol? n = some method →
      method.returnType? = some t → Produced m t
  | declaredLocal {member : Node} {v : LocalVariable} {t : TypeRef} :
      v ∈ m.declaredLocals member → v.type? = some t → Produced m t
  | expression {member n : Node} {count : Nat} {t : TypeRef} :
      m.typeOf? (m.scopeAfter member count) n = some t → Produced m t
  | receiver {member n : Node} {count : Nat} {t : TypeRef} :
      m.typeOfReceiver? (m.scopeAfter member count) n = some t → Produced m t

/-- The positions at which the table is asked for a type. -/
inductive LookedUp (m : Model) : TypeId → Prop
  | declared {n : Node} {id : TypeId} : m.table.declaredBy? n = some id → LookedUp m id
  | found {path : String} {arity : Nat} {id : TypeId} : m.table.lookup? path arity = some id →
      LookedUp m id
  | around {id outer : TypeId} {s : TypeSymbol} : m.table.get? id = some s →
      s.container? = some outer → LookedUp m outer
  | base {id base : TypeId} : m.baseClass? id = some base → LookedUp m base
  | inside {t : TypeRef} {id : TypeId} {args : List TypeRef} : m.Produced t →
      (TypeRef.declared id args).Inside t → LookedUp m id
  | source {t u : TypeRef} {id : TypeId} : m.Produced t → u.Inside t →
      u.inSource? m.table = some id → LookedUp m id

theorem Produced.wellFormed {t : TypeRef} (produced : m.Produced t) : t.WellFormed m.table := by
  cases produced with
  | resolved bound => exact wellFormed_resolve? bound
  | named bound => exact wellFormed_named? bound
  | base listed => exact wellFormed_of_mem_baseTypes listed
  | member declared => exact wellFormed_memberType? declared
  | returned declared => exact wellFormed_methodReturnType? declared
  | method facts declared => exact wellFormed_methodSymbol? facts declared
  | declaredLocal listed known => exact wellFormed_declaredLocals _ _ listed _ known
  | expression known => exact wellFormed_typeOf? (wellFormed_scopeAfter _ _) known
  | receiver known => exact wellFormed_typeOfReceiver? (wellFormed_scopeAfter _ _) known

theorem exists_declared_of_baseClass? {id base : TypeId} (found : m.baseClass? id = some base) :
    ∃ args, TypeRef.declared base args ∈ m.baseTypes id := by
  obtain ⟨t, listed, chosen⟩ := List.exists_of_findSome?_eq_some found
  split at chosen
  · split at chosen
    · cases chosen
      exact ⟨_, listed⟩
    · cases chosen
  · cases chosen

theorem LookedUp.known {tree : Tree} {id : TypeId} (asked : (ofTree tree).LookedUp id) :
    id < (ofTree tree).table.size := by
  cases asked with
  | declared declared =>
    obtain ⟨s, there, -⟩ := (ofTree tree).table.byAddress_sound _ id declared
    exact (List.getElem?_eq_some_iff.mp there).1
  | found found =>
    obtain ⟨s, there, -⟩ := SymbolTable.lookup?_eq_some found
    exact (List.getElem?_eq_some_iff.mp there).1
  | around there around =>
    have placed := (SymbolTable.merges_ofRoot (.root tree)).placed there
    unfold SymbolTable.IsPlaced at placed
    rw [around] at placed
    obtain ⟨-, o, there', -⟩ := placed
    exact (List.getElem?_eq_some_iff.mp there').1
  | base found =>
    obtain ⟨args, listed⟩ := exists_declared_of_baseClass? found
    exact (wellFormed_of_mem_baseTypes listed).known .whole
  | inside produced inside => exact produced.wellFormed.known inside
  | source produced inside found => exact (produced.wellFormed.inside inside).source found

theorem exists_replace_of_receiver {n : Node} {id : TypeId} {args : List TypeRef}
    (wf : scope.WellFormed m.table)
    (receiver : m.typeOfReceiver? scope n = some (.declared id args)) :
    ∃ s, m.table.get? id = some s ∧ s.typeParameters.length = args.length ∧
      (∀ has? : TypeId → Option TypeRef,
        m.throughReceiver? (m.typeOfReceiver? scope n) has? =
          (has? id).map (replace fun name => (s.typeParameters.zip args).lookup name)) ∧
      ∀ p ∈ s.typeParameters, (param p).substitute s.typeParameters args ∈ args := by
  obtain ⟨s, there, count⟩ := (wellFormed_typeOfReceiver? wf receiver).declared .whole
  refine ⟨s, there, count.symm, ?_, fun p own => substitute_param_mem count.symm own⟩
  intro has?
  rw [receiver, throughReceiver?, there]
  cases has? id with
  | none => rfl
  | some type => exact congrArg some (substitute_eq_replace count.symm type)

/-- Every reference that a model gives for a file is well formed, and stays so when type parameters
are replaced by well-formed references. So the table is only asked for types it has, and the type
that a receiver has for a member is always the declared one with every type parameter of the
receiver replaced. -/
theorem produced_wellFormed (tree : Tree) :
    (∀ t, (ofTree tree).Produced t → t.WellFormed (ofTree tree).table) ∧
      (∀ (t : TypeRef) (params : List String) (args : List TypeRef),
        t.WellFormed (ofTree tree).table → (∀ a ∈ args, a.WellFormed (ofTree tree).table) →
        (t.substitute params args).WellFormed (ofTree tree).table) ∧
      (∀ id, (ofTree tree).LookedUp id → id < (ofTree tree).table.size) ∧
      (∀ member count v, ((ofTree tree).declaredLocals member)[count]? = some v →
        ∀ t, v.type? = some t →
          (ofTree tree).Inferred ((ofTree tree).scopeAfter member count) t) ∧
      ∀ member count n id args,
        (ofTree tree).typeOfReceiver? ((ofTree tree).scopeAfter member count) n =
          some (.declared id args) →
        ∃ s, (ofTree tree).table.get? id = some s ∧ s.typeParameters.length = args.length ∧
          (∀ has? : TypeId → Option TypeRef,
            (ofTree tree).throughReceiver?
                ((ofTree tree).typeOfReceiver? ((ofTree tree).scopeAfter member count) n) has? =
              (has? id).map (replace fun name => (s.typeParameters.zip args).lookup name)) ∧
          ∀ p ∈ s.typeParameters, (param p).substitute s.typeParameters args ∈ args := by
  refine ⟨fun t => Produced.wellFormed, ?_, fun id => LookedUp.known, ?_, ?_⟩
  · intro t params args wf each
    exact wf.substitute params each
  · intro member count v here t known
    exact (declaredIn_declaredLocals member).inferred_at here known
  · intro member count n id args receiver
    exact exists_replace_of_receiver (wellFormed_scopeAfter member count) receiver

end Model

/-! ### A member of a type parameter -/

/-- `Box<int> inner;` -/
def innerBoxField : Tree :=
  firstRowTree "field_declaration" none 23 "Box<int> inner;"
    [firstRowTree "variable_declaration" none 23 "Box<int> inner"
      [firstRowTree "generic_name" (some "type") 23 "Box<int>"
        [firstRowTree "identifier" none 23 "Box" [],
          firstRowTree "type_argument_list" none 26 "<int>"
            [firstRowTree "predefined_type" none 27 "int" []]],
        firstRowTree "variable_declarator" none 32 "inner"
          [firstRowTree "identifier" (some "name") 32 "inner" []]]]

/-- `class Box<T> { T item; Box<int> inner; void Run() { inner.item; } }` -/
def nestedBox : Tree :=
  firstRowTree "compilation_unit" none 0
    "class Box<T> \x7b T item; Box<int> inner; void Run() \x7b inner.item; \x7d \x7d"
    [firstRowTree "class_declaration" none 0
      "class Box<T> \x7b T item; Box<int> inner; void Run() \x7b inner.item; \x7d \x7d"
      [firstRowTree "identifier" (some "name") 6 "Box" [],
        firstRowTree "type_parameter_list" none 9 "<T>"
          [firstRowTree "type_parameter" none 10 "T"
            [firstRowTree "identifier" (some "name") 10 "T" []]],
        firstRowTree "declaration_list" (some "body") 13
          "\x7b T item; Box<int> inner; void Run() \x7b inner.item; \x7d \x7d"
          [firstRowTree "field_declaration" none 15 "T item;"
            [firstRowTree "variable_declaration" none 15 "T item"
              [firstRowTree "identifier" (some "type") 15 "T" [],
                firstRowTree "variable_declarator" none 17 "item"
                  [firstRowTree "identifier" (some "name") 17 "item" []]]],
            innerBoxField,
            firstRowTree "method_declaration" none 39 "void Run() \x7b inner.item; \x7d"
              [firstRowTree "predefined_type" (some "returns") 39 "void" [],
                firstRowTree "identifier" (some "name") 44 "Run" [],
                firstRowTree "parameter_list" (some "parameters") 47 "()" [],
                firstRowTree "block" (some "body") 50 "\x7b inner.item; \x7d"
                  [firstRowTree "expression_statement" none 52 "inner.item;"
                    [firstRowTree "member_access_expression" none 52 "inner.item"
                      [firstRowTree "identifier" (some "expression") 52 "inner" [],
                        firstRowTree "identifier" (some "name") 58 "item" []]]]]]]]

def nestedBoxNode (kind : String) : Node :=
  ((Node.root nestedBox).subtree.find? fun n => n.kind == kind).getD (.root nestedBox)

def nestedBoxScope : Scope :=
  (Model.ofTree nestedBox).scopeAfter (nestedBoxNode "method_declaration") 0

def intType : TypeRef := .ofCore ⟨"System", "Int32", some "int"⟩

/-- `inner.item` has the declared type of `item` with the type argument of `inner` in it. -/
theorem nestedBox_item :
    (Model.ofTree nestedBox).memberType? 0 "item" = some (.param "T") ∧
      (Model.ofTree nestedBox).typeOf? nestedBoxScope (nestedBoxNode "member_access_expression") =
        some intType ∧
      intType.WellFormed (Model.ofTree nestedBox).table ∧
      ∃ s, (Model.ofTree nestedBox).table.get? 0 = some s ∧
        (TypeRef.param "T").replace (fun name => (s.typeParameters.zip [intType]).lookup name) =
          intType := by
  have declared : (Model.ofTree nestedBox).memberType? 0 "item" = some (.param "T") := by
    decide +kernel
  have receiver : (Model.ofTree nestedBox).typeOfReceiver? nestedBoxScope
      (nestedBoxNode "member_access_expression") = some (.declared 0 [intType]) := by
    decide +kernel
  have known : (Model.ofTree nestedBox).typeOf? nestedBoxScope
      (nestedBoxNode "member_access_expression") = some intType := by
    decide +kernel
  have through : (Model.ofTree nestedBox).throughReceiver? (some (.declared 0 [intType]))
      (fun id => (Model.ofTree nestedBox).memberType? id "item") = some intType := by
    decide +kernel
  obtain ⟨wellFormed, -, -, -, law⟩ := Model.produced_wellFormed nestedBox
  obtain ⟨s, there, -, replaced, -⟩ := law _ 0 _ _ _ receiver
  have seen := replaced fun id => (Model.ofTree nestedBox).memberType? id "item"
  rw [← nestedBoxScope, receiver, through, declared, Option.map_some, Option.some.injEq] at seen
  exact ⟨declared, known, wellFormed _ (.expression known), s, there, seen.symm⟩

end ClassAtlas
