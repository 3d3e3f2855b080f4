import ClassAtlas.Model.Locals
import ClassAtlas.Proofs.Types.Binding

/-!
# Inferred types are well formed

What is inferred for an expression is well formed if the variables in scope have well-formed types,
and the variables that a body declares have such types, each in the scope left by those before it.
-/
namespace ClassAtlas

/-- The known types of the variables in scope are well formed. -/
def Scope.WellFormed (table : SymbolTable) (scope : Scope) : Prop :=
  ∀ v ∈ scope, v.2.WellFormed table

theorem Scope.WellFormed.lookup {table : SymbolTable} {scope : Scope} (wf : scope.WellFormed table)
    {name : String} {t : TypeRef} (found : scope.lookup name = some t) : t.WellFormed table := by
  obtain ⟨before, after, split, -⟩ := List.lookup_eq_some_iff.mp found
  refine wf (name, t) ?_
  rw [split]
  exact List.mem_append_right _ List.mem_cons_self

theorem Scope.extend_append (scope : Scope) (locals more : List LocalVariable) :
    scope.extend (locals ++ more) = (scope.extend locals).extend more :=
  List.foldl_append

theorem Scope.WellFormed.extend {table : SymbolTable} {scope : Scope}
    (wf : scope.WellFormed table) {locals : List LocalVariable}
    (each : ∀ v ∈ locals, ∀ t, v.type? = some t → t.WellFormed table) :
    (scope.extend locals).WellFormed table := by
  induction locals generalizing scope with
  | nil => exact wf
  | cons v rest ih =>
    rw [List.forall_mem_cons] at each
    refine ih ?_ each.2
    dsimp only
    split
    · exact wf
    next type known => exact List.forall_mem_cons.mpr ⟨each.1 type known, wf⟩

namespace Model

open TypeRef

variable {m : Model} {scope : Scope}

/-! ### Expressions -/

theorem wellFormed_selfType? {id : TypeId} {t : TypeRef} (found : m.selfType? id = some t) :
    t.WellFormed m.table := by
  obtain ⟨s, there, rfl⟩ := Option.map_eq_some_iff.mp found
  refine wellFormed_iff.mpr ⟨⟨s, there, List.length_map _⟩, ?_⟩
  exact List.forall_mem_map.mpr fun name _ => wellFormed_param name

theorem wellFormed_throughReceiver {receiver? : Option TypeRef} {has? : TypeId → Option TypeRef}
    (receiver : ∀ r, receiver? = some r → r.WellFormed m.table)
    (has : ∀ id t, has? id = some t → t.WellFormed m.table) {t : TypeRef}
    (found : m.throughReceiver? receiver? has? = some t) : t.WellFormed m.table := by
  unfold throughReceiver? at found
  split at found
  next id args =>
    obtain ⟨type, member, found⟩ := Option.bind_eq_some_iff.mp found
    obtain ⟨s, -, rfl⟩ := Option.map_eq_some_iff.mp found
    exact (has id type member).substitute _ fun a part => (receiver _ rfl).parts part
  next => cases found

section

variable {n : Node}
  (smaller : ∀ c : Node, c.size < n.size → ∀ t, m.typeOf? scope c = some t → t.WellFormed m.table)
include smaller

theorem typeOfOperand_of_smaller {t : TypeRef} (found : m.typeOfOperand? scope n = some t) :
    t.WellFormed m.table := by
  rw [typeOfOperand?] at found
  split at found
  · cases found
  next operand first => exact smaller operand (Node.size_lt_of_operand? first) t found

theorem typeOfField_of_smaller {field : String} {t : TypeRef}
    (found : m.typeOfField? scope n field = some t) : t.WellFormed m.table := by
  rw [typeOfField?] at found
  split at found
  · cases found
  next part child => exact smaller part (Node.size_lt_of_child? child) t found

theorem typeOfReceiver_of_smaller {t : TypeRef} (found : m.typeOfReceiver? scope n = some t) :
    t.WellFormed m.table := by
  rw [typeOfReceiver?] at found
  split at found
  · cases found
  next receiver child =>
    rcases Option.or_eq_some_iff.mp found with value | ⟨-, named⟩
    · exact smaller receiver (Node.size_lt_of_child? child) t value
    · exact wellFormed_named? named

theorem typeOf_of_smaller (wf : scope.WellFormed m.table) {t : TypeRef}
    (found : m.typeOf? scope n = some t) : t.WellFormed m.table := by
  rw [typeOf?] at found
  -- One case for each kind of expression, in the order of the definition.
  split at found
  case h_1 | h_2 | h_3 => exact wellFormed_writtenType? found
  case h_4 | h_5 =>
    obtain ⟨type, -, bound⟩ := Option.bind_eq_some_iff.mp found
    exact wellFormed_resolve? bound
  case h_6 | h_7 => exact typeOfOperand_of_smaller smaller found
  case h_8 =>
    split at found
    · exact typeOfOperand_of_smaller smaller found
    · cases found
  case h_9 =>
    rcases Option.or_eq_some_iff.mp found with first | ⟨-, second⟩
    · exact typeOfField_of_smaller smaller first
    · exact typeOfField_of_smaller smaller second
  case h_10 =>
    rcases Option.or_eq_some_iff.mp found with known | ⟨-, inherited⟩
    · exact wf.lookup known
    · obtain ⟨owner, -, member⟩ := Option.bind_eq_some_iff.mp inherited
      exact wellFormed_memberType? member
  case h_11 | h_12 =>
    obtain ⟨owner, -, self⟩ := Option.bind_eq_some_iff.mp found
    exact wellFormed_selfType? self
  case h_13 =>
    obtain ⟨name, -, found⟩ := Option.bind_eq_some_iff.mp found
    exact wellFormed_throughReceiver (fun r => typeOfReceiver_of_smaller smaller)
      (fun id t => wellFormed_memberType?) found
  case h_14 =>
    split at found
    · cases found
    next function child =>
      have below := Node.size_lt_of_child? child
      have inner (c : Node) (inside : c.size < function.size) :=
        smaller c (Nat.lt_trans inside below)
      split at found
      case h_1 | h_2 =>
        obtain ⟨name, -, found⟩ := Option.bind_eq_some_iff.mp found
        obtain ⟨owner, -, returned⟩ := Option.bind_eq_some_iff.mp found
        exact wellFormed_methodReturnType? returned
      case h_3 =>
        obtain ⟨name, -, found⟩ := Option.bind_eq_some_iff.mp found
        exact wellFormed_throughReceiver (fun r => typeOfReceiver_of_smaller inner)
          (fun id t => wellFormed_methodReturnType?) found
      case h_4 => cases found
  case h_15 =>
    obtain ⟨task, known, found⟩ := Option.bind_eq_some_iff.mp found
    exact (typeOfOperand_of_smaller smaller known).awaited found
  case h_16 =>
    obtain ⟨collection, known, found⟩ := Option.bind_eq_some_iff.mp found
    exact (typeOfField_of_smaller smaller known).indexed found
  case h_17 | h_18 | h_19 | h_20 | h_21 | h_22 | h_23 | h_24 => exact wellFormed_predefined found
  case h_25 =>
    obtain ⟨type, known, rfl⟩ := Option.map_eq_some_iff.mp found
    exact wellFormed_core known (List.forall_mem_nil _)
  case h_26 => cases found

end

theorem wellFormed_typeOf? (wf : scope.WellFormed m.table) {n : Node} {t : TypeRef}
    (found : m.typeOf? scope n = some t) : t.WellFormed m.table := by
  -- The type of an expression depends on the types of expressions below it.
  induction bound : n.size using Nat.strongRecOn generalizing n t with
  | ind size ih =>
    subst bound
    exact typeOf_of_smaller (fun c below t known => ih c.size below known rfl) wf found

theorem wellFormed_typeOfReceiver? (wf : scope.WellFormed m.table) {n : Node} {t : TypeRef}
    (found : m.typeOfReceiver? scope n = some t) : t.WellFormed m.table :=
  typeOfReceiver_of_smaller (fun _ _ _ => wellFormed_typeOf? wf) found

/-! ### Local variables -/

/-- A type that is written, or inferred from a value or a collection in the given scope. -/
inductive Inferred (m : Model) (scope : Scope) : TypeRef → Prop
  | written {n : Node} {t : TypeRef} : m.resolve? n = some t → Inferred m scope t
  | value {n : Node} {t : TypeRef} : m.typeOf? scope n = some t → Inferred m scope t
  | element {n : Node} {t e : TypeRef} : m.typeOf? scope n = some t → t.element? = some e →
      Inferred m scope e

/-- The types of the variables are inferred, each in the scope left by the variables before it. -/
inductive DeclaredIn (m : Model) : Scope → List LocalVariable → Prop
  | nil (scope : Scope) : DeclaredIn m scope []
  | cons {scope : Scope} {v : LocalVariable} {rest : List LocalVariable} :
      (∀ t, v.type? = some t → m.Inferred scope t) → DeclaredIn m (scope.extend [v]) rest →
      DeclaredIn m scope (v :: rest)

theorem Inferred.wellFormed {t : TypeRef} (inferred : m.Inferred scope t)
    (wf : scope.WellFormed m.table) : t.WellFormed m.table := by
  cases inferred with
  | written bound => exact wellFormed_resolve? bound
  | value known => exact wellFormed_typeOf? wf known
  | element known inner => exact (wellFormed_typeOf? wf known).element inner

namespace DeclaredIn

variable {locals more : List LocalVariable}

theorem single {v : LocalVariable} (inferred : ∀ t, v.type? = some t → m.Inferred scope t) :
    DeclaredIn m scope [v] :=
  .cons inferred (.nil _)

theorem append (first : DeclaredIn m scope locals)
    (later : DeclaredIn m (scope.extend locals) more) : DeclaredIn m scope (locals ++ more) := by
  induction first with
  | nil => exact later
  | cons inferred _ ih => exact .cons inferred (ih later)

theorem wellFormed (declared : DeclaredIn m scope locals) (wf : scope.WellFormed m.table) :
    ∀ v ∈ locals, ∀ t, v.type? = some t → t.WellFormed m.table := by
  induction declared with
  | nil => exact nofun
  | cons inferred _ ih =>
    have own := fun t known => (inferred t known).wellFormed wf
    exact List.forall_mem_cons.mpr ⟨own, ih (wf.extend (List.forall_mem_singleton.mpr own))⟩

theorem inferred_at (declared : DeclaredIn m scope locals) {count : Nat} {v : LocalVariable}
    (here : locals[count]? = some v) {t : TypeRef} (known : v.type? = some t) :
    m.Inferred (scope.extend (locals.take count)) t := by
  induction declared generalizing count with
  | nil => cases here
  | @cons scope first rest inferred _ ih =>
    cases count with
    | zero =>
      cases here
      exact inferred t known
    | succ count =>
      rw [List.take_succ_cons, ← List.singleton_append, Scope.extend_append]
      exact ih here

end DeclaredIn

theorem declaredIn_declaratorLocals (type? : Option Node) (scope : Scope) (ds : List Node) :
    DeclaredIn m scope (m.declaratorLocals type? scope ds) := by
  induction ds generalizing scope with
  | nil => exact .nil scope
  | cons d rest ih =>
    unfold declaratorLocals
    split
    · exact ih scope
    · refine .cons (fun t known => ?_) (ih _)
      dsimp only at known
      split at known
      · exact .written known
      · obtain ⟨value, -, known⟩ := Option.bind_eq_some_iff.mp known
        exact .value known

theorem inferred_loopVariableType {n : Node} {t : TypeRef}
    (known : m.loopVariableType? scope n = some t) : m.Inferred scope t := by
  unfold loopVariableType? at known
  split at known
  · exact .written known
  · obtain ⟨collection, known, inner⟩ := Option.bind_eq_some_iff.mp known
    obtain ⟨right, -, known⟩ := Option.bind_eq_some_iff.mp known
    exact .element known inner

theorem declaredIn_localsAt (scope : Scope) (n : Node) :
    DeclaredIn m scope (m.localsAt scope n) := by
  unfold localsAt
  split
  case h_1 => exact declaredIn_declaratorLocals _ scope _
  case h_2 =>
    cases n.loopVariable? with
    | none => exact .nil scope
    | some v => exact .single fun t => inferred_loopVariableType
  case h_3 | h_4 | h_5 =>
    cases n.designatedName? with
    | none => exact .nil scope
    | some name =>
      refine .single fun t known => ?_
      obtain ⟨type, -, bound⟩ := Option.bind_eq_some_iff.mp known
      exact .written bound
  case h_6 => exact .nil scope

theorem declaredIn_localsAlong (scope : Scope) (nodes : List Node) :
    DeclaredIn m scope (m.localsAlong scope nodes) := by
  induction nodes generalizing scope with
  | nil => exact .nil scope
  | cons n rest ih => exact (declaredIn_localsAt scope n).append (ih _)

/-- The scope in a member after its parameters and its first local variables. -/
def scopeAfter (m : Model) (member : Node) (count : Nat) : Scope :=
  (Scope.extend [] (m.parameterLocals member)).extend ((m.declaredLocals member).take count)

theorem wellFormed_parameters (member : Node) :
    (Scope.extend [] (m.parameterLocals member)).WellFormed m.table := by
  have empty : Scope.WellFormed m.table [] := List.forall_mem_nil _
  refine empty.extend fun v listed t known => ?_
  obtain ⟨p, -, made⟩ := List.mem_filterMap.mp listed
  obtain ⟨name, -, rfl⟩ := Option.map_eq_some_iff.mp made
  exact wellFormed_writtenType? known

theorem declaredIn_declaredLocals (member : Node) :
    DeclaredIn m (Scope.extend [] (m.parameterLocals member)) (m.declaredLocals member) := by
  unfold declaredLocals
  split
  · exact .nil _
  · exact declaredIn_localsAlong _ _

theorem wellFormed_declaredLocals (member : Node) :
    ∀ v ∈ m.declaredLocals member, ∀ t, v.type? = some t → t.WellFormed m.table :=
  (declaredIn_declaredLocals member).wellFormed (wellFormed_parameters member)

theorem wellFormed_scopeAfter (member : Node) (count : Nat) :
    (m.scopeAfter member count).WellFormed m.table := by
  refine (wellFormed_parameters member).extend fun v listed => ?_
  exact wellFormed_declaredLocals member v (List.mem_of_mem_take listed)

end Model

end ClassAtlas
