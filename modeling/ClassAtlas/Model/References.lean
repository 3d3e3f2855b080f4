import ClassAtlas.Model.Hierarchy
import ClassAtlas.Layout.Normal

/-!
# Referenced types

The source types that can be reached from a type reference, with their normalized declarations, in
the order of discovery. A type is recorded before its members are searched, and a recorded type is
not searched again; so the search ends also when types refer to each other in circles. Whether a
type is recorded is decided by its full name.
-/
namespace ClassAtlas

/-- Full names of types with their normalized declarations, in the order of discovery. -/
abbrev Definitions := List (String × String)

/-- A pending step of the search. -/
inductive Visit where
  | type (id : TypeId)
  | reference (type : TypeRef)
  deriving Repr

namespace Node

/-- The written types of the properties, the fields and the constructor parameters of a
declaration, in this order. The parameters of a primary constructor come first. -/
def memberTypeNodes (declaration : Node) : List Node :=
  let ofKind (kinds : List String) := declaration.members.filter fun m => kinds.contains m.kind
  (ofKind ["property_declaration"]).filterMap Node.writtenType? ++
    ((ofKind ["field_declaration", "event_field_declaration"]).filterMap fun m =>
      m.childOfKind? ["variable_declaration"]).filterMap Node.writtenType? ++
    ((declaration :: ofKind ["constructor_declaration"]).flatMap parameters).filterMap
      Node.writtenType?

end Node

/-- The references directly inside a reference that lead to further types. What a nullable
annotation is attached to is the type itself, not a part of it. -/
def TypeRef.components (table : SymbolTable) (t : TypeRef) : List TypeRef :=
  match t with
  | .declared _ args | .core _ args | .external _ args => args
  | .nullable inner => if (t.inSource? table).isNone then [inner] else []
  | .array element _ => [element]
  | .tuple elements => elements.map TupleElement.type
  | .pointer target => [target]
  | .param _ | .dynamic => []

/-- A bound for the number of steps that a pending step leads to within its reference: each part of
a reference is one step, and each may lead to a type. -/
def Visit.weight : Visit → Nat
  | type _ => 1
  | reference t => 2 * t.size

/-- The parts of a reference have together one reference less than the whole. -/
theorem TypeRef.totalOf_size_components_lt (table : SymbolTable) (t : TypeRef) :
    totalOf size (t.components table) < t.size := by
  cases t with
  | declared id args => simp [components, size, totalOf_size]
  | core type args => simp [components, size, totalOf_size]
  | external name args => simp [components, size, totalOf_size]
  | param name => simp [components, size]
  | nullable inner => simp only [components, size]; split <;> simp
  | array element rank => simp [components, size]
  | tuple elements =>
    simp only [components, size, totalOf_map, totalOf_size_elements]
    omega
  | pointer target => simp [components, size]
  | dynamic => simp [components, size]

theorem TypeRef.totalOf_double_size (types : List TypeRef) :
    totalOf (fun t => 2 * t.size) types = 2 * totalOf size types := by
  induction types with
  | nil => rfl
  | cons t rest ih => simp only [totalOf_cons, ih]; omega

/-- What to visit for a reference: the source type it stands for, then, if type arguments are
followed, its parts. -/
def TypeRef.visits (table : SymbolTable) (follow : Bool) (t : TypeRef) : List Visit :=
  (t.inSource? table).toList.map .type ++
    if follow then (t.components table).map .reference else []

theorem TypeRef.totalOf_weight_visits_lt (table : SymbolTable) (follow : Bool) (t : TypeRef) :
    totalOf Visit.weight (t.visits table follow) < (Visit.reference t).weight := by
  have parts := t.totalOf_size_components_lt table
  have source : totalOf (fun _ => 1) (t.inSource? table).toList ≤ 1 := by
    cases t.inSource? table <;> simp
  have doubled := totalOf_double_size (t.components table)
  cases follow
  · simp only [visits, Bool.false_eq_true, ↓reduceIte, List.append_nil, totalOf_map, Visit.weight]
    omega
  · simp only [visits, ↓reduceIte, totalOf_append, totalOf_map, Visit.weight]
    omega

namespace Model

/-- What the written types of the members of one declaration denote. -/
def memberTypes (m : Model) (declaration : Node) : List TypeRef :=
  declaration.memberTypeNodes.filterMap m.resolve?

/-- The references that lead on from a type: those of the members of its first declaration, then its
base types. An enumeration or delegate leads nowhere. -/
def referencesOf (m : Model) (id : TypeId) (s : TypeSymbol) : List TypeRef :=
  if Node.memberContainerKinds.contains s.primary.kind then
    m.memberTypes s.primary ++ m.baseTypes id
  else []

/-- A full name is recorded. -/
def isRecorded (definitions : Definitions) (name : String) : Bool :=
  (definitions.map Prod.fst).contains name

/-- The number of types whose full names are not recorded. -/
def unrecorded (m : Model) (definitions : Definitions) : Nat :=
  (List.range m.table.size).countP fun id => !isRecorded definitions (m.table.displayName id)

theorem unrecorded_append_lt (m : Model) {definitions : Definitions} {id : TypeId} {text : String}
    (known : id < m.table.size)
    (fresh : isRecorded definitions (m.table.displayName id) = false) :
    m.unrecorded (definitions ++ [(m.table.displayName id, text)]) < m.unrecorded definitions := by
  apply countP_lt_countP (List.mem_range.2 known)
  · intro other absent
    simp [isRecorded] at absent ⊢
    grind
  · simp [isRecorded]
  · simp [fresh]

/-- Works off the pending steps and records the source types they lead to. -/
def collect (m : Model) (options : LayoutOptions) (follow : Bool) (pending : List Visit)
    (definitions : Definitions) : Definitions :=
  match pending with
  | [] => definitions
  | .reference t :: rest =>
    m.collect options follow (t.visits m.table follow ++ rest) definitions
  | .type id :: rest =>
    match _known : m.table.get? id with
    | none => m.collect options follow rest definitions
    | some s =>
      if _old : isRecorded definitions (m.table.displayName id) then
        m.collect options follow rest definitions
      else
        m.collect options follow ((m.referencesOf id s).map .reference ++ rest)
          (definitions ++ [(m.table.displayName id, s.primary.normalizedWithComments options)])
termination_by (m.unrecorded definitions, totalOf Visit.weight pending)
decreasing_by
  · apply Prod.Lex.right
    have := t.totalOf_weight_visits_lt m.table follow
    simp
    omega
  · apply Prod.Lex.right
    simp [Visit.weight]
  · apply Prod.Lex.right
    simp [Visit.weight]
  · apply Prod.Lex.left
    have known : id < m.table.size := by
      have := List.getElem?_eq_some_iff.1 _known
      exact this.1
    exact m.unrecorded_append_lt known (by simpa using _old)

/-- The definitions after a reference has been visited. -/
def visit (m : Model) (options : LayoutOptions) (follow : Bool) (t : TypeRef)
    (definitions : Definitions) : Definitions :=
  m.collect options follow [.reference t] definitions

end Model

end ClassAtlas
