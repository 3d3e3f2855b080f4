import ClassAtlas.Model.Binding
import ClassAtlas.Count

/-!
# Type hierarchy

The base types of a type, the chain of its base classes within the source, and the lookup of members
along that chain: the nearest type that has a member decides, and within a type its first one. A
chain that runs into a cycle ends there.
-/
namespace ClassAtlas

/-- The declared facts about a method. -/
structure MethodSymbol where
  name : String
  returnType? : Option TypeRef
  isPublic : Bool
  isStatic : Bool
  isAbstract : Bool
  isAsync : Bool
  deriving DecidableEq, Repr

namespace Node

/-- The type nodes of the base list of a declaration. -/
def baseTypeNodes (declaration : Node) : List Node :=
  (((declaration.childOfKind? ["base_list"]).map namedChildren).getD []).filterMap fun entry =>
    match entry.kind with
    | "argument_list" => none
    | "primary_constructor_base_type" => entry.innerType?
    | _ => some entry

/-- The variable declaration of a field or event, when it declares the given name. -/
def fieldDeclaration? (member : Node) (name : String) : Option Node :=
  (member.childOfKind? ["variable_declaration"]).filter fun declaration =>
    declaration.namedChildren.any fun d => d.kind == "variable_declarator" && d.name? == some name

end Node

namespace Model

/-- The types in the base lists of all declarations of a type, each once, in source order. -/
def baseTypes (m : Model) (id : TypeId) : List TypeRef :=
  match m.table.get? id with
  | none => []
  | some s => ((s.declarations.flatMap Node.baseTypeNodes).filterMap m.resolve?).eraseDups

/-- The class of the source that a type inherits from. -/
def baseClass? (m : Model) (id : TypeId) : Option TypeId :=
  (m.baseTypes id).findSome? fun
    | .declared base _ =>
      if (m.table.get? base).any fun s => s.kind.isInheritable then some base else none
    | _ => none

/-- The using directives of the file as a whole, as written. -/
def writtenUsings (m : Model) : List String :=
  (m.root.namedChildren.filter fun n => n.kind == "using_directive").map Node.trimmedText

/-- The number of types not yet seen. -/
def unseen (m : Model) (seen : List TypeId) : Nat :=
  (List.range m.table.size).countP fun id => !seen.contains id

theorem unseen_cons_lt (m : Model) {id : TypeId} {seen : List TypeId} (known : id < m.table.size)
    (fresh : id ∉ seen) : m.unseen (id :: seen) < m.unseen seen := by
  apply countP_lt_countP (List.mem_range.2 known)
  · simp
  · simp
  · simpa using fresh

/-- A type and its base classes as far as they have not been seen, nearest first. -/
def baseChainFrom (m : Model) (seen : List TypeId) (id : TypeId) : List TypeId :=
  if _fresh : id < m.table.size ∧ id ∉ seen then
    id ::
      match m.baseClass? id with
      | none => []
      | some base => m.baseChainFrom (id :: seen) base
  else []
termination_by m.unseen seen
decreasing_by exact m.unseen_cons_lt _fresh.1 _fresh.2

/-- A type and its base classes, nearest first, up to the first repetition. -/
def baseChain (m : Model) (id : TypeId) : List TypeId := m.baseChainFrom [] id

/-- The members of a type and of its base classes, nearest first. -/
def inheritedMembers (m : Model) (id : TypeId) : List Node :=
  (m.baseChain id).flatMap fun base =>
    ((m.table.get? base).map fun s => s.declarations.flatMap Node.members).getD []

/-- The type of the property, field or event of a given name, when the member declares one. -/
def valueType? (m : Model) (name : String) (member : Node) : Option TypeRef :=
  match member.kind with
  | "property_declaration" => if member.name? == some name then m.writtenType? member else none
  | "field_declaration" | "event_field_declaration" =>
    (member.fieldDeclaration? name).bind m.writtenType?
  | _ => none

/-- The type of a property, field or event of a type or its base classes. -/
def memberType? (m : Model) (id : TypeId) (name : String) : Option TypeRef :=
  (m.inheritedMembers id).findSome? (m.valueType? name)

/-- The facts about a method; a node of another kind and a method without a name have none. In an
interface a method without a body is abstract. -/
def methodSymbol? (m : Model) (n : Node) : Option MethodSymbol :=
  if n.kind == "method_declaration" then
    n.name?.map fun name =>
      let inInterface := (m.enclosingType? n).any fun id =>
        (m.table.get? id).any fun s => s.kind == .interfaceType
      { name
        returnType? := n.writtenReturnType?.bind m.resolve?
        isPublic := n.hasModifier "public"
        isStatic := n.hasModifier "static"
        isAbstract := n.hasModifier "abstract" || (inInterface && n.memberBody?.isNone)
        isAsync := n.hasModifier "async" }
  else none

/-- The return type of a method of a type or its base classes. -/
def methodReturnType? (m : Model) (id : TypeId) (name : String) : Option TypeRef :=
  (m.inheritedMembers id).findSome? fun member =>
    (m.methodSymbol? member).bind fun method =>
      if method.name == name then method.returnType? else none

end Model

end ClassAtlas
