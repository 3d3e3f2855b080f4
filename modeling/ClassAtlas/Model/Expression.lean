import ClassAtlas.Model.Hierarchy

/-!
# Types of expressions

The static type of an expression as far as it shows without overload resolution: literals,
creations, casts, variables, members of source types, awaited tasks and elements of collections. An
expression of any other form has no known type.
-/
namespace ClassAtlas

/-- The variables with known types at a place, the most recent first. -/
abbrev Scope := List (String × TypeRef)

namespace TypeRef

/-- The last part of the name of a core or unknown type. -/
def simpleName? : TypeRef → Option String
  | core type _ => some type.name
  | external name _ => some (Text.lastPart '.' name)
  | _ => none

/-- `T` of `Task<T>` and `ValueTask<T>`. -/
def awaited? (t : TypeRef) : Option TypeRef :=
  match t.typeArguments with
  | [inner] => if t.simpleName?.any ["Task", "ValueTask"].contains then some inner else none
  | _ => none

/-- A dictionary type, by its name. -/
def isDictionary (t : TypeRef) : Bool :=
  t.simpleName?.any ["Dictionary", "IDictionary", "IReadOnlyDictionary", "SortedDictionary",
    "SortedList"].contains

/-- The type of the elements of a collection, as a `foreach` loop sees them. -/
def element? (t : TypeRef) : Option TypeRef :=
  match t with
  | array element _ => some element
  | _ =>
    if t.isCore "System" "String" then predefined? "char"
    else
      match t.typeArguments with
      | [single] => some single
      | [key, value] =>
        if t.isDictionary then
          (CoreType.lookup? "System.Collections.Generic" "KeyValuePair" 2).map fun type =>
            core type [key, value]
        else none
      | _ => none

/-- The type of `value[index]`. -/
def indexed? (t : TypeRef) : Option TypeRef :=
  match t with
  | array element _ => some element
  | _ =>
    match t.typeArguments with
    | [single] => some single
    | [_, value] => if t.isDictionary then some value else none
    | _ => none

end TypeRef

namespace Node

/-- The name by which a member is used. -/
def usedName? (n : Node) : Option String :=
  match n.kind with
  | "identifier" => some n.trimmedText
  | "generic_name" => (n.childOrKind? "name" ["identifier"]).map trimmedText
  | _ => none

/-- The first named child, the operand of most unary expressions. -/
def operand? (n : Node) : Option Node := n.namedChildren.head?

/-- The type on the right of `as`. -/
def asType? (n : Node) : Option Node := (n.child? "right").or n.namedChildren.getLast?

/-- The expression is asserted not to be null. -/
def assertsNotNull (n : Node) : Bool := Text.endsWith "!" (Text.trimEnd n.text)

theorem size_lt_of_operand? {n c : Node} (found : n.operand? = some c) : c.size < n.size :=
  size_lt_of_mem_namedChildren (List.mem_of_head? found)

end Node

namespace Model

/-- A type as its own declaration sees it. -/
def selfType? (m : Model) (id : TypeId) : Option TypeRef :=
  (m.table.get? id).map fun s => .declared id (s.typeParameters.map .param)

/-- The type of something that a receiver of a source type has, as the receiver sees it. -/
def throughReceiver? (m : Model) (receiver? : Option TypeRef) (has? : TypeId → Option TypeRef) :
    Option TypeRef :=
  match receiver? with
  | some (.declared id args) =>
    (has? id).bind fun type =>
      (m.table.get? id).map fun s => type.substitute s.typeParameters args
  | _ => none

mutual

/-- The static type of an expression. -/
def typeOf? (m : Model) (scope : Scope) (n : Node) : Option TypeRef :=
  match n.kind with
  | "object_creation_expression" | "array_creation_expression" | "cast_expression" =>
    m.writtenType? n
  | "as_expression" => n.asType?.bind m.resolve?
  | "default_expression" => n.innerType?.bind m.resolve?
  | "parenthesized_expression" | "checked_expression" => m.typeOfOperand? scope n
  | "postfix_unary_expression" => if n.assertsNotNull then m.typeOfOperand? scope n else none
  | "conditional_expression" =>
    (m.typeOfField? scope n "consequence").or (m.typeOfField? scope n "alternative")
  | "identifier" =>
    (scope.lookup n.trimmedText).or
      ((m.enclosingType? n).bind fun owner => m.memberType? owner n.trimmedText)
  | "this_expression" | "this" => (m.enclosingType? n).bind m.selfType?
  | "member_access_expression" =>
    ((n.child? "name").bind Node.usedName?).bind fun name =>
      m.throughReceiver? (m.typeOfReceiver? scope n) fun id => m.memberType? id name
  | "invocation_expression" =>
    match _found : n.child? "function" with
    | none => none
    | some function =>
      match function.kind with
      | "identifier" | "generic_name" =>
        function.usedName?.bind fun name =>
          (m.enclosingType? n).bind fun owner => m.methodReturnType? owner name
      | "member_access_expression" =>
        have := Node.size_lt_of_child? _found
        ((function.child? "name").bind Node.usedName?).bind fun name =>
          m.throughReceiver? (m.typeOfReceiver? scope function) fun id =>
            m.methodReturnType? id name
      | _ => none
  | "await_expression" => (m.typeOfOperand? scope n).bind TypeRef.awaited?
  | "element_access_expression" => (m.typeOfField? scope n "expression").bind TypeRef.indexed?
  | "string_literal" | "verbatim_string_literal" | "raw_string_literal"
  | "interpolated_string_expression" => TypeRef.predefined? "string"
  | "integer_literal" => TypeRef.predefined? "int"
  | "real_literal" => TypeRef.predefined? "double"
  | "boolean_literal" => TypeRef.predefined? "bool"
  | "character_literal" => TypeRef.predefined? "char"
  | "typeof_expression" => (CoreType.lookup? "System" "Type" 0).map .ofCore
  | _ => none
termination_by 2 * n.size + 1

/-- The type of the first named child. -/
def typeOfOperand? (m : Model) (scope : Scope) (n : Node) : Option TypeRef :=
  match _found : n.operand? with
  | none => none
  | some operand =>
    have := Node.size_lt_of_operand? _found
    m.typeOf? scope operand
termination_by 2 * n.size

/-- The type of the child of a field. -/
def typeOfField? (m : Model) (scope : Scope) (n : Node) (field : String) : Option TypeRef :=
  match _found : n.child? field with
  | none => none
  | some part =>
    have := Node.size_lt_of_child? _found
    m.typeOf? scope part
termination_by 2 * n.size

/-- The type of the receiver of a member access: that of a value, or else the type it names. -/
def typeOfReceiver? (m : Model) (scope : Scope) (n : Node) : Option TypeRef :=
  match _found : n.child? "expression" with
  | none => none
  | some receiver =>
    have := Node.size_lt_of_child? _found
    (m.typeOf? scope receiver).or (m.named? receiver)
termination_by 2 * n.size

end

end Model

end ClassAtlas
