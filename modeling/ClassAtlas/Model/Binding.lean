import ClassAtlas.Model.Names

/-!
# Binding

What type syntax denotes. Names that bind to nothing stay external; `var` and nodes that are no
types denote nothing. Binding descends into ever smaller parts of the syntax.
-/
namespace ClassAtlas

namespace Node

/-- The type that a type is built from: the child of the type field or else the first named child.
-/
def innerType? (n : Node) : Option Node := n.writtenType?.or n.namedChildren.head?

/-- The type after the keyword of a `ref` or `scoped` type. -/
def modifiedType? (n : Node) : Option Node := n.writtenType?.or n.namedChildren.getLast?

/-- The part of a qualified name before its last dot. -/
def qualifier? (n : Node) : Option Node := (n.child? "qualifier").or n.namedChildren.head?

/-- The part of a qualified name after its last dot. -/
def unqualified? (n : Node) : Option Node := (n.child? "name").or n.namedChildren.getLast?

/-- The written type arguments of a generic name. -/
def typeArgumentNodes (n : Node) : List Node :=
  ((n.childOfKind? ["type_argument_list"]).map namedChildren).getD []

/-- The elements of a tuple type. -/
def tupleElementNodes (n : Node) : List Node :=
  n.namedChildren.filter fun c => c.kind == "tuple_element"

/-- The number of dimensions of an array type: one more than the commas in its rank specifier. -/
def arrayRank (n : Node) : Nat :=
  match n.childOrKind? "rank" ["array_rank_specifier"] with
  | none => 1
  | some rank => rank.text.toList.count ',' + 1

theorem size_lt_of_field_or_named {n c : Node} {field : String} {other? : Option Node}
    (named : ∀ d, other? = some d → d ∈ n.namedChildren)
    (found : (n.child? field).or other? = some c) : c.size < n.size := by
  rcases Option.or_eq_some_iff.1 found with known | ⟨_, known⟩
  · exact size_lt_of_child? known
  · exact size_lt_of_mem_namedChildren (named c known)

theorem size_lt_of_innerType? {n c : Node} (found : n.innerType? = some c) : c.size < n.size :=
  size_lt_of_field_or_named (fun _ => List.mem_of_head?) found

theorem size_lt_of_modifiedType? {n c : Node} (found : n.modifiedType? = some c) :
    c.size < n.size := size_lt_of_field_or_named (fun _ => List.mem_of_getLast?) found

theorem size_lt_of_qualifier? {n c : Node} (found : n.qualifier? = some c) : c.size < n.size :=
  size_lt_of_field_or_named (fun _ => List.mem_of_head?) found

theorem size_lt_of_unqualified? {n c : Node} (found : n.unqualified? = some c) : c.size < n.size :=
  size_lt_of_field_or_named (fun _ => List.mem_of_getLast?) found

theorem size_lt_of_mem_typeArgumentNodes {n c : Node} (member : c ∈ n.typeArgumentNodes) :
    c.size < n.size := by
  unfold typeArgumentNodes at member
  cases found : n.childOfKind? ["type_argument_list"] with
  | none => simp [found] at member
  | some list =>
    simp only [found, Option.map_some, Option.getD_some] at member
    exact Nat.lt_trans (size_lt_of_mem_namedChildren member) (size_lt_of_childOfKind? found)

theorem size_lt_of_mem_tupleElementNodes {n c : Node} (member : c ∈ n.tupleElementNodes) :
    c.size < n.size := size_lt_of_mem_namedChildren (List.mem_filter.1 member).1

end Node

namespace Model

/-- An identifier that binds to nothing: `var` asks for inference, `dynamic` is a type of its own.
-/
def unboundIdentifier? (name : String) : Option TypeRef :=
  if name == "var" then none else if name == "dynamic" then some .dynamic else some (.written name)

mutual

/-- What a type node denotes. -/
def resolve? (m : Model) (n : Node) : Option TypeRef :=
  match n.kind with
  | "predefined_type" => TypeRef.predefined? n.trimmedText
  | "identifier" =>
    (m.lookupSimple? n.trimmedText [] n).or (unboundIdentifier? n.trimmedText)
  | "generic_name" =>
    (m.simpleName? n).map fun (name, args) =>
      (m.lookupSimple? name args n).getD (.external name args)
  | "qualified_name" =>
    match m.qualified? n with
    | some bound => some bound
    | none =>
      match n.qualifier?, found : n.unqualified? with
      | some qualifier, some simple =>
        have := Node.size_lt_of_unqualified? found
        (m.simpleName? simple).map fun (name, args) =>
          .external (joined (withoutRoot qualifier.compactText) name) args
      | _, _ => none
  | "alias_qualified_name" => some (m.resolvePath (withoutRoot n.compactText) n)
  | "nullable_type" =>
    match found : n.innerType? with
    | none => none
    | some inner =>
      have := Node.size_lt_of_innerType? found
      (m.resolve? inner).map .nullable
  | "array_type" =>
    match found : n.innerType? with
    | none => none
    | some element =>
      have := Node.size_lt_of_innerType? found
      (m.resolve? element).map fun type => .array type n.arrayRank
  | "pointer_type" =>
    match found : n.innerType? with
    | none => none
    | some target =>
      have := Node.size_lt_of_innerType? found
      (m.resolve? target).map .pointer
  | "tuple_type" =>
    some (.tuple (n.tupleElementNodes.attach.map fun ⟨element, member⟩ =>
      have := Node.size_lt_of_mem_tupleElementNodes member
      { name? := (element.child? "name").map Node.trimmedText
        type := (m.elementType? element).getD (.written element.trimmedText) }))
  | "ref_type" | "scoped_type" =>
    match found : n.modifiedType? with
    | none => none
    | some inner =>
      have := Node.size_lt_of_modifiedType? found
      m.resolve? inner
  | "function_pointer_type" => some (.written n.compactText)
  | _ => none
termination_by 4 * n.size + 3

/-- What the type of a tuple element denotes. -/
def elementType? (m : Model) (element : Node) : Option TypeRef :=
  match found : element.innerType? with
  | none => none
  | some type =>
    have := Node.size_lt_of_innerType? found
    m.resolve? type
termination_by 4 * element.size

/-- The name and the type arguments of an identifier or a generic name. -/
def simpleName? (m : Model) (n : Node) : Option (String × List TypeRef) :=
  match n.kind with
  | "identifier" => some (n.trimmedText, [])
  | "generic_name" =>
    (n.childOrKind? "name" ["identifier"]).map fun name =>
      (name.trimmedText, n.typeArgumentNodes.attach.map fun ⟨arg, member⟩ =>
        have := Node.size_lt_of_mem_typeArgumentNodes member
        (m.resolve? arg).getD (.written arg.trimmedText))
  | _ => none
termination_by 4 * n.size

/-- What a qualified name denotes, unless it binds to nothing. -/
def qualified? (m : Model) (n : Node) : Option TypeRef :=
  match found : n.qualifier?, found' : n.unqualified? with
  | some qualifier, some simple =>
    have := Node.size_lt_of_qualifier? found
    have := Node.size_lt_of_unqualified? found'
    (m.simpleName? simple).bind fun (name, args) =>
      m.lookupQualified? n qualifier (m.named? qualifier) name args
  | _, _ => none
termination_by 4 * n.size + 1

/-- What a name denotes as a type, unless it binds to nothing. -/
def named? (m : Model) (n : Node) : Option TypeRef :=
  match n.kind with
  | "identifier" | "generic_name" =>
    (m.simpleName? n).bind fun (name, args) => m.lookupSimple? name args n
  | "qualified_name" => m.qualified? n
  | "predefined_type" => TypeRef.predefined? n.trimmedText
  | _ => none
termination_by 4 * n.size + 2

end

/-- What the written type of a declaration denotes. -/
def writtenType? (m : Model) (n : Node) : Option TypeRef := n.writtenType?.bind m.resolve?

end Model

end ClassAtlas
