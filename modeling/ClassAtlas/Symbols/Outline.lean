import ClassAtlas.Symbols.Using
import ClassAtlas.Syntax.Declaration

/-!
# Outline of a file

The type declarations and namespace scopes of a file in document order, each with the namespace and
the enclosing type it belongs to. Only namespaces, type bodies and the remains of broken source are
searched: a declaration below any other node is not part of the outline.
-/
namespace ClassAtlas

inductive TypeKind where
  | classType
  | structType
  | recordType
  | interfaceType
  | enumType
  | delegateType
  deriving DecidableEq, Repr

namespace TypeKind

/-- The kind of type that a kind of node declares. -/
def ofNodeKind? (kind : String) : Option TypeKind :=
  match kind with
  | "class_declaration" => some classType
  | "struct_declaration" => some structType
  | "record_struct_declaration" => some structType
  | "record_declaration" => some recordType
  | "interface_declaration" => some interfaceType
  | "enum_declaration" => some enumType
  | "delegate_declaration" => some delegateType
  | _ => none

/-- On a reference type `?` is an annotation and makes no type of its own. -/
def isReference : TypeKind → Bool
  | classType | recordType | interfaceType | delegateType => true
  | structType | enumType => false

/-- The types a class can inherit members from. -/
def isInheritable : TypeKind → Bool
  | classType | recordType => true
  | _ => false

end TypeKind

/-- The dotted path of a type without type parameters, and how many it has. Declarations with the
same key are parts of one type. -/
structure TypeKey where
  path : String
  arity : Nat
  deriving DecidableEq, Repr

/-- One declaration of a type. -/
structure TypeDeclaration where
  node : Node
  kind : TypeKind
  name : String
  typeParameters : List String
  space? : Option String
  container? : Option TypeKey
  path : String
  deriving Repr

/-- The key of the type that a declaration is part of. -/
def TypeDeclaration.key (d : TypeDeclaration) : TypeKey := ⟨d.path, d.typeParameters.length⟩

/-- The part of the source that belongs to a namespace, or to the file as a whole, with the using
directives that hold in it. -/
structure NamespaceScope where
  name? : Option String
  start : Nat
  stop : Nat
  usings : List UsingDirective
  deriving DecidableEq, Repr

inductive OutlineEntry where
  | scope (scope : NamespaceScope)
  | type (declaration : TypeDeclaration)
  deriving Repr

/-- Joins two parts of a dotted name. -/
def dotted (head name : String) : String := head ++ "." ++ name

/-- Joins two parts of a dotted name of which the first may be empty. -/
def joined (head name : String) : String := if head.isEmpty then name else dotted head name

/-- A name inside a namespace; the namespace with the empty name adds nothing. -/
def qualified (space? : Option String) (name : String) : String := joined (space?.getD "") name

namespace Node

/-- The using directives among some nodes. -/
def usingDirectives (nodes : List Node) : List UsingDirective :=
  (nodes.filter fun n => n.kind == "using_directive").filterMap fun n =>
    UsingDirective.parse? n.text

/-- The declaration a node makes in the given surroundings, unless it lacks a name. -/
def typeDeclaration? (n : Node) (space? : Option String) (container? : Option TypeKey) :
    Option TypeDeclaration := do
  let kind ← TypeKind.ofNodeKind? n.kind
  let name ← n.name?
  if name.isEmpty then none
  else
    let path := match container? with
      | some container => dotted container.path name
      | none => qualified space? name
    return ⟨n, kind, name, n.typeParameters, space?, container?, path⟩

theorem totalOf_size_members_lt (n : Node) : totalOf size n.members < n.size := by
  unfold members
  cases found : n.body? with
  | none => simpa using n.size_pos
  | some body =>
    exact Nat.lt_trans body.totalOf_size_namedChildren_lt (size_lt_of_childOrKind? found)

/-- The outline of the pending nodes. They are in a container that ends at `stop`, in a namespace
and in a type. A file-scoped namespace holds the siblings after it. -/
def outline (stop : Nat) (space? : Option String) (container? : Option TypeKey)
    (pending : List Node) : List OutlineEntry :=
  match pending with
  | [] => []
  | n :: rest =>
    if n.kind == "namespace_declaration" then
      match n.child? "name" with
      | none => outline stop space? container? rest
      | some name =>
        let full := qualified space? name.compactText
        .scope ⟨some full, n.start, n.stop, usingDirectives n.members⟩ ::
          (outline ((n.body?.map Node.stop).getD 0) (some full) none n.members ++
            outline stop space? container? rest)
    else if n.kind == "file_scoped_namespace_declaration" then
      match n.child? "name" with
      | none => outline stop space? container? rest
      | some name =>
        let full := qualified space? name.compactText
        .scope ⟨some full, n.start, stop, usingDirectives n.namedChildren⟩ ::
          (outline n.stop (some full) none n.namedChildren ++
            outline stop (some full) container? rest)
    else if typeDeclarationKinds.contains n.kind then
      match n.typeDeclaration? space? container? with
      | none => outline stop space? container? rest
      | some declaration =>
        .type declaration ::
          (outline ((n.body?.map Node.stop).getD 0) space? (some declaration.key) n.members ++
            outline stop space? container? rest)
    else if ["ERROR", "declaration_list"].contains n.kind then
      outline n.stop space? container? n.namedChildren ++ outline stop space? container? rest
    else outline stop space? container? rest
termination_by totalOf size pending
decreasing_by
  all_goals
    have := n.totalOf_size_members_lt
    have := n.totalOf_size_namedChildren_lt
    have := n.size_pos
    simp
    omega

/-- The outline of a file, given its root. -/
def fileOutline (root : Node) : List OutlineEntry :=
  .scope ⟨none, root.start, root.stop, usingDirectives root.namedChildren⟩ ::
    outline root.stop none none root.namedChildren

end Node

end ClassAtlas
