import ClassAtlas.Types.Display

/-!
# Names

What a name means at a place in a file. A simple name is looked for in this order: type parameters
and nested types of the surrounding declarations, innermost first; the surrounding namespaces,
innermost first; the using directives in scope, where an alias comes before the imported namespaces,
and in these the source before the core library.
-/
namespace ClassAtlas

/-- What is known of a file: its syntax tree and the types it declares. -/
structure Model where
  root : Node
  table : SymbolTable
  deriving Repr

/-- The namespaces around a reversed dotted name, the name itself first, without the global one. -/
def enclosingSpacesOf (reversed : List Char) : List String :=
  if reversed.isEmpty then []
  else
    String.ofList reversed.reverse ::
      match _found : Text.cutFirst? '.' reversed with
      | none => []
      | some (_, outer) => enclosingSpacesOf outer
termination_by reversed.length
decreasing_by
  have := congrArg List.length (Text.cutFirst?_append ‹_›)
  simp at this
  omega

/-- A namespace, the namespaces around it, innermost first, and the global namespace, whose name is
empty. -/
def enclosingSpaces (space? : Option String) : List String :=
  enclosingSpacesOf (space?.getD "").toList.reverse ++ [""]

/-- A path without its root. -/
def withoutRoot (path : String) : String := Text.dropHead "global::" path

namespace Model

def ofTree (tree : Tree) : Model :=
  let root := Node.root tree
  ⟨root, SymbolTable.ofRoot root⟩

/-- The innermost type declaration around a node. -/
def enclosingType? (m : Model) (n : Node) : Option TypeId :=
  n.ancestors.findSome? m.table.declaredBy?

/-- The namespaces whose types are in scope at a node without a using directive. -/
def spacesAt (m : Model) (n : Node) : List String :=
  enclosingSpaces (m.table.namespaceAt? n.start)

/-- The scopes around a node, innermost first. -/
def scopesOutward (m : Model) (n : Node) : List NamespaceScope :=
  (m.table.scopesAt n.start).reverse

/-- The source type with a path relative to one of the given namespaces, the first that fits. -/
def typeIn? (m : Model) (spaces : List String) (path : String) (arity : Nat) : Option TypeId :=
  spaces.findSome? fun space => m.table.lookup? (joined space path) arity

/-- What a dotted path without type arguments denotes. Targets of aliases are read this way, so
aliases do not apply. -/
def resolvePath (m : Model) (path : String) (at_ : Node) : TypeRef :=
  let path := withoutRoot path
  match (m.table.lookup? path 0).or (m.typeIn? (m.spacesAt at_) path 0) with
  | some id => .declared id []
  | none =>
    match CoreType.lookupQualified? path 0 with
    | some type => .ofCore type
    | none => .written path

/-- What a name denotes by one of the declarations around it. -/
def boundBy? (m : Model) (name : String) (args : List TypeRef) (ancestor : Node) : Option TypeRef :=
  if args.isEmpty && ["method_declaration", "local_function_statement"].contains ancestor.kind &&
      ancestor.typeParameters.contains name then
    some (.param name)
  else
    match m.table.declaredBy? ancestor with
    | none => none
    | some id =>
      if args.isEmpty && (m.table.get? id).any fun s => s.typeParameters.contains name then
        some (.param name)
      else (m.table.nested? id name args.length).map fun nested => .declared nested args

/-- What a name denotes in a namespace. -/
def importedFrom? (m : Model) (space name : String) (args : List TypeRef) : Option TypeRef :=
  match m.table.lookup? (joined space name) args.length with
  | some id => some (.declared id args)
  | none => (CoreType.lookup? space name args.length).map fun type => .core type args

/-- What a name denotes by the using directives of one scope. -/
def usedIn? (m : Model) (name : String) (args : List TypeRef) (at_ : Node)
    (scope : NamespaceScope) : Option TypeRef :=
  let alias? := scope.usings.findSome? fun
    | .alias other target => if args.isEmpty && other == name then some target else none
    | _ => none
  match alias? with
  | some target => some (m.resolvePath target at_)
  | none => scope.usings.findSome? fun
    | .types space => m.importedFrom? space name args
    | _ => none

/-- What a simple name with type arguments denotes. -/
def lookupSimple? (m : Model) (name : String) (args : List TypeRef) (at_ : Node) : Option TypeRef :=
  match at_.ancestors.findSome? (m.boundBy? name args) with
  | some bound => some bound
  | none =>
    match m.typeIn? (m.spacesAt at_) name args.length with
    | some id => some (.declared id args)
    | none => (m.scopesOutward at_).findSome? (m.usedIn? name args at_)

/-- The first part of a dotted name and the rest. -/
def headAndRest (path : String) : String × Option String :=
  match Text.splitFirst? '.' path with
  | some (head, rest) => (head, some rest)
  | none => (path, none)

/-- A dotted name whose first part is an alias, with the alias spelled out. -/
def expandAlias? (m : Model) (path : String) (at_ : Node) : Option String :=
  let (head, rest?) := headAndRest path
  ((m.scopesOutward at_).flatMap NamespaceScope.usings).findSome? fun
    | .alias name target =>
      if name == Text.lastQualified head then
        some (match rest? with
          | some rest => joined target rest
          | none => target)
      else none
    | _ => none

/-- What a name denotes in a namespace that is written relative to the given namespaces. -/
def memberOfSpace? (m : Model) (spaces : List String) (name : String) (args : List TypeRef)
    (space : String) : Option TypeRef :=
  match spaces.findSome? fun outer =>
      m.table.lookup? (joined (joined outer space) name) args.length with
  | some id => some (.declared id args)
  | none => (CoreType.lookup? space name args.length).map fun type => .core type args

/-- What a qualified name denotes, given what its qualifier denotes on its own. The qualifier is a
type of the source, or else a namespace, as written or with an alias spelled out. -/
def lookupQualified? (m : Model) (n qualifier : Node) (qualifierType? : Option TypeRef)
    (name : String) (args : List TypeRef) : Option TypeRef :=
  match qualifierType? with
  | some (.declared id _) =>
    (m.table.nested? id name args.length).map fun nested => .declared nested args
  | _ =>
    let written := qualifier.compactText
    if written.toList.contains '<' then none
    else
      (withoutRoot written :: (m.expandAlias? written n).toList).findSome?
        (m.memberOfSpace? (m.spacesAt n) name args)

end Model

end ClassAtlas
