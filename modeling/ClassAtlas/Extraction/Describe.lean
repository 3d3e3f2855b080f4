import ClassAtlas.Extraction.Descriptor
import ClassAtlas.Extraction.Event
import ClassAtlas.Failure
import ClassAtlas.Model.Locals

/-!
# Describing a file

Every declaration of a class, struct or record in a file becomes a descriptor, in document order, as
far as the profile includes its type. The references to follow are known before any of them is
followed: a class is described by what it contains, and the definitions it refers to are collected
in the order in which its methods, properties, other members and base types mention them.
-/
namespace ClassAtlas

/-- The result of parsing a file. A parser may find errors that leave no trace in the tree. -/
structure ParsedFile where
  tree : Tree
  hasError : Bool
  deriving Repr

/-- A declaration and the type it declares. -/
structure ClassDeclaration where
  node : Node
  id : TypeId
  deriving Repr

/-- What the description of a class does besides describing: it notes an event, or follows a
reference. -/
inductive Step where
  | note (event : Event)
  | follow (type : TypeRef)
  deriving Repr

/-- The descriptors of a file and what was logged on the way. -/
structure Extraction where
  classes : List ClassDescriptor
  events : List Event
  deriving Repr

namespace Node

/-- The parameters of a member, as written. -/
def parameterTexts (member : Node) : List String := member.parameters.map trimmedText

/-- The line of a node, counted from 1. -/
def line (n : Node) : Nat := n.startRow + 1

/-- The members of one kind. -/
def membersOfKind (declaration : Node) (kind : String) : List Node :=
  declaration.members.filter fun m => m.kind == kind

/-- The class-like nodes below a node, in document order. -/
def classLikeNodes (n : Node) : List Node :=
  n.descendants.filter fun d => classLikeKinds.contains d.kind

/-- A node that stands for a syntax error. -/
def isSyntaxError (n : Node) : Bool := n.kind == "ERROR" || n.isMissing

end Node

namespace Model

/-- The class-like nodes that declare a type, in document order. -/
def classDeclarations (m : Model) : List ClassDeclaration :=
  m.root.classLikeNodes.filterMap fun n => (m.table.declaredBy? n).map fun id => ⟨n, id⟩

/-- The class-like nodes that declare no type. -/
def undeclaredClasses (m : Model) : List Node :=
  m.root.classLikeNodes.filter fun n => (m.table.declaredBy? n).isNone

/-- The public constructors of a class. -/
def constructors (declaration : Node) (settings : Settings) : List ConstructorDescriptor :=
  ((declaration.membersOfKind "constructor_declaration").filter fun c =>
    c.hasModifier "public").map fun c =>
      { signature := c.signature
        parameters := c.parameterTexts
        exceptionConditions := c.exceptionConditions settings.fallbackExceptionType }

/-- The known types of the local variables of a method. -/
def localTypes (m : Model) (method : Node) : List TypeRef :=
  (m.declaredLocals method).filterMap LocalVariable.type?

/-- A nullable type without its annotation, any other type as it is. -/
def unannotated : TypeRef → TypeRef
  | .nullable inner => inner
  | t => t

/-- The source types among the types of the local variables of a method, each once. -/
def dependencyTypes (m : Model) (method : Node) : List String :=
  (((m.localTypes method).filter fun t => (t.inSource? m.table).isSome).map fun t =>
    (unannotated t).display m.table).eraseDups

/-- The return type of a method: as it is reported when it is known, otherwise as written. -/
def returnTypeText (m : Model) (method : Node) (symbol : MethodSymbol) : String :=
  match symbol.returnType? with
  | some type => type.display m.table
  | none => (method.writtenReturnType?.map Node.trimmedText).getD ""

/-- The description of a method. -/
def describeMethod (m : Model) (settings : Settings) (method : Node) (symbol : MethodSymbol) :
    MethodDescriptor :=
  { name := symbol.name
    signature := method.signature
    returnType := m.returnTypeText method symbol
    isStatic := symbol.isStatic
    isAbstract := symbol.isAbstract
    isAsync := symbol.isAsync
    parameters := method.parameterTexts
    exceptionConditions := method.exceptionConditions settings.fallbackExceptionType
    dependencyTypes := m.dependencyTypes method
    sourceCode := method.normalizedWithComments settings.layout }

/-- The facts about a method that is to be described. -/
def includedMethod? (m : Model) (settings : Settings) (method : Node) : Option MethodSymbol :=
  (m.methodSymbol? method).filter fun symbol => settings.profile.includesMethod symbol.isPublic

/-- The methods of a class that the profile includes. -/
def methods (m : Model) (settings : Settings) (declaration : Node) : List MethodDescriptor :=
  (declaration.membersOfKind "method_declaration").filterMap fun method =>
    (m.includedMethod? settings method).map (m.describeMethod settings method)

/-- The reported type of a property: a named type as it is reported, any other as written. -/
def propertyTypeText (m : Model) (property : Node) : String :=
  let written := (property.writtenType?.map Node.trimmedText).getD ""
  match m.writtenType? property with
  | some type => if type.isNamed then type.display m.table else written
  | none => written

/-- The properties of a class. -/
def properties (m : Model) (declaration : Node) : List PropertyDescriptor :=
  (declaration.membersOfKind "property_declaration").filterMap fun property =>
    property.name?.map fun name => ⟨name, m.propertyTypeText property⟩

/-- The steps for a method: to follow the types of its variables if it is described. -/
def methodSteps (m : Model) (settings : Settings) (method : Node) : List Step :=
  match m.methodSymbol? method with
  | none => [.note (.unnamedMethod method.line)]
  | some symbol =>
    if settings.profile.includesMethod symbol.isPublic then (m.localTypes method).map .follow
    else []

/-- The types of the named properties of a class. -/
def propertyTypes (m : Model) (declaration : Node) : List TypeRef :=
  ((declaration.membersOfKind "property_declaration").filter fun property =>
    property.name?.isSome).filterMap m.writtenType?

/-- The steps for a class. -/
def steps (m : Model) (settings : Settings) (c : ClassDeclaration) : List Step :=
  (c.node.membersOfKind "method_declaration").flatMap (m.methodSteps settings) ++
    (m.propertyTypes c.node ++ m.memberTypes c.node ++ m.baseTypes c.id).map .follow

/-- The events for definitions that have been added. -/
def collectedEvents (before after : Definitions) : List Event :=
  (after.drop before.length).map fun definition => .collected definition.1

/-- Takes the steps for a class one by one. -/
def runSteps (m : Model) (settings : Settings) (definitions : Definitions) :
    List Step → Definitions × List Event
  | [] => (definitions, [])
  | .note event :: rest =>
    let (final, events) := m.runSteps settings definitions rest
    (final, event :: events)
  | .follow type :: rest =>
    let next := m.visit settings.layout settings.followTypeArguments type definitions
    let (final, events) := m.runSteps settings next rest
    (final, collectedEvents definitions next ++ events)

/-- Describes a class. -/
def describe (m : Model) (settings : Settings) (path : String) (c : ClassDeclaration)
    (symbol : TypeSymbol) : ClassDescriptor × List Event :=
  let methods := m.methods settings c.node
  let (references, events) := m.runSteps settings [] (m.steps settings c)
  ({ filePath := path
     namespaceName := symbol.space?.getD settings.namespaceSentinel
     className := symbol.name
     isStatic := symbol.isStatic
     isAbstract := symbol.isAbstract
     constructors := constructors c.node settings
     methods := methods
     properties := m.properties c.node
     usingDirectives := m.writtenUsings
     referencedTypes := references },
    events ++ [.described (m.table.displayName c.id) methods.length references.length])

/-- Describes a class if the profile includes its type. -/
def describeIncluded (m : Model) (settings : Settings) (path : String) (c : ClassDeclaration) :
    List ClassDescriptor × List Event :=
  match m.table.get? c.id with
  | none => ([], [])
  | some symbol =>
    if settings.profile.includesType symbol.isAbstract symbol.isStatic then
      let (descriptor, events) := m.describe settings path c symbol
      ([descriptor], events)
    else ([], [.skipped settings.profile (m.table.displayName c.id)])

end Model

namespace ParsedFile

/-- The events of reading the tree and its declarations. -/
def readingEvents (file : ParsedFile) (m : Model) : List Event :=
  (if file.hasError then [.syntaxErrors (m.root.descendants.countP Node.isSyntaxError)] else []) ++
    [.declared m.table.size m.table.scopes.length] ++
    m.undeclaredClasses.map fun n => .undeclared n.kind n.line

/-- Describes the classes of a file; `path` is reported as given. -/
def describe (file : ParsedFile) (settings : Settings) (path : String) : Extraction :=
  let m := Model.ofTree file.tree
  let described := m.classDeclarations.map (m.describeIncluded settings path)
  let classes := described.flatMap Prod.fst
  { classes
    events := file.readingEvents m ++ described.flatMap Prod.snd ++
      [.extracted classes.length path] }

/-- Describes the classes of a file, provided that the settings can be used. -/
def extract (file : ParsedFile) (settings : Settings) (path : String) :
    Except Failure Extraction := do
  settings.validate
  return file.describe settings path

end ParsedFile

end ClassAtlas
