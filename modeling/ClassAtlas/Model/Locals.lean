import ClassAtlas.Model.Expression
import ClassAtlas.Syntax.Preorder

/-!
# Local variables

The variables that the body of a member declares, in document order, with their types where these
are written or can be inferred. Every variable with a known type, parameters included, is in scope
for what follows it.
-/
namespace ClassAtlas

/-- A variable declared in the body of a member. -/
structure LocalVariable where
  name : String
  type? : Option TypeRef
  deriving DecidableEq, Repr

/-- The scope after some more variables. -/
def Scope.extend (scope : Scope) (locals : List LocalVariable) : Scope :=
  locals.foldl (fun scope v =>
    match v.type? with
    | none => scope
    | some type => (v.name, type) :: scope) scope

namespace Node

/-- The value a variable is initialized with. -/
def initializer? (declarator : Node) : Option Node :=
  let name? := (declarator.child? "name").map address
  let value? := declarator.namedChildren.reverse.find? fun c =>
    name? != some c.address && !(["bracketed_argument_list", "tuple_pattern"].contains c.kind)
  value?.bind fun value =>
    if value.kind == "equals_value_clause" then value.operand? else some value

/-- The name that a declaration expression, a catch clause or a pattern introduces. -/
def designatedName? (n : Node) : Option Node :=
  match n.child? "name" with
  | some name => some name
  | none =>
    ((n.child? "designation").or
      (n.childOfKind? ["single_variable_designation", "identifier"])).bind fun designation =>
        if designation.kind == "identifier" then some designation
        else designation.childOfKind? ["identifier"]

/-- The variable of a `foreach` loop. -/
def loopVariable? (n : Node) : Option Node :=
  let type? := n.writtenType?.map address
  let bound? := (n.child? "left").or
    (n.namedChildren.find? fun c => c.kind == "identifier" && type? != some c.address)
  bound?.filter fun v => v.kind == "identifier"

/-- The variables of a variable declaration. -/
def declarators (n : Node) : List Node :=
  n.namedChildren.filter fun c => c.kind == "variable_declarator"

end Node

namespace Model

/-- The type node asks for inference: `var`, unless a type of that name is in scope. -/
def isImplicit (m : Model) (type : Node) : Bool :=
  match type.kind with
  | "implicit_type" => true
  | "identifier" => type.trimmedText == "var" && (m.named? type).isNone
  | _ => false

/-- The written type of a declaration, unless it asks for inference. -/
def explicitType? (m : Model) (n : Node) : Option Node :=
  n.writtenType?.filter fun type => !m.isImplicit type

/-- The variables that a sequence of declarators introduces. -/
def declaratorLocals (m : Model) (type? : Option Node) (scope : Scope) :
    List Node → List LocalVariable
  | [] => []
  | d :: rest =>
    match d.name? with
    | none => m.declaratorLocals type? scope rest
    | some name =>
      let inferred? := match type? with
        | some type => m.resolve? type
        | none => d.initializer?.bind (m.typeOf? scope)
      let v : LocalVariable := ⟨name, inferred?⟩
      v :: m.declaratorLocals type? (scope.extend [v]) rest

/-- The type of the variable of a `foreach` loop. -/
def loopVariableType? (m : Model) (scope : Scope) (n : Node) : Option TypeRef :=
  match m.explicitType? n with
  | some type => m.resolve? type
  | none => ((n.child? "right").bind (m.typeOf? scope)).bind TypeRef.element?

/-- The variables that a node itself introduces. -/
def localsAt (m : Model) (scope : Scope) (n : Node) : List LocalVariable :=
  match n.kind with
  | "variable_declaration" => m.declaratorLocals (m.explicitType? n) scope n.declarators
  | "foreach_statement" =>
    (n.loopVariable?.map fun v =>
      ⟨v.trimmedText, m.loopVariableType? scope n⟩).toList
  | "declaration_expression" | "catch_declaration" | "declaration_pattern" =>
    (n.designatedName?.map fun name =>
      ⟨name.trimmedText, (m.explicitType? n).bind m.resolve?⟩).toList
  | _ => []

/-- The variables that a sequence of nodes introduces, each in the scope left by those before. -/
def localsAlong (m : Model) (scope : Scope) : List Node → List LocalVariable
  | [] => []
  | n :: rest =>
    let locals := m.localsAt scope n
    locals ++ m.localsAlong (scope.extend locals) rest

/-- The parameters of a member as variables. -/
def parameterLocals (m : Model) (member : Node) : List LocalVariable :=
  member.parameters.filterMap fun p =>
    p.name?.map fun name => ⟨name, m.writtenType? p⟩

/-- The variables that the body of a member declares; parameters are not among them. -/
def declaredLocals (m : Model) (member : Node) : List LocalVariable :=
  match member.memberBody? with
  | none => []
  | some body => m.localsAlong (Scope.extend [] (m.parameterLocals member)) body.subtree

end Model

end ClassAtlas
