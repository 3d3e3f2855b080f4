import ClassAtlas.Syntax.Node
import ClassAtlas.Text.Blank

/-!
# Declarations in the tree

Which kinds of nodes declare types, and how a declaration is read: its name, modifiers, body, type
parameters, parameters and written type. Broken source leaves holes in the tree, so most questions
fall back from a field to the first child of a fitting kind.
-/
namespace ClassAtlas.Node

/-- Declarations that introduce a named type. -/
def typeDeclarationKinds : List String :=
  ["class_declaration", "struct_declaration", "record_declaration", "record_struct_declaration",
    "interface_declaration", "enum_declaration", "delegate_declaration"]

/-- Declarations that are described as classes. -/
def classLikeKinds : List String :=
  ["class_declaration", "struct_declaration", "record_declaration", "record_struct_declaration"]

/-- Declarations whose bodies hold members that refer to other types. -/
def memberContainerKinds : List String :=
  ["class_declaration", "struct_declaration", "record_declaration", "record_struct_declaration",
    "interface_declaration"]

def isComment (n : Node) : Bool := n.kind == "comment"

/-- The source text of the node without the blanks around it. -/
def trimmedText (n : Node) : String := Text.trim n.text

/-- The source text of the node without any blank. -/
def compactText (n : Node) : String := Text.compact n.text

/-- The modifier keywords of a declaration (`public`, `static`). -/
def modifiers (n : Node) : List String :=
  (n.namedChildren.filter fun c => c.kind == "modifier").map trimmedText

def hasModifier (n : Node) (modifier : String) : Bool := n.modifiers.contains modifier

/-- The name a declaration introduces. -/
def name? (n : Node) : Option String := (n.childOrKind? "name" ["identifier"]).map trimmedText

/-- The body of a type or namespace declaration. -/
def body? (n : Node) : Option Node :=
  n.childOrKind? "body" ["declaration_list", "enum_member_declaration_list"]

/-- The members of a declaration: the named nodes of its body. -/
def members (n : Node) : List Node := (n.body?.map namedChildren).getD []

/-- The name node of a type parameter: its name field or else its last identifier. -/
def typeParameterName? (n : Node) : Option Node :=
  (n.child? "name").or (n.namedChildren.reverse.find? fun c => c.kind == "identifier")

/-- The type parameter names of a generic declaration. -/
def typeParameters (n : Node) : List String :=
  match n.childOfKind? ["type_parameter_list"] with
  | none => []
  | some list =>
    (list.namedChildren.filter fun c => c.kind == "type_parameter").filterMap fun c =>
      c.typeParameterName?.map trimmedText

/-- The parameters of a member. -/
def parameters (n : Node) : List Node :=
  match n.childOrKind? "parameters" ["parameter_list"] with
  | none => []
  | some list => list.namedChildren.filter fun c => c.kind == "parameter"

/-- The written type of a parameter, property, variable declaration and the like. -/
def writtenType? (n : Node) : Option Node := n.child? "type"

/-- The written return type of a method. -/
def writtenReturnType? (n : Node) : Option Node := (n.child? "returns").or n.writtenType?

/-- The node that computes the result of a member: its block or its expression after `=>`. -/
def memberBody? (n : Node) : Option Node :=
  n.childOrKind? "body" ["block", "arrow_expression_clause"]

end ClassAtlas.Node
