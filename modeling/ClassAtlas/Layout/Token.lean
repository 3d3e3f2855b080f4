import ClassAtlas.Syntax.Declaration
import ClassAtlas.Text.Cut
import ClassAtlas.Text.Letter

/-!
# Tokens

The pieces of a syntax tree that layout moves around but never changes: the childless nodes, and the
nodes that are written as one piece, such as string literals and comments. A token remembers the
surroundings its spacing depends on.
-/
namespace ClassAtlas

/-- A piece of source text without trailing blanks, and where in the tree it stands. -/
structure Token where
  text : String
  kind : String
  parent : String
  grandparent : String
  isFirst : Bool
  isLast : Bool
  startRow : Nat
  endRow : Nat
  /-- A brace around an indented block. -/
  isBlockBrace : Bool
  /-- The token begins a member of a type or of the file. -/
  startsMember : Bool
  /-- The token ends a member of a type or of the file. -/
  endsMember : Bool
  deriving DecidableEq, Repr, Inhabited

namespace Token

/-- Nodes that are one token whatever is below them. -/
def atomicKinds : List String :=
  ["string_literal", "verbatim_string_literal", "raw_string_literal",
    "interpolated_string_expression", "interpolated_verbatim_string_expression",
    "character_literal", "comment"]

/-- Parents whose braces enclose an indented block. -/
def blockParents : List String :=
  ["declaration_list", "block", "enum_member_declaration_list", "switch_body", "switch_block"]

/-- Parents whose children are members with lines of their own. -/
def memberListParents : List String := ["declaration_list", "compilation_unit"]

/-- The kind belongs to a preprocessor directive. -/
def isDirectiveKind (kind : String) : Bool := Text.startsWith "preproc" kind

/-- A comment or a directive: a token that stands between others without being part of the code. -/
def isTrivia (t : Token) : Bool := t.kind == "comment" || isDirectiveKind t.kind

/-- A comment that runs to the end of its line. -/
def isLineComment (t : Token) : Bool := Text.startsWith "//" t.text

/-- The token is an identifier, a keyword or a number. -/
def isWord (t : Token) : Bool :=
  match t.text.toList with
  | [] => false
  | c :: _ => Text.isLetterOrDigit c || c == '_' || c == '@'

/-- An angle bracket around type arguments or type parameters. -/
def isTypeBracket (t : Token) : Bool :=
  (t.text == "<" || t.text == ">") &&
    ["type_argument_list", "type_parameter_list"].contains t.parent

end Token

namespace Node

/-- The node is written as one token: a literal, a comment, or a directive on a single row. -/
def isAtomic (n : Node) : Bool :=
  Token.atomicKinds.contains n.kind || (Token.isDirectiveKind n.kind && n.startRow == n.endRow)

/-- An accessor with a body. -/
def isAccessorWithBody (n : Node) : Bool :=
  n.kind == "accessor_declaration" &&
    n.children.any fun c => ["block", "arrow_expression_clause"].contains c.kind

/-- The braces of the node's parent enclose an indented block. Those of an accessor list do when
some accessor has a body. -/
def isInBlock (n : Node) : Bool :=
  match n.parent? with
  | none => false
  | some parent =>
    if parent.kind == "accessor_list" then parent.children.any isAccessorWithBody
    else Token.blockParents.contains parent.kind

/-- The node is a member of a type body or of the file; comments between members are not. -/
def isListedMember (n : Node) : Bool :=
  !n.isComment && (n.parent?.any fun parent => Token.memberListParents.contains parent.kind)

/-- The node as one token, unless nothing but blanks is written there. -/
def token? (n : Node) : Option Token :=
  let text := Text.trimEnd n.text
  if text.isEmpty then none
  else some
    { text
      kind := n.kind
      parent := (n.parent?.map kind).getD ""
      grandparent := ((n.parent?.bind parent?).map kind).getD ""
      isFirst := n.isFirst
      isLast := n.isLast
      startRow := n.startRow
      endRow := n.endRow
      isBlockBrace := (text == "\x7b" || text == "\x7d") && n.isInBlock
      startsMember := false
      endsMember := false }

/-- Marks the last token of a member. -/
def markLast : List Token → List Token
  | [] => []
  | [t] => [{ t with endsMember := true }]
  | t :: rest => t :: markLast rest

/-- Marks the first and the last token of a member. -/
def markMember (tokens : List Token) : List Token :=
  markLast (tokens.modifyHead fun t => { t with startsMember := true })

/-- The tokens of a subtree in document order. -/
def tokens (n : Node) : List Token :=
  let inner :=
    if n.children.isEmpty || n.isAtomic then n.token?.toList
    else n.children.attach.flatMap fun ⟨c, _⟩ => c.tokens
  if n.isListedMember then markMember inner else inner
termination_by n.size
decreasing_by exact size_lt_of_mem_children ‹_›

end Node

end ClassAtlas
