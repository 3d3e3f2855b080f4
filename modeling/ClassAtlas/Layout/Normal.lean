import ClassAtlas.Layout.Render

/-!
# Normalized source

The source text of a node with canonical spacing, alone or after the comments that lead it, and the
header of a member on a single line. A comment leads a node when only comments stand between them
and it does not begin on the row on which the sibling before those comments ends.
-/
namespace ClassAtlas.Node

/-- The comments that lead a node, in source order. -/
def leadingComments (n : Node) : List Node :=
  let comments := n.previousSiblings.takeWhile isComment
  let leading := match (n.previousSiblings.dropWhile isComment).head? with
    | none => comments
    | some previous => comments.filter fun c => c.startRow != previous.endRow
  leading.reverse

/-- The normalized text of a node. -/
def normalized (n : Node) (options : LayoutOptions) : String := layoutLines options n.tokens

/-- The normalized text of a node after its leading comments. -/
def normalizedWithComments (n : Node) (options : LayoutOptions) : String :=
  layoutLines options (n.leadingComments.flatMap tokens ++ n.tokens)

/-- The body of a member begins at this child: it is the child of the body field, a block, an
expression after `=>`, or the semicolon in place of a body. -/
def beginsBody (n c : Node) : Bool :=
  ((n.child? "body").any fun body => body.address == c.address) ||
    ["block", "arrow_expression_clause", ";"].contains c.kind

/-- The children of a member before its body, without attributes and comments of its own. -/
def header (n : Node) : List Node :=
  (n.children.takeWhile fun c => !n.beginsBody c).filter fun c =>
    !(["attribute_list", "comment"].contains c.kind)

/-- The header of a member on a single line. -/
def signature (n : Node) : String := layoutInline (n.header.flatMap tokens)

end ClassAtlas.Node
