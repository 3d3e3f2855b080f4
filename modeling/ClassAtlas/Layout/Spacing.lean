import ClassAtlas.Layout.Token

/-!
# Spacing

Whether two tokens that follow each other on a line are separated by a space. Punctuation decides;
where it says nothing there is a space.
-/
namespace ClassAtlas.Token

/-- Words that keep a space before an opening parenthesis or bracket. -/
def spacedKeywords : List String :=
  ["if", "while", "for", "foreach", "switch", "using", "lock", "catch", "fixed", "return", "when",
    "in", "is", "and", "or", "not", "await", "throw", "yield", "else", "case", "as", "out", "ref",
    "var", "select", "where", "from", "let", "on", "equals", "by", "into", "orderby", "group",
    "join", "params"]

/-- Parents in which a colon has spaces on both sides. -/
def spacedColonParents : List String :=
  ["base_list", "conditional_expression", "constructor_initializer",
    "type_parameter_constraints_clause"]

/-- The operator of a prefix expression such as `-x`. -/
def isPrefixOperator (t : Token) : Bool := t.parent == "prefix_unary_expression" && t.isFirst

/-- The operator of a postfix expression such as `x++`. -/
def isPostfixOperator (t : Token) : Bool := t.parent == "postfix_unary_expression" && t.isLast

/-- No space ever follows the token. -/
def holdsNext (t : Token) : Bool :=
  ["(", "[", ".", "::", "->", "..", "?."].contains t.text ||
    (t.text == "<" && t.isTypeBracket) ||
    (t.text == "?" && t.parent == "conditional_access_expression") ||
    (t.text == ")" && t.parent == "cast_expression") ||
    (t.text == "," && t.parent == "array_rank_specifier") ||
    t.isPrefixOperator

/-- Between a word and an opening parenthesis or bracket only certain keywords keep a space; other
tokens do. -/
def spacedBeforeBracket (previous : Token) : Bool :=
  !previous.isWord || spacedKeywords.contains previous.text

/-- A space stands before `current` when it follows `previous` on a line. -/
def needsSpace (previous current : Token) : Bool :=
  if previous.holdsNext then false
  else if [")", "]", ";", ",", ".", "::", "->", "..", "?."].contains current.text then false
  else if current.text == "?" then
    !(["nullable_type", "conditional_access_expression"].contains current.parent)
  else if current.text == "*" && current.parent == "pointer_type" then false
  else if current.isTypeBracket then false
  else if current.text == ":" then spacedColonParents.contains current.parent
  else if current.text == "(" then
    !((previous.text == ">" && previous.isTypeBracket) || [")", "]"].contains previous.text) &&
      previous.spacedBeforeBracket
  else if current.text == "[" then
    !([")", "]", "?"].contains previous.text || previous.isTypeBracket) &&
      previous.spacedBeforeBracket
  else !current.isPostfixOperator

end ClassAtlas.Token
