import ClassAtlas.Layout.Placement

/-!
# Rendering

Placed tokens become text: each token as it is, after its gap spelled out with the chosen
indentation and line terminator. Trailing blanks of the whole text are dropped.
-/
namespace ClassAtlas

/-- How lines are indented and ended. -/
structure LayoutOptions where
  indent : String
  newline : String
  deriving DecidableEq, Repr

/-- Four spaces per level and lines that end in a line feed. -/
def LayoutOptions.standard : LayoutOptions := ⟨"    ", "\n"⟩

/-- `count` copies of a text. -/
def repeated (s : String) (count : Nat) : String := String.join (List.replicate count s)

/-- A gap spelled out. -/
def Gap.text (options : LayoutOptions) : Gap → String
  | .start => ""
  | .tight => ""
  | .space => " "
  | .line depth => options.newline ++ repeated options.indent depth
  | .blankLine depth => options.newline ++ options.newline ++ repeated options.indent depth

/-- A gap on a single line: every break becomes one space. -/
def Gap.inlineText : Gap → String
  | .start => ""
  | .tight => ""
  | .space => " "
  | .line _ => " "
  | .blankLine _ => " "

/-- The line ends of a break after which nothing follows. -/
def Break.text (options : LayoutOptions) : Break → String
  | .atStart => ""
  | .none => ""
  | .line => options.newline
  | .blankLine => options.newline ++ options.newline

/-- Lays tokens out on lines. -/
def layoutLines (options : LayoutOptions) (tokens : List Token) : String :=
  let (placed, due) := placeAll .kept .initial tokens
  Text.trimEnd
    (String.join (placed.map fun p => p.gap.text options ++ p.token.text) ++ due.text options)

/-- Lays tokens out on a single line, comments and directives left out. -/
def layoutInline (tokens : List Token) : String :=
  Text.trimEnd (String.join ((placeAll .dropped .initial tokens).1.map fun p =>
    p.gap.inlineText ++ p.token.text))

end ClassAtlas
