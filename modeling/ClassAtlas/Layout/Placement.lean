import ClassAtlas.Layout.Spacing

/-!
# Placement

Layout decides for every token what stands between it and the token before: nothing, a space, a line
break, or a blank line. Block braces and statements break lines, members begin on lines of their
own, and a comment stays on the line of the token it trails. What is inside parentheses or inline
braces is not broken at semicolons.
-/
namespace ClassAtlas

/-- What stands before a token. A line begins with one unit of indentation per level of depth. -/
inductive Gap where
  /-- Nothing: the token is the first of the text. -/
  | start
  | tight
  | space
  | line (depth : Nat)
  | blankLine (depth : Nat)
  deriving DecidableEq, Repr

/-- A break that is due before the next token. -/
inductive Break where
  /-- Nothing has been written. -/
  | atStart
  | none
  | line
  | blankLine
  deriving DecidableEq, Repr

/-- An open brace. A block brace remembers how many parentheses were open around it. -/
inductive OpenBrace where
  | block (parens : Nat)
  | inline
  deriving DecidableEq, Repr

/-- Whether trivia are laid out or left out. -/
inductive Trivia where
  | kept
  | dropped
  deriving DecidableEq, Repr

/-- What layout knows between two tokens. -/
structure LayoutState where
  due : Break
  depth : Nat
  /-- Parentheses opened since the innermost block brace. -/
  parens : Nat
  /-- The open braces, innermost first. -/
  braces : List OpenBrace
  previous? : Option Token
  deriving Repr

namespace LayoutState

/-- The state before the first token. -/
def initial : LayoutState := ⟨.atStart, 0, 0, [], none⟩

/-- Makes sure that the next token begins a line. -/
def breakLine (s : LayoutState) : LayoutState :=
  match s.due with
  | .none => { s with due := .line }
  | _ => s

/-- Makes sure that a blank line stands before the next token. -/
def breakBlank (s : LayoutState) : LayoutState :=
  match s.due with
  | .atStart => s
  | _ => { s with due := .blankLine }

/-- What stands before a token written now, if it would otherwise be spaced as given. -/
def gap (s : LayoutState) (spaced : Bool) : Gap :=
  match s.due with
  | .atStart => .start
  | .none => if spaced then .space else .tight
  | .line => .line s.depth
  | .blankLine => .blankLine s.depth

/-- The state after a token has been written, with nothing due. -/
def written (s : LayoutState) (t : Token) : LayoutState :=
  { s with due := .none, previous? := some t }

/-- A token written while the next one begins no line of its own trails the previous token. -/
def trails (s : LayoutState) (t : Token) : Bool :=
  s.due == .none && (s.previous?.any fun p => p.endRow == t.startRow)

/-- Semicolons end statements here: no parenthesis is open, and the innermost brace is no inline
one. -/
def endsStatements (s : LayoutState) : Bool :=
  s.parens == 0 && s.braces.head? != some .inline

/-- The line of a comment or directive ends after it. -/
def endsLine (t : Token) (next? : Option Token) : Bool :=
  t.isLineComment || Token.isDirectiveKind t.kind ||
    next?.any fun next => decide (t.endRow < next.startRow)

/-- Writes a comment or directive. -/
def placeTrivia (s : LayoutState) (t : Token) (next? : Option Token) : Gap × LayoutState :=
  let s := if s.trails t then s else s.breakLine
  let after := s.written t
  (s.gap true, if endsLine t next? then after.breakLine else after)

/-- Writes the opening brace of a block. -/
def placeOpening (s : LayoutState) (t : Token) : Gap × LayoutState :=
  let s := s.breakLine
  let after :=
    { s.written t with
      depth := s.depth + 1
      parens := 0
      braces := .block s.parens :: s.braces }
  (s.gap false, after.breakLine)

/-- The closing brace of a declaration other than an accessor is set off by a blank line. -/
def closesMember (t : Token) : Bool :=
  Text.endsWith "_declaration" t.grandparent && t.grandparent != "accessor_declaration"

/-- The break due after the closing brace of a block. -/
def afterClosing (s : LayoutState) (t : Token) (next? : Option Token) : LayoutState :=
  match next? with
  | none => s.breakLine
  | some next =>
    if [";", ",", ")"].contains next.text then s
    else if next.text == "\x7d" then s.breakLine
    else if closesMember t then s.breakBlank
    else s.breakLine

/-- Writes the closing brace of a block. -/
def placeClosing (s : LayoutState) (t : Token) (next? : Option Token) : Gap × LayoutState :=
  let s := { s.breakLine with depth := s.depth - 1 }
  let parens := match s.braces with
    | .block parens :: _ => parens
    | _ => s.parens
  let after := { s.written t with parens := parens, braces := s.braces.tail }
  (s.gap false, after.afterClosing t next?)

/-- Parents of the colon after a switch label. -/
def switchLabelParents : List String :=
  ["switch_section", "case_switch_label", "default_switch_label", "case_pattern_switch_label",
    "switch_label"]

/-- The closing bracket of attributes on a declaration. -/
def closesAttributes (t : Token) : Bool :=
  t.text == "]" && t.parent == "attribute_list" &&
    (Text.endsWith "declaration" t.grandparent ||
      ["global_attribute", "compilation_unit"].contains t.grandparent)

/-- The effect of an ordinary token on the brackets and on the line. -/
def afterToken (s : LayoutState) (t : Token) : LayoutState :=
  if t.text == "(" then { s with parens := s.parens + 1 }
  else if t.text == ")" then { s with parens := s.parens - 1 }
  else if t.text == "\x7b" then { s with braces := .inline :: s.braces }
  else if t.text == "\x7d" then { s with braces := s.braces.tail }
  else if t.text == ";" && s.endsStatements then s.breakLine
  else if t.text == "," && t.parent == "enum_member_declaration_list" then s.breakLine
  else if t.text == ":" && switchLabelParents.contains t.parent then s.breakLine
  else if closesAttributes t then s.breakLine
  else s

/-- Writes any other token. -/
def placeOrdinary (s : LayoutState) (t : Token) : Gap × LayoutState :=
  let s := if t.startsMember then s.breakLine else s
  let spaced := s.previous?.any fun p => p.needsSpace t
  let after := (s.written t).afterToken t
  (s.gap spaced, if t.endsMember then after.breakLine else after)

/-- Writes a token, or leaves it out. -/
def place (trivia : Trivia) (s : LayoutState) (t : Token) (next? : Option Token) :
    Option Gap × LayoutState :=
  if t.isTrivia then
    match trivia with
    | .dropped => (none, s)
    | .kept => let (gap, after) := s.placeTrivia t next?; (some gap, after)
  else
    let (gap, after) :=
      if t.isBlockBrace && t.text == "\x7b" then s.placeOpening t
      else if t.isBlockBrace && t.text == "\x7d" then s.placeClosing t next?
      else s.placeOrdinary t
    (some gap, after)

end LayoutState

/-- A token and what stands before it. -/
structure Placed where
  gap : Gap
  token : Token
  deriving DecidableEq, Repr

/-- Places a sequence of tokens; also gives the break that is due after the last one. -/
def placeAll (trivia : Trivia) (s : LayoutState) : List Token → List Placed × Break
  | [] => ([], s.due)
  | t :: rest =>
    let (gap?, after) := s.place trivia t rest.head?
    let (placed, due) := placeAll trivia after rest
    match gap? with
    | none => (placed, due)
    | some gap => (⟨gap, t⟩ :: placed, due)

end ClassAtlas
