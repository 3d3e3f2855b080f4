import ClassAtlas.Proofs.Layout.Breaks
import ClassAtlas.Proofs.Layout.Members

/-!
# One statement and one member per line

In a tree with matching brackets, block braces, the statements of a block and the members of a type
or file stand on lines of their own. What is separated by semicolons inside parentheses or inline
braces, such as the head of a loop, stays on one line, unless something else breaks it: a comment, a
directive, a block, or a member.
-/
namespace ClassAtlas

/-- The token is the first of the text or comes after the end of a line. -/
def BeginsLine (options : LayoutOptions) (p : Placed) : Prop :=
  p.gap = .start ∨ LineBreak options (p.gap.text options)

theorem lineBreak_of_isBreak {gap : Gap} (ends : gap.isBreak = true) (options : LayoutOptions) :
    LineBreak options (gap.text options) := by
  cases gap with
  | line depth => exact .line depth
  | blankLine depth => exact .blankLine depth
  | start | tight | space => cases ends

namespace Node

/-! ### Leaves in the text -/

/-- The written leaves of a node and how each is placed. -/
def placedLeaves (n : Node) : List (Node × Placed) := n.writtenLeaves.zip n.placed

theorem length_placed (n : Node) : n.writtenLeaves.length = n.placed.length := by
  rw [n.marks_tokens.length_eq, ← n.map_token_placed, List.length_map]

theorem map_snd_placedLeaves (n : Node) : n.placedLeaves.map Prod.snd = n.placed :=
  List.map_snd_zip (Nat.le_of_eq n.length_placed.symm)

theorem placed_of_split {n : Node} {before later : List (Node × Placed)} {leaf : Node} {p : Placed}
    (split : n.placedLeaves = before ++ (leaf, p) :: later) :
    n.placed = before.map Prod.snd ++ p :: later.map Prod.snd := by
  rw [← n.map_snd_placedLeaves, split, List.map_append, List.map_cons]

/-- The token of a placed leaf is its own, with the marks of the members it is in. -/
theorem marks_of_mem {n leaf : Node} {p : Placed} (member : (leaf, p) ∈ n.placedLeaves) :
    Marks n.subtree leaf p.token ∧ leaf.isLeaf = true := by
  have marks := n.marks_tokens
  rw [← n.map_token_placed, List.forall₂_map_right_iff] at marks
  refine ⟨(List.forall₂_iff_zip.mp marks).2 member, ?_⟩
  exact (mem_writtenLeaves (List.of_mem_zip member).1).2

theorem Marks.isTrivia_eq {among : List Node} {leaf : Node} {t : Token}
    (marks : Marks among leaf t) : t.isTrivia = leaf.isTrivia :=
  show t.unmarked.isTrivia = leaf.isTrivia from isTrivia_of_token? marks.token

theorem Marks.isComment_eq_false {among : List Node} {leaf : Node} {t : Token}
    (marks : Marks among leaf t) (code : t.isTrivia = false) : leaf.isComment = false := by
  rw [marks.isTrivia_eq] at code
  exact (Bool.or_eq_false_iff.mp code).1

theorem Marks.edge?_eq {among : List Node} {leaf : Node} {t : Token} (marks : Marks among leaf t)
    (isLeaf : leaf.isLeaf = true) : t.edge? = leaf.edge? :=
  t.edge?_unmarked ▸ edge?_of_token? isLeaf marks.token

theorem Marks.symbol {among : List Node} {leaf : Node} {t : Token} (marks : Marks among leaf t)
    {text : String} (symbol : leaf.isSymbol text = true) : t.isTrivia = false ∧ t.text = text := by
  simp only [isSymbol, Bool.and_eq_true, Bool.not_eq_true', beq_iff_eq] at symbol
  rw [marks.isTrivia_eq]
  exact ⟨symbol.1.2, (text_of_token? marks.token).trans symbol.2⟩

def tokensOf (leaves : List (Node × Placed)) : List Token :=
  (leaves.map Prod.snd).map Placed.token

/-- The leaf is a brace of an indented block. -/
def isBlockEdge (n : Node) : Bool := n.edge?.any fun edge => edge.bracket == .blockBrace

/-- How a leaf of a node is laid out on lines, with what is written before and after it. -/
structure LaidOut (options : LayoutOptions) (n : Node) (before : List (Node × Placed))
    (leaf : Node) (p : Placed) (later : List (Node × Placed)) : Prop where
  /-- Block braces begin lines. -/
  block : leaf.isBlockEdge = true → BeginsLine options p
  /-- Nothing else stands on the line after the opening brace of a block. -/
  opening : leaf.edge? = some (.opens .blockBrace) →
    ∀ q ∈ later.head?, LineBreak options (q.2.gap.text options)
  /-- Members begin lines, unless a comment or directive comes first in them. -/
  member : BeginsMember n.subtree leaf → leaf.isTrivia = false → BeginsLine options p
  /-- Around a semicolon certain brackets are open. -/
  around : leaf.isSymbol ";" = true →
    ∃ bs, StrictlyAround (tokensOf before) p.token (tokensOf later) bs
  /-- A semicolon directly in a block or in no bracket ends the line. -/
  statement : leaf.isSymbol ";" = true →
    ∀ bs, StrictlyAround (tokensOf before) p.token (tokensOf later) bs →
    bs.head? = none ∨ bs.head? = some .blockBrace →
    ∀ q ∈ later.head?, LineBreak options (q.2.gap.text options)
  /-- A semicolon directly in parentheses or inline braces does not end the line by itself. -/
  inline : leaf.isSymbol ";" = true →
    ∀ bs, StrictlyAround (tokensOf before) p.token (tokensOf later) bs →
    bs.head? = some .parenthesis ∨ bs.head? = some .inlineBrace → ¬EndsMember n.subtree leaf →
    ∀ q ∈ later.head?, q.1.isTrivia = false → q.1.isBlockEdge = false →
      ¬BeginsMember n.subtree q.1 → q.2.gap.text options = "" ∨ q.2.gap.text options = " "

/-- What follows a placed leaf begins a new line when a break is due after it or when it asks for
one. -/
theorem isBreak_next {n : Node} {before later : List (Node × Placed)} {x q : Node × Placed}
    (split : n.placedLeaves = before ++ x :: later) (next : q ∈ later.head?) :
    q.2.gap ≠ .start ∧ (q.2.gap.isBreak = true ↔
      ((LayoutState.stateAt (before.map Prod.snd) x.2 (later.map Prod.snd)).place .kept x.2.token
        (some q.2.token)).2.due ≠ .none ∨ q.2.token.asksForLine (some x.2.token) = true) := by
  obtain ⟨rest, rfl⟩ := List.head?_eq_some_iff.mp next
  have placed := placed_of_split split
  rw [List.map_cons] at placed
  exact ⟨LayoutState.ne_start_of_next placed, LayoutState.isBreak_next placed⟩

theorem beginsLine_of_asks {n : Node} (options : LayoutOptions)
    {before later : List (Node × Placed)} {leaf : Node} {p : Placed}
    (split : n.placedLeaves = before ++ (leaf, p) :: later)
    (asks : ∀ previous?, p.token.asksForLine previous? = true) : BeginsLine options p := by
  rcases LayoutState.begins_of_split (placed_of_split split) asks with start | ends
  · exact .inl start
  · exact .inr (lineBreak_of_isBreak ends options)

/-- After a semicolon that ends neither a statement nor a member, code stays on the line unless it
asks for one. -/
theorem gap_after_semicolon {n : Node} {before later : List (Node × Placed)} {leaf : Node}
    {p : Placed} {q : Node × Placed} (split : n.placedLeaves = before ++ (leaf, p) :: later)
    (symbol : leaf.isSymbol ";" = true) (goesOn : (LayoutState.stateAt (before.map Prod.snd) p
      (later.map Prod.snd)).endsStatements = false) (last : ¬EndsMember n.subtree leaf)
    (next : q ∈ later.head?) (code' : q.1.isTrivia = false) (inline : q.1.isBlockEdge = false)
    (first : ¬BeginsMember n.subtree q.1) : q.2.gap = .tight ∨ q.2.gap = .space := by
  have members : (leaf, p) ∈ n.placedLeaves ∧ (q.1, q.2) ∈ n.placedLeaves := by
    rw [split]
    refine ⟨by simp, List.mem_append_right _ (List.mem_cons_of_mem _ (List.mem_of_head? next))⟩
  obtain ⟨marks, isLeaf⟩ := marks_of_mem members.1
  obtain ⟨marks', isLeaf'⟩ := marks_of_mem members.2
  obtain ⟨code, semicolon⟩ := marks.symbol symbol
  have inside : p.token.endsMember = false := by
    rw [Bool.eq_false_iff, ne_eq, marks.endsMember_iff (marks.isComment_eq_false code)]
    exact last
  have unasked : q.2.token.asksForLine (some p.token) = false := by
    have code' := marks'.isTrivia_eq.trans code'
    rw [Token.asksForLine_of_code code', Token.isBlockEdge, marks'.edge?_eq isLeaf']
    have unmarked : q.2.token.startsMember = false := by
      rw [Bool.eq_false_iff, ne_eq, marks'.startsMember_iff (marks'.isComment_eq_false code')]
      exact first
    rw [unmarked, Bool.or_false]
    exact inline
  obtain ⟨later, ends⟩ := isBreak_next split next
  rw [LayoutState.due_place_semicolon code semicolon, goesOn, inside, unasked] at ends
  exact LayoutState.gap_of_not_isBreak later (by simpa using ends)

theorem laidOut {n : Node} (bracketed : n.WellBracketed) (options : LayoutOptions)
    {before later : List (Node × Placed)} {leaf : Node} {p : Placed}
    (split : n.placedLeaves = before ++ (leaf, p) :: later) :
    LaidOut options n before leaf p later := by
  obtain ⟨marks, isLeaf⟩ := marks_of_mem (split ▸ by simp : (leaf, p) ∈ n.placedLeaves)
  have edge := marks.edge?_eq isLeaf
  have breaks {q : Node × Placed} (next : q ∈ later.head?) (due : ((LayoutState.stateAt
      (before.map Prod.snd) p (later.map Prod.snd)).place .kept p.token
        (some q.2.token)).2.due ≠ .none) : LineBreak options (q.2.gap.text options) :=
    lineBreak_of_isBreak ((isBreak_next split next).2.mpr (.inl due)) options
  have ends (symbol : leaf.isSymbol ";" = true) (bs : List Bracket) :=
    @LayoutState.endsStatements_stateAt (before.map Prod.snd) (later.map Prod.snd) p bs (by
      obtain ⟨code, semicolon⟩ := marks.symbol symbol
      simp [Token.edge?, code, semicolon])
  constructor
  case block =>
    intro block
    refine beginsLine_of_asks options split fun previous? => ?_
    rw [isBlockEdge, ← edge] at block
    obtain ⟨edge', bracket, same⟩ := (Option.any_eq_true ..).mp block
    exact Token.asksForLine_of_block bracket (beq_iff_eq.mp same) previous?
  case opening =>
    intro opens q next
    refine breaks next ?_
    rw [LayoutState.due_place_opening (edge.trans opens)]
    decide
  case member =>
    intro member code
    have code := marks.isTrivia_eq.trans code
    have first := (marks.startsMember_iff (marks.isComment_eq_false code)).mpr member
    refine beginsLine_of_asks options split fun previous? => ?_
    rw [Token.asksForLine_of_code code, first, Bool.or_true]
  case around =>
    intro _
    exact bracketed.strictlyAround (tokens_of_split (placed_of_split split))
  case statement =>
    intro symbol bs around inner q next
    obtain ⟨code, semicolon⟩ := marks.symbol symbol
    refine breaks next ?_
    rw [LayoutState.due_place_semicolon code semicolon, (ends symbol bs around).mpr inner,
      Bool.true_or, if_pos rfl]
    decide
  case inline =>
    intro symbol bs around inner last q next code inline first
    have goesOn : (LayoutState.stateAt (before.map Prod.snd) p
        (later.map Prod.snd)).endsStatements = false := by
      rw [Bool.eq_false_iff, ne_eq, ends symbol bs around]
      rcases inner with head | head <;> simp [head]
    rcases gap_after_semicolon split symbol goesOn last next code inline first with tight | space
    · exact .inl (congrArg (Gap.text options) tight)
    · exact .inr (congrArg (Gap.text options) space)

end Node

/-- In normalized text, block braces, statements and members stand on lines of their own, and
semicolons break no line inside parentheses and inline braces. -/
theorem one_statement_per_line (n : Node) (options : LayoutOptions)
    (blank_newline : Text.allBlank options.newline = true) (bracketed : n.WellBracketed) :
    n.normalized options = placedText options (n.placedLeaves.map Prod.snd) ∧
      ∀ before leaf p later, n.placedLeaves = before ++ (leaf, p) :: later →
        n.LaidOut options before leaf p later := by
  refine ⟨?_, fun before leaf p later split => Node.laidOut bracketed options split⟩
  rw [n.map_snd_placedLeaves]
  exact n.normalized_eq_placedText blank_newline

/-! ### A loop in a method -/

/-- A node with the given children on one row, which are all that is read of it here. -/
def branchTree (kind : String) (children : List Tree) : Tree :=
  .node ⟨kind, none, true, false, ⟨0, 0, 0, 0⟩, ""⟩ children

/-- A childless node of the kind and text given. -/
def wordTree (text : String) : Tree := literalTree text false text 0 0

/-- The body of a class with a field and a method that consists of an endless loop. -/
def loopInMethod : Node :=
  let loop := branchTree "for_statement"
    (["for", "(", ";", ";", ")"].map wordTree ++
      [branchTree "expression_statement" (["g", "(", ")", ";"].map wordTree)])
  .root (branchTree "declaration_list"
    [wordTree "\x7b", branchTree "field_declaration" (["int", "a", ";"].map wordTree),
      branchTree "method_declaration"
        (["void", "M", "(", ")"].map wordTree ++
          [branchTree "block" [wordTree "\x7b", loop, wordTree "\x7d"]]),
      wordTree "\x7d"])

theorem loopInMethod_wellBracketed : loopInMethod.WellBracketed :=
  Node.wellBracketed_of_subtree (by decide +kernel)

/-- The members and the statement stand on lines of their own, and the head of the loop is not
broken. -/
theorem loopInMethod_lines :
    Text.allBlank LayoutOptions.standard.newline = true ∧ loopInMethod.WellBracketed ∧
      loopInMethod.normalized .standard = "\x7b\n    int a;\n    void M()\n    \x7b\n" ++
        "        for (;;) g();\n    \x7d\n\x7d" ∧
      ∀ before leaf p later, loopInMethod.placedLeaves = before ++ (leaf, p) :: later →
        loopInMethod.LaidOut .standard before leaf p later := by
  have newline : Text.allBlank LayoutOptions.standard.newline = true := by decide
  obtain ⟨text, lines⟩ :=
    one_statement_per_line loopInMethod .standard newline loopInMethod_wellBracketed
  refine ⟨newline, loopInMethod_wellBracketed, ?_, lines⟩
  rw [text]
  decide +kernel

end ClassAtlas
