import ClassAtlas.Proofs.Layout.Statements

/-!
# Lines of directives

A directive that the tree keeps on a single row is written in one piece, and its line ends with it.
A directive on several rows is written piece by piece, like code. Then nothing ends its line unless
the piece ends a member or the next token asks for a line of its own: in a block, what a condition
guards is written on the line of the condition.
-/
namespace ClassAtlas

/-! ### Lines of a text -/

/-- Of four consecutive parts of a text, the last token begins on the line on which the second one
ends. -/
def SharesLine (options : LayoutOptions) (before : List Placed) (p : Placed)
    (middle : List Placed) (q : Placed) : Prop :=
  Text.feedCount (placedText options (before ++ [p])) =
    Text.feedCount (placedText options (before ++ p :: middle) ++ q.gap.text options)

section Lines

variable {options : LayoutOptions}

theorem placedText_append (left right : List Placed) :
    placedText options (left ++ right) = placedText options left ++ placedText options right := by
  simp [placedText, String.join_append]

theorem placedText_cons (p : Placed) (rest : List Placed) :
    placedText options (p :: rest) =
      p.gap.text options ++ p.token.text ++ placedText options rest := by
  simp [placedText]

theorem feedCount_eq_zero {s : String} : Text.feedCount s = 0 ↔ '\n' ∉ s.toList :=
  List.count_eq_zero

variable (feed : '\n' ∈ options.newline.toList)

include feed in
theorem feedCount_gap (gap : Gap) :
    Text.feedCount (gap.text options) = 0 ↔ gap.isBreak = false := by
  have newline : 0 < Text.feedCount options.newline := List.count_pos_iff.mpr feed
  cases gap with
  | start | tight => simp [Gap.text, Gap.isBreak, Text.feedCount]
  | space => exact iff_of_true (show Text.feedCount " " = 0 by decide) rfl
  | line depth | blankLine depth =>
    refine iff_of_false ?_ (by simp [Gap.isBreak])
    rw [Gap.text]
    simp only [Text.feedCount_append]
    omega

include feed in
/-- Tokens stand on one line exactly when no gap up to the last of them ends a line and no token
between them does. -/
theorem sharesLine_iff (before middle : List Placed) (p q : Placed) :
    SharesLine options before p middle q ↔
      (∀ x ∈ middle ++ [q], x.gap.isBreak = false) ∧ ∀ x ∈ middle, '\n' ∉ x.token.text.toList := by
  have inside : Text.feedCount (placedText options middle) = 0 ↔
      ∀ x ∈ middle, x.gap.isBreak = false ∧ '\n' ∉ x.token.text.toList := by
    induction middle with
    | nil => simp [placedText, Text.feedCount]
    | cons x rest ih =>
      rw [placedText_cons, Text.feedCount_append, Text.feedCount_append, List.forall_mem_cons,
        Nat.add_eq_zero_iff, Nat.add_eq_zero_iff, feedCount_gap feed, feedCount_eq_zero, ih]
  have counted : SharesLine options before p middle q ↔
      Text.feedCount (placedText options middle) = 0 ∧
        Text.feedCount (q.gap.text options) = 0 := by
    rw [SharesLine, List.append_cons before p middle, placedText_append _ middle,
      Text.feedCount_append, Text.feedCount_append]
    omega
  rw [counted, inside, feedCount_gap feed]
  simp only [List.forall_mem_append, List.forall_mem_singleton, forall_and]
  tauto

end Lines

namespace Node

/-! ### Next to a directive -/

/-- A token that begins with a number sign is a directive or the beginning of one. -/
def isDirectiveMark (p : Placed) : Bool := Text.startsWith "#" p.token.text

theorem not_active_of_isDirectiveMark {p : Placed} (mark : isDirectiveMark p = true) :
    p.token.text ∉ LayoutState.activeTexts := by
  have others : ∀ s ∈ LayoutState.activeTexts, Text.startsWith "#" s = false := by decide
  intro active
  rw [isDirectiveMark, others _ active] at mark
  cases mark

theorem not_isBlockEdge_of_mark {n : Node} {y : Node × Placed} (member : y ∈ n.placedLeaves)
    (mark : isDirectiveMark y.2 = true) : y.1.isBlockEdge = false := by
  obtain ⟨marks, isLeaf⟩ := marks_of_mem member
  rw [isBlockEdge, ← marks.edge?_eq isLeaf]
  cases edge : y.2.token.edge? with
  | none => rfl
  | some edge' =>
    have known : ["(", ")", "\x7b", "\x7d"] ⊆ LayoutState.activeTexts := by decide
    exact absurd (known (Token.text_of_edge? edge)) (not_active_of_isDirectiveMark mark)

/-- The leaf after another one stays on its line if nothing is due: a comment or directive when it
begins on the row on which the other one ends, code when it is no block brace and begins no
member. -/
def StaysBehind (n : Node) (x y : Node × Placed) : Prop :=
  if y.1.isTrivia then x.2.token.endRow = y.2.token.startRow
  else y.1.isBlockEdge = false ∧ ¬BeginsMember n.subtree y.1

/-- A break is due after a leaf when the next one is placed. -/
def breakDue (before : List (Node × Placed)) (x y : Node × Placed)
    (later : List (Node × Placed)) : Bool :=
  ((LayoutState.stateAt (before.map Prod.snd) x.2 ((y :: later).map Prod.snd)).place .kept
    x.2.token (some y.2.token)).2.due != .none

theorem asksForLine_eq_false_iff {n : Node} {x y : Node × Placed} (member : y ∈ n.placedLeaves) :
    y.2.token.asksForLine (some x.2.token) = false ↔ StaysBehind n x y := by
  obtain ⟨marks, isLeaf⟩ := marks_of_mem member
  rw [StaysBehind]
  cases trivia : y.1.isTrivia with
  | true =>
    rw [← marks.isTrivia_eq] at trivia
    rw [if_pos rfl, Token.asksForLine, if_pos trivia, Token.sharesRow]
    simp
  | false =>
    rw [← marks.isTrivia_eq] at trivia
    have block : y.2.token.isBlockEdge = y.1.isBlockEdge := by
      rw [Token.isBlockEdge, marks.edge?_eq isLeaf, isBlockEdge]
    rw [if_neg Bool.false_ne_true, Token.asksForLine_of_code trivia, Bool.or_eq_false_iff, block,
      ← marks.startsMember_iff (marks.isComment_eq_false trivia), Bool.not_eq_true]

/-- No line ends between neighbours when no break is due and the second one stays behind the
first. -/
theorem unbroken_next_iff {n : Node} {before later : List (Node × Placed)} {x y : Node × Placed}
    (split : n.placedLeaves = before ++ x :: y :: later) : y.2.gap.isBreak = false ↔
      breakDue before x y later = false ∧ StaysBehind n x y := by
  have member : y ∈ n.placedLeaves := by simp [split]
  obtain ⟨-, ends⟩ := isBreak_next split List.head?_cons
  rw [← asksForLine_eq_false_iff member, Bool.eq_false_iff, ne_eq, ends, not_or, breakDue]
  simp

/-- Where a leaf and a later one are written, with respect to directives. -/
structure DirectiveLines (options : LayoutOptions) (n : Node) (before : List (Node × Placed))
    (x : Node × Placed) (middle : List (Node × Placed)) (y : Node × Placed)
    (later : List (Node × Placed)) : Prop where
  /-- The two share a line unless a gap or a token in between ends it. -/
  exactly : SharesLine options (before.map Prod.snd) x.2 (middle.map Prod.snd) y.2 ↔
    (∀ z ∈ middle ++ [y], z.2.gap.isBreak = false) ∧
      ∀ z ∈ middle, '\n' ∉ z.2.token.text.toList
  /-- Nothing is written behind a directive that is one token. -/
  behindUnit : Token.isDirectiveKind x.1.kind = true →
    ¬SharesLine options (before.map Prod.snd) x.2 (middle.map Prod.snd) y.2
  /-- A directive that is one token is written behind nothing but what stands on its own row. -/
  beforeUnit : Token.isDirectiveKind y.1.kind = true →
    (∀ z ∈ (x :: middle).getLast?, z.2.token.endRow ≠ y.2.token.startRow) →
    ¬SharesLine options (before.map Prod.snd) x.2 (middle.map Prod.snd) y.2
  /-- The next token is written behind a piece of a directive, unless the piece ends a member or the
  token asks for a line. -/
  behindPiece : isDirectiveMark x.2 = true → x.1.isTrivia = false → middle = [] →
    (SharesLine options (before.map Prod.snd) x.2 [] y.2 ↔
      ¬EndsMember n.subtree x.1 ∧ StaysBehind n x y)
  /-- A piece of a directive is written behind the token before it, unless that one has ended its
  line or the piece begins a member. -/
  beforePiece : isDirectiveMark y.2 = true → y.1.isTrivia = false → middle = [] →
    (SharesLine options (before.map Prod.snd) x.2 [] y.2 ↔
      breakDue before x y later = false ∧ ¬BeginsMember n.subtree y.1)

/-- After a directive that is one token a line break is due, whatever comes next. -/
theorem breakDue_of_unit {n : Node} {before later : List (Node × Placed)} {x y : Node × Placed}
    (split : n.placedLeaves = before ++ x :: y :: later)
    (unit : Token.isDirectiveKind x.1.kind = true) : breakDue before x y later = true := by
  obtain ⟨marks, -⟩ := marks_of_mem (by simp [split] : x ∈ n.placedLeaves)
  have trivia : x.2.token.isTrivia = true := by
    rw [marks.isTrivia_eq, isTrivia, unit, Bool.or_true]
  have kind : x.2.token.unmarked.kind = x.1.kind := kind_of_token? marks.token
  have ends : Token.isDirectiveKind x.2.token.kind = true := kind ▸ unit
  rw [breakDue, LayoutState.due_place_trivia _ trivia, LayoutState.endsLine, ends]
  simp

theorem breakDue_of_piece {n : Node} {before later : List (Node × Placed)} {x y : Node × Placed}
    (split : n.placedLeaves = before ++ x :: y :: later) (mark : isDirectiveMark x.2 = true)
    (code : x.1.isTrivia = false) :
    breakDue before x y later = false ↔ ¬EndsMember n.subtree x.1 := by
  obtain ⟨marks, -⟩ := marks_of_mem (by simp [split] : x ∈ n.placedLeaves)
  rw [← marks.isTrivia_eq] at code
  rw [breakDue, LayoutState.due_place_passive code (not_active_of_isDirectiveMark mark),
    ← marks.endsMember_iff (marks.isComment_eq_false code)]
  cases x.2.token.endsMember <;> simp

theorem directiveLines {n : Node} {options : LayoutOptions}
    (feed : '\n' ∈ options.newline.toList) {before middle later : List (Node × Placed)}
    {x y : Node × Placed} (split : n.placedLeaves = before ++ x :: (middle ++ y :: later)) :
    DirectiveLines options n before x middle y later := by
  have exactly : SharesLine options (before.map Prod.snd) x.2 (middle.map Prod.snd) y.2 ↔
      (∀ z ∈ middle ++ [y], z.2.gap.isBreak = false) ∧
        ∀ z ∈ middle, '\n' ∉ z.2.token.text.toList := by
    have whole : middle.map Prod.snd ++ [y.2] = (middle ++ [y]).map Prod.snd := by simp
    rw [sharesLine_iff feed, whole, List.forall_mem_map, List.forall_mem_map]
  have neighbours (alone : middle = []) :
      SharesLine options (before.map Prod.snd) x.2 [] y.2 ↔
        breakDue before x y later = false ∧ StaysBehind n x y := by
    subst alone
    rw [← unbroken_next_iff split]
    simpa using exactly
  constructor
  case exactly => exact exactly
  case behindUnit =>
    intro unit shares
    obtain ⟨unbroken, -⟩ := exactly.mp shares
    -- Already the first leaf behind the directive begins a new line.
    cases middle with
    | nil =>
      have same := (unbroken_next_iff split).mp (unbroken y (by simp))
      rw [breakDue_of_unit split unit] at same
      exact absurd same.1 (by simp)
    | cons z rest =>
      have same := (unbroken_next_iff split).mp (unbroken z (by simp))
      rw [breakDue_of_unit split unit] at same
      exact absurd same.1 (by simp)
  case beforeUnit =>
    intro unit apart shares
    obtain ⟨unbroken, -⟩ := exactly.mp shares
    obtain ⟨front, z, last⟩ : ∃ front z, x :: middle = front ++ [z] :=
      ⟨_, _, (List.dropLast_append_getLast (List.cons_ne_nil x middle)).symm⟩
    have split' : n.placedLeaves = (before ++ front) ++ z :: y :: later := by
      rw [split, ← List.cons_append, last]
      simp
    obtain ⟨-, stays⟩ := (unbroken_next_iff split').mp (unbroken y (by simp))
    have trivia : y.1.isTrivia = true := by rw [isTrivia, unit, Bool.or_true]
    rw [StaysBehind, if_pos trivia] at stays
    exact apart z (by rw [last]; simp) stays
  case behindPiece =>
    intro mark code alone
    rw [neighbours alone]
    subst alone
    rw [breakDue_of_piece split mark code]
  case beforePiece =>
    intro mark code alone
    rw [neighbours alone, StaysBehind, if_neg (by simp [code])]
    have member : y ∈ n.placedLeaves := by simp [split]
    rw [not_isBlockEdge_of_mark member mark]
    simp

end Node

/-- In normalized text a directive keeps its line if it is one token. A directive on several rows
shares its lines with other code exactly where nothing else ends them. -/
theorem directives_share_lines (n : Node) (options : LayoutOptions)
    (blank_newline : Text.allBlank options.newline = true)
    (feed : '\n' ∈ options.newline.toList) :
    n.normalized options = placedText options (n.placedLeaves.map Prod.snd) ∧
      ∀ before x middle y later, n.placedLeaves = before ++ x :: (middle ++ y :: later) →
        n.DirectiveLines options before x middle y later := by
  refine ⟨?_, fun before x middle y later split => Node.directiveLines feed split⟩
  rw [n.map_snd_placedLeaves]
  exact n.normalized_eq_placedText blank_newline

/-! ### A call under a condition -/

/-- The body of a method that calls a function under a condition of the preprocessor. -/
def conditionalCall : Node :=
  .root (.node ⟨"block", none, true, false, ⟨0, 22, 0, 4⟩, "\x7b\n#if X\nF();\n#endif\n\x7d"⟩
    [literalTree "\x7b" false "\x7b" 0 0,
      .node ⟨"preproc_if", none, true, false, ⟨2, 20, 1, 3⟩, "#if X\nF();\n#endif"⟩
        [literalTree "#if" false "#if" 2 1, literalTree "identifier" true "X" 6 1,
          .node ⟨"expression_statement", none, true, false, ⟨8, 12, 2, 2⟩, "F();"⟩
            [literalTree "identifier" true "F" 8 2, literalTree "(" false "(" 9 2,
              literalTree ")" false ")" 10 2, literalTree ";" false ";" 11 2],
          literalTree "#endif" false "#endif" 13 3],
      literalTree "\x7d" false "\x7d" 20 4])

/-- The call moves to the line of the condition. -/
theorem conditionalCall_moves :
    Text.allBlank LayoutOptions.standard.newline = true ∧
      '\n' ∈ LayoutOptions.standard.newline.toList ∧
      conditionalCall.normalized .standard =
        "\x7b\n    #if X F();\n    #endif\n\x7d" ∧
      ∃ before x middle y later,
        conditionalCall.placedLeaves = before ++ x :: (middle ++ y :: later) ∧
        x.2.token.text = "#if" ∧ y.2.token.text = "F" ∧ x.2.token.endRow < y.2.token.startRow ∧
        SharesLine .standard (before.map Prod.snd) x.2 (middle.map Prod.snd) y.2 := by
  have newline : Text.allBlank LayoutOptions.standard.newline = true := by decide
  have feed : '\n' ∈ LayoutOptions.standard.newline.toList := by decide
  obtain ⟨text, lines⟩ := directives_share_lines conditionalCall .standard newline feed
  refine ⟨newline, feed, ?_, ?_⟩
  · rw [text]
    decide +kernel
  · let all := conditionalCall.placedLeaves
    let leaf (i : Nat) : Node × Placed := all.getD i (conditionalCall, ⟨.start, default⟩)
    have split : all = all.take 1 ++ leaf 1 :: ([leaf 2] ++ leaf 3 :: all.drop 4) := by
      have known : 3 < all.length := by decide +kernel
      have read (i : Nat) (inside : i ≤ 3) : leaf i :: all.drop (i + 1) = all.drop i := by
        rw [List.drop_eq_getElem_cons (Nat.lt_of_le_of_lt inside known)]
        simp [leaf, Nat.lt_of_le_of_lt inside known]
      rw [List.singleton_append, read 3 (by decide), read 2 (by decide), read 1 (by decide),
        List.take_append_drop]
    refine ⟨_, _, _, _, _, split, by decide +kernel, by decide +kernel, by decide +kernel, ?_⟩
    exact (lines _ _ _ _ _ split).exactly.mpr (by decide +kernel)

end ClassAtlas
