import ClassAtlas.Proofs.Layout.Directives

/-!
# Comments behind code

A comment that begins on the row on which the token before it ends trails this token. It is written
behind the token only where the line has not ended already: breaks are decided when a token is
written, before it is known that a comment follows. Behind a statement, a block brace or a member a
trailing comment moves to the next line, and there, read again, it leads what comes next.
-/
namespace ClassAtlas

section Rows

variable {options : LayoutOptions}

@[simp] theorem length_writtenRows (text : String) (placed : List Placed) :
    (writtenRows options text placed).length = placed.length := by
  induction placed generalizing text with
  | nil => rfl
  | cons p rest ih => simp [writtenRows, ih]

theorem writtenRows_append (text : String) (left right : List Placed) :
    writtenRows options text (left ++ right) =
      writtenRows options text left ++
        writtenRows options (text ++ placedText options left) right := by
  induction left generalizing text with
  | nil => simp [writtenRows, placedText]
  | cons p rest ih =>
    simp only [List.cons_append, writtenRows, ih, placedText_cons, String.append_assoc]

/-- The row on which a token ends, and the row on which the next one begins. -/
theorem writtenRows_neighbours (before later : List Placed) (p q : Placed) :
    (writtenRows options "" (before ++ p :: q :: later))[before.length]?.map Prod.snd =
        some (Text.feedCount (placedText options (before ++ [p]))) ∧
      (writtenRows options "" (before ++ p :: q :: later))[before.length + 1]?.map Prod.fst =
        some (Text.feedCount (placedText options (before ++ [p]) ++ q.gap.text options)) := by
  have ends : "" ++ placedText options before ++ p.gap.text options ++ p.token.text =
      placedText options (before ++ [p]) := by
    rw [placedText_append, placedText_cons]
    simp [placedText, String.append_assoc]
  have split : ∃ row row' rest, writtenRows options "" (before ++ p :: q :: later) =
      writtenRows options "" before ++
        (row, Text.feedCount (placedText options (before ++ [p]))) ::
          (Text.feedCount (placedText options (before ++ [p]) ++ q.gap.text options), row') ::
            rest := by
    rw [← ends]
    exact ⟨_, _, _, writtenRows_append "" before (p :: q :: later)⟩
  obtain ⟨row, row', rest, split⟩ := split
  rw [split, ← @length_writtenRows options "" before]
  simp

end Rows

namespace Node

/-! ### Breaks that are due before a comment -/

section Due

variable {n : Node} {before later : List (Node × Placed)} {x y : Node × Placed}

theorem breakDue_eq_false_iff : breakDue before x y later = false ↔
    ((LayoutState.stateAt (before.map Prod.snd) x.2 ((y :: later).map Prod.snd)).place .kept
      x.2.token (some y.2.token)).2.due = .none := by
  simp [breakDue]

variable (split : n.placedLeaves = before ++ x :: y :: later)

include split

theorem breakDue_of_opening (opens : x.1.edge? = some (.opens .blockBrace)) :
    breakDue before x y later = true := by
  obtain ⟨marks, isLeaf⟩ := marks_of_mem (by simp [split] : x ∈ n.placedLeaves)
  rw [← Bool.not_eq_false, breakDue_eq_false_iff,
    LayoutState.due_place_opening ((marks.edge?_eq isLeaf).trans opens)]
  decide

theorem breakDue_of_closing (closes : x.1.edge? = some (.closes .blockBrace)) :
    breakDue before x y later = false ↔ y.2.token.text ∈ [";", ",", ")"] := by
  obtain ⟨marks, isLeaf⟩ := marks_of_mem (by simp [split] : x ∈ n.placedLeaves)
  rw [breakDue_eq_false_iff, LayoutState.due_place_closing ((marks.edge?_eq isLeaf).trans closes)]

theorem breakDue_of_code (code : x.1.isTrivia = false) (inline : x.1.isBlockEdge = false) :
    breakDue before x y later = false ↔ ¬EndsMember n.subtree x.1 ∧
      LayoutState.endsLineBy x.2.token (LayoutState.stateAt (before.map Prod.snd) x.2
        ((y :: later).map Prod.snd)).endsStatements = false := by
  obtain ⟨marks, isLeaf⟩ := marks_of_mem (by simp [split] : x ∈ n.placedLeaves)
  rw [← marks.isTrivia_eq] at code
  rw [isBlockEdge, ← marks.edge?_eq isLeaf] at inline
  rw [breakDue_eq_false_iff, LayoutState.due_place_code code inline,
    ← marks.endsMember_iff (marks.isComment_eq_false code)]
  simp [and_comm]

theorem breakDue_of_semicolon (symbol : x.1.isSymbol ";" = true) {bs : List Bracket}
    (around : StrictlyAround (tokensOf before) x.2.token (tokensOf (y :: later)) bs) :
    breakDue before x y later = false ↔ ¬EndsMember n.subtree x.1 ∧
      (bs.head? = some .parenthesis ∨ bs.head? = some .inlineBrace) := by
  obtain ⟨marks, -⟩ := marks_of_mem (by simp [split] : x ∈ n.placedLeaves)
  obtain ⟨code, semicolon⟩ := marks.symbol symbol
  have plain : x.2.token.edge? = none := by simp [Token.edge?, code, semicolon]
  have statements := @LayoutState.endsStatements_stateAt (before.map Prod.snd)
    ((y :: later).map Prod.snd) x.2 bs plain around
  rw [breakDue_eq_false_iff, LayoutState.due_place_semicolon code semicolon,
    ← marks.endsMember_iff (marks.isComment_eq_false code)]
  cases head : bs.head? with
  | none => simp_all
  | some b => cases b <;> simp_all

theorem breakDue_of_trivia (trivia : x.1.isTrivia = true)
    (trails : x.2.token.endRow = y.2.token.startRow) : breakDue before x y later = false ↔
      x.2.token.isLineComment = false ∧ Token.isDirectiveKind x.1.kind = false := by
  obtain ⟨marks, -⟩ := marks_of_mem (by simp [split] : x ∈ n.placedLeaves)
  have kind : x.2.token.kind = x.1.kind :=
    (kind_of_token? marks.token : x.2.token.unmarked.kind = x.1.kind)
  rw [← marks.isTrivia_eq] at trivia
  rw [breakDue_eq_false_iff, LayoutState.due_place_trivia _ trivia, LayoutState.endsLine, ← kind]
  simp [trails]

/-- Behind a member a break is due, unless it ends with a block and the text of what comes next
forbids the break. -/
theorem breakDue_of_member (code : x.1.isTrivia = false) (member : EndsMember n.subtree x.1)
    (others : y.2.token.text ∉ [";", ",", ")"]) : breakDue before x y later = true := by
  rw [← Bool.not_eq_false]
  cases block : x.1.isBlockEdge with
  | false =>
    rw [breakDue_of_code split code block]
    exact fun stays => stays.1 member
  | true =>
    obtain ⟨edge, bracket, same⟩ := (Option.any_eq_true ..).mp block
    rw [beq_iff_eq] at same
    rcases edge with b | b <;> cases same
    · simp [breakDue_of_opening split bracket]
    · rwa [breakDue_of_closing split bracket]

end Due

/-! ### Trailing comments -/

/-- Where a comment is written that trails the leaf `x` in the source. -/
structure TrailingComment (options : LayoutOptions) (n : Node) (before : List (Node × Placed))
    (x y : Node × Placed) (later : List (Node × Placed)) : Prop where
  /-- It stays on the line of the leaf unless a break is due there. -/
  stays : SharesLine options (before.map Prod.snd) x.2 [] y.2 ↔
    breakDue before x y later = false
  /-- It trails the leaf again when the normalized text is read if it has stayed. -/
  rereads : ∀ n', Reread options n n' → ∃ x' y', n'.tokens[before.length]? = some x' ∧
    n'.tokens[before.length + 1]? = some y' ∧
    (x'.endRow = y'.startRow ↔ SharesLine options (before.map Prod.snd) x.2 [] y.2)
  /-- It moves behind the end of a member. -/
  behindMember : x.1.isTrivia = false → EndsMember n.subtree x.1 →
    y.2.token.text ∉ [";", ",", ")"] →
    ¬SharesLine options (before.map Prod.snd) x.2 [] y.2
  /-- Behind a semicolon it moves unless this stands in parentheses or inline braces. -/
  behindSemicolon : x.1.isSymbol ";" = true →
    ∀ bs, StrictlyAround (tokensOf before) x.2.token (tokensOf (y :: later)) bs →
    (SharesLine options (before.map Prod.snd) x.2 [] y.2 ↔ ¬EndsMember n.subtree x.1 ∧
      (bs.head? = some .parenthesis ∨ bs.head? = some .inlineBrace))
  /-- It moves behind the opening brace of a block. -/
  behindOpening : x.1.edge? = some (.opens .blockBrace) →
    ¬SharesLine options (before.map Prod.snd) x.2 [] y.2
  /-- It moves behind the closing brace of a block, unless its text makes it stay. -/
  behindClosing : x.1.edge? = some (.closes .blockBrace) →
    (SharesLine options (before.map Prod.snd) x.2 [] y.2 ↔ y.2.token.text ∈ [";", ",", ")"])
  /-- Behind other code it stays unless the code ends its line by itself or ends a member. -/
  behindCode : x.1.isTrivia = false → x.1.isBlockEdge = false →
    (SharesLine options (before.map Prod.snd) x.2 [] y.2 ↔ ¬EndsMember n.subtree x.1 ∧
      LayoutState.endsLineBy x.2.token (LayoutState.stateAt (before.map Prod.snd) x.2
        ((y :: later).map Prod.snd)).endsStatements = false)
  /-- Behind a comment it stays unless that one runs to the end of its line. -/
  behindTrivia : x.1.isTrivia = true →
    (SharesLine options (before.map Prod.snd) x.2 [] y.2 ↔
      x.2.token.isLineComment = false ∧ Token.isDirectiveKind x.1.kind = false)

theorem trailingComment {n : Node} {options : LayoutOptions}
    (feed : '\n' ∈ options.newline.toList) {before later : List (Node × Placed)}
    {x y : Node × Placed} (split : n.placedLeaves = before ++ x :: y :: later)
    (comment : y.1.isComment = true) (trails : x.2.token.endRow = y.2.token.startRow) :
    TrailingComment options n before x y later := by
  have stays : SharesLine options (before.map Prod.snd) x.2 [] y.2 ↔
      breakDue before x y later = false := by
    have behind : StaysBehind n x y := by
      rwa [StaysBehind, if_pos (by rw [isTrivia, comment, Bool.true_or])]
    rw [sharesLine_iff feed]
    simp [unbroken_next_iff split, behind]
  constructor
  case stays => exact stays
  case rereads =>
    intro n' reread
    have placed : n.placed = before.map Prod.snd ++ x.2 :: y.2 :: later.map Prod.snd := by
      rw [← map_snd_placedLeaves, split]
      simp
    have rows : n'.tokens.map Token.rows = writtenRows options "" n.placed := reread.rows
    obtain ⟨first, second⟩ := @writtenRows_neighbours options (before.map Prod.snd)
      (later.map Prod.snd) x.2 y.2
    rw [← placed, ← rows, List.length_map, List.getElem?_map, Option.map_map,
      Option.map_eq_some_iff] at first second
    obtain ⟨x', found, ends⟩ := first
    obtain ⟨y', found', begins⟩ := second
    refine ⟨x', y', found, found', ?_⟩
    rw [SharesLine, ← ends, ← begins]
    rfl
  case behindMember =>
    intro code member others
    rw [stays, breakDue_of_member split code member others]
    decide
  case behindSemicolon =>
    intro symbol bs around
    exact stays.trans (breakDue_of_semicolon split symbol around)
  case behindOpening =>
    intro opens
    rw [stays, breakDue_of_opening split opens]
    decide
  case behindClosing => exact fun closes => stays.trans (breakDue_of_closing split closes)
  case behindCode => exact fun code inline => stays.trans (breakDue_of_code split code inline)
  case behindTrivia => exact fun trivia => stays.trans (breakDue_of_trivia split trivia trails)

end Node

/-- In normalized text a comment that trails a token in the source is written behind it exactly
where no line break is due: never behind a statement, a block brace or a member. -/
theorem comments_trail_iff (n : Node) (options : LayoutOptions)
    (blank_newline : Text.allBlank options.newline = true)
    (feed : '\n' ∈ options.newline.toList) :
    n.normalized options = placedText options (n.placedLeaves.map Prod.snd) ∧
      ∀ before x y later, n.placedLeaves = before ++ x :: y :: later → y.1.isComment = true →
        x.2.token.endRow = y.2.token.startRow → n.TrailingComment options before x y later := by
  refine ⟨?_, fun before x y later split => Node.trailingComment feed split⟩
  rw [n.map_snd_placedLeaves]
  exact n.normalized_eq_placedText blank_newline

/-! ### A comment behind a field -/

/-- A field of one name on one row. -/
def fieldTree (name : String) (start row : Nat) : Tree :=
  .node ⟨"field_declaration", none, true, false, ⟨start, start + 6, row, row⟩,
      "int " ++ name ++ ";"⟩
    [literalTree "predefined_type" true "int" start row,
      literalTree "identifier" true name (start + 4) row,
      literalTree ";" false ";" (start + 5) row]

/-- The body of a class with two fields and a comment behind the first one. -/
def trailedField : Node :=
  .root (.node ⟨"declaration_list", none, true, false, ⟨0, 28, 0, 1⟩,
      "\x7b int a; // first\n int b; \x7d"⟩
    [literalTree "\x7b" false "\x7b" 0 0, fieldTree "a" 2 0,
      literalTree "comment" true "// first" 9 0, fieldTree "b" 19 1,
      literalTree "\x7d" false "\x7d" 26 1])

/-- The body as it is read again from its normalized text. -/
def ledField : Node :=
  .root (.node ⟨"declaration_list", none, true, false, ⟨0, 38, 0, 4⟩,
      "\x7b\n    int a;\n    // first\n    int b;\n\x7d"⟩
    [literalTree "\x7b" false "\x7b" 0 0, fieldTree "a" 6 1,
      literalTree "comment" true "// first" 17 2, fieldTree "b" 30 3,
      literalTree "\x7d" false "\x7d" 37 4])

/-- A node whose children are leaves is rewritten when their texts are. -/
theorem Node.Rewritten.of_flat {n n' : Node} (branch : n.isLeaf = false)
    (texts : List.Forall₂ (fun c c' => c.isLeaf = true ∧ c'.text = c.writtenText) n.children
      n'.children) : Rewritten n n' :=
  .branch branch (texts.imp fun _ _ pair => .leaf pair.1 pair.2)

theorem trailedField_reread : Node.Reread .standard trailedField ledField where
  shape := rfl
  texts := by
    refine .branch (by decide) (.cons ?opening (.cons ?first (.cons ?comment (.cons ?second
      (.cons ?closing .nil)))))
    case opening => exact .leaf (by decide) (by decide)
    case first => exact .of_flat (by decide) (by decide)
    case comment => exact .leaf (by decide) (by decide)
    case second => exact .of_flat (by decide) (by decide)
    case closing => exact .leaf (by decide) (by decide)
  rows := by decide +kernel
  counted := by
    refine Node.forall_mem_subtree.mpr ⟨by decide +kernel, fun c child => ?_⟩
    apply Node.forall_subtree_of_flat
    · revert c
      decide +kernel
    · revert c
      decide +kernel

/-- The comment behind the first field moves to a line of its own, where it leads the second one. -/
theorem trailedField_leads :
    Text.allBlank LayoutOptions.standard.newline = true ∧
      '\n' ∈ LayoutOptions.standard.newline.toList ∧
      trailedField.normalized .standard =
        "\x7b\n    int a;\n    // first\n    int b;\n\x7d" ∧
      (∃ before x y later, trailedField.placedLeaves = before ++ x :: y :: later ∧
        x.1.isSymbol ";" = true ∧ y.1.isComment = true ∧
        x.2.token.endRow = y.2.token.startRow ∧
        ¬SharesLine .standard (before.map Prod.snd) x.2 [] y.2) ∧
      trailedField.children.map (fun c => c.leadingComments.length) = [0, 0, 0, 0, 0] ∧
      Node.Reread .standard trailedField ledField ∧
      ledField.children.map (fun c => c.leadingComments.length) = [0, 0, 0, 1, 0] := by
  have newline : Text.allBlank LayoutOptions.standard.newline = true := by decide
  have feed : '\n' ∈ LayoutOptions.standard.newline.toList := by decide
  obtain ⟨text, trailing⟩ := comments_trail_iff trailedField .standard newline feed
  refine ⟨newline, feed, ?_, ?_, by decide +kernel, trailedField_reread, by decide +kernel⟩
  · rw [text]
    decide +kernel
  · let all := trailedField.placedLeaves
    let leaf (i : Nat) : Node × Placed := all.getD i (trailedField, ⟨.start, default⟩)
    have split : all = all.take 3 ++ leaf 3 :: leaf 4 :: all.drop 5 := by
      have known : 4 < all.length := by decide +kernel
      have read (i : Nat) (inside : i ≤ 4) : leaf i :: all.drop (i + 1) = all.drop i := by
        rw [List.drop_eq_getElem_cons (Nat.lt_of_le_of_lt inside known)]
        simp [leaf, Nat.lt_of_le_of_lt inside known]
      rw [read 4 (by decide), read 3 (by decide), List.take_append_drop]
    have comment : (leaf 4).1.isComment = true := by decide +kernel
    have trails : (leaf 3).2.token.endRow = (leaf 4).2.token.startRow := by decide +kernel
    have stands := trailing _ _ _ _ split comment trails
    refine ⟨_, _, _, _, split, by decide +kernel, comment, trails, ?_⟩
    rw [stands.stays]
    decide +kernel

end ClassAtlas
