import ClassAtlas.Layout.Normal
import ClassAtlas.Proofs.Layout.Leaves
import ClassAtlas.Proofs.Layout.Steps

/-!
# Normalizing only changes blanks

Normalized text consists of the leaves of a subtree, each once and in document order, with a
separator between any two: nothing, one space, or the end of a line and perhaps an empty line, with
the next line indented. A comment that runs to the end of its line is followed by such an end. When
the source had nothing but blanks between its leaves, only blanks have changed.
-/
namespace ClassAtlas

/-- A separator that ends the line. -/
inductive LineBreak (options : LayoutOptions) : String → Prop
  | line (depth : Nat) : LineBreak options (options.newline ++ repeated options.indent depth)
  | blankLine (depth : Nat) :
      LineBreak options (options.newline ++ options.newline ++ repeated options.indent depth)

/-- What layout writes between two tokens. -/
inductive Separator (options : LayoutOptions) : String → Prop
  | tight : Separator options ""
  | space : Separator options " "
  | broken {gap : String} : LineBreak options gap → Separator options gap

/-- A written text, and whether it is a comment that runs to the end of its line. -/
structure Piece where
  text : String
  isLineComment : Bool
  deriving DecidableEq, Repr

/-- A text consists of the given pieces, in order, with separators in between. -/
inductive Woven (options : LayoutOptions) : List Piece → String → Prop
  | empty : Woven options [] ""
  | last (piece : Piece) : Woven options [piece] piece.text
  | next {piece following : Piece} {rest : List Piece} {gap text : String} :
      Separator options gap → (piece.isLineComment = true → LineBreak options gap) →
      Woven options (following :: rest) text →
      Woven options (piece :: following :: rest) (piece.text ++ gap ++ text)

/-- A text consists of the given texts, in order, with nothing but blanks around them. -/
inductive Apart : List String → String → Prop
  | blank {text : String} : Text.allBlank text = true → Apart [] text
  | next {gap piece text : String} {rest : List String} :
      Text.allBlank gap = true → Apart rest text → Apart (piece :: rest) (gap ++ piece ++ text)

def Token.piece (t : Token) : Piece := ⟨t.text, t.kind == "comment" && t.isLineComment⟩

namespace Node

def piece (n : Node) : Piece :=
  ⟨n.writtenText, n.isComment && Text.startsWith "//" n.writtenText⟩

/-- The pieces of a subtree in document order. -/
def pieces (n : Node) : List Piece := n.writtenLeaves.map piece

/-- All source text of the node between its leaves is blank. -/
def OnlyBlanksBetween (n : Node) : Prop := Apart (n.leaves.map text) n.text

theorem map_piece_token? (n : Node) :
    n.token?.map Token.piece = if n.writtenText.isEmpty then none else some n.piece := by
  unfold token? writtenText
  dsimp only
  split <;> rfl

theorem map_piece_tokens (n : Node) : n.tokens.map Token.piece = n.pieces := by
  rw [map_tokens Token.piece (fun _ => rfl), pieces, writtenLeaves]
  -- A leaf without visible text gives neither a token nor a piece.
  induction n.leaves with
  | nil => rfl
  | cons leaf rest ih =>
    have head := map_piece_token? leaf
    cases empty : leaf.writtenText.isEmpty with
    | true =>
      have gone : leaf.token? = none := by simpa [empty] using head
      simpa [gone, empty] using ih
    | false =>
      obtain ⟨t, found, same⟩ : ∃ t, leaf.token? = some t ∧ t.piece = leaf.piece := by
        simpa [empty] using head
      simpa [found, empty, same] using ih

theorem token?_endsVisible {n : Node} {t : Token} (found : n.token? = some t) :
    Text.EndsVisible t.text := by
  unfold token? at found
  dsimp only at found
  split at found
  · cases found
  next left =>
    cases found
    exact Text.endsVisible_trimEnd fun gone => left (String.isEmpty_iff.mpr gone)

theorem tokens_endsVisible (n : Node) : ∀ t ∈ n.tokens, Text.EndsVisible t.text := by
  intro t member
  -- Marks do not change texts, so the token may be taken from a leaf.
  have written : t.text ∈ (n.leaves.filterMap token?).map Token.text :=
    map_tokens Token.text (fun _ => rfl) n ▸ List.mem_map_of_mem member
  obtain ⟨bare, found, same⟩ := List.mem_map.mp written
  obtain ⟨leaf, _, made⟩ := List.mem_filterMap.mp found
  exact same ▸ token?_endsVisible made

end Node

section

variable {options : LayoutOptions}

/-! ### From gaps to separators -/

theorem Break.Allows.separator {due : Break} {gap : Gap} (allowed : due.Allows gap)
    (later : due ≠ .atStart) : Separator options (gap.text options) := by
  cases allowed with
  | atStart => exact absurd rfl later
  | tight => exact .tight
  | space => exact .space
  | broken depth | line depth => exact .broken (.line depth)
  | blankLine depth => exact .broken (.blankLine depth)

theorem Break.Allows.lineBreak {gap : Gap} (allowed : Break.line.Allows gap) :
    LineBreak options (gap.text options) := by
  cases allowed with
  | line depth => exact .line depth

/-- A comment that runs to the end of its line leaves a line break due. -/
theorem due_after_lineComment (s : LayoutState) {t : Token} (comment : t.piece.isLineComment = true)
    (next? : Option Token) : (s.place .kept t next?).2.due = .line := by
  obtain ⟨kind, slashes⟩ : t.kind = "comment" ∧ t.isLineComment = true := by
    simpa [Token.piece] using comment
  have trivia : t.isTrivia = true := by simp [Token.isTrivia, kind]
  rw [LayoutState.due_place_trivia s trivia, LayoutState.endsLine, slashes]
  rfl

/-- The text of placed tokens before it is trimmed. -/
def placedText (options : LayoutOptions) (placed : List Placed) : String :=
  String.join (placed.map fun p => p.gap.text options ++ p.token.text)

/-- Placing tokens writes a gap that fits what was due and then weaves all of them. -/
theorem placeAll_woven (s : LayoutState) (t : Token) (rest : List Token) :
    ∃ gap text, s.due.Allows gap ∧ Woven options ((t :: rest).map Token.piece) text ∧
      placedText options (placeAll .kept s (t :: rest)).1 = gap.text options ++ text := by
  obtain ⟨gap, placed, allowed⟩ := s.place_kept_gap t rest.head?
  rw [placeAll_cons placed]
  cases rest with
  | nil =>
    refine ⟨gap, t.text, allowed, .last t.piece, ?_⟩
    simp [placeAll, placedText]
  | cons next later =>
    -- The gap before the next token separates, since a token has been written by now.
    obtain ⟨between, text, fits, woven, written⟩ :=
      placeAll_woven (s.place .kept t (some next)).2 next later
    refine ⟨gap, t.text ++ between.text options ++ text, allowed, .next ?_ ?_ woven, ?_⟩
    · exact fits.separator (s.due_place_kept_ne_atStart t _)
    · intro comment
      exact (due_after_lineComment s comment (some next) ▸ fits).lineBreak
    · simp only [placedText, List.map_cons, String.join_cons] at written ⊢
      rw [List.head?_cons, written]
      simp only [String.append_assoc]

theorem Woven.endsVisible {pieces : List Piece} {text : String} (woven : Woven options pieces text)
    (visible : ∀ piece ∈ pieces, Text.EndsVisible piece.text) (some_piece : pieces ≠ []) :
    Text.EndsVisible text := by
  induction woven with
  | empty => exact absurd rfl some_piece
  | last piece => exact visible piece (by simp)
  | next _ _ _ ih =>
    exact Text.endsVisible_append _
      (ih (fun piece member => visible piece (List.mem_cons_of_mem _ member)) (by simp))

/-! ### What trimming leaves -/

variable (blank_newline : Text.allBlank options.newline = true)

include blank_newline in
theorem allBlank_due (due : Break) : Text.allBlank (due.text options) = true := by
  cases due <;> simp [Break.text, blank_newline] <;> rfl

include blank_newline in
/-- Only breaks after the last token are trimmed when each token ends in a visible character. -/
theorem layoutLines_eq_placedText (tokens : List Token)
    (visible : ∀ t ∈ tokens, Text.EndsVisible t.text) :
    layoutLines options tokens = placedText options (placeAll .kept .initial tokens).1 := by
  -- The break that is due at the end is blank, and before it stands a visible character.
  have trimmed : layoutLines options tokens =
      Text.trimEnd (placedText options (placeAll .kept .initial tokens).1) :=
    Text.trimEnd_append _ (allBlank_due blank_newline _)
  cases tokens with
  | nil => exact trimmed
  | cons t rest =>
    obtain ⟨gap, text, _, woven, written⟩ := @placeAll_woven options .initial t rest
    have ends : Text.EndsVisible text := woven.endsVisible
      (by simpa [Token.piece] using visible) (by simp)
    rw [trimmed, written]
    exact Text.trimEnd_of_endsVisible (Text.endsVisible_append _ ends)

include blank_newline in
theorem layoutLines_woven (tokens : List Token)
    (visible : ∀ t ∈ tokens, Text.EndsVisible t.text) :
    Woven options (tokens.map Token.piece) (layoutLines options tokens) := by
  rw [layoutLines_eq_placedText blank_newline tokens visible]
  cases tokens with
  | nil => exact .empty
  | cons t rest =>
    obtain ⟨gap, text, allowed, woven, written⟩ := @placeAll_woven options .initial t rest
    -- Nothing has been written before the first token, so nothing stands before it.
    have start : gap = .start := by
      cases allowed with
      | atStart => rfl
    rw [written, start]
    simpa [Gap.text] using woven

/-! ### Without blanks -/

theorem Apart.compact {pieces : List String} {text : String} (apart : Apart pieces text) :
    Text.compact text = String.join (pieces.map Text.compact) := by
  induction apart with
  | blank gap => simpa using Text.compact_of_allBlank gap
  | next gap _ ih =>
    rw [List.map_cons, String.join_cons, ← ih, Text.compact_append, Text.compact_append,
      Text.compact_of_allBlank gap]
    simp

variable (blank_indent : Text.allBlank options.indent = true)

include blank_indent in
theorem allBlank_repeated_indent (depth : Nat) :
    Text.allBlank (repeated options.indent depth) = true := by
  unfold repeated
  induction depth with
  | zero => rfl
  | succ depth ih => simp [List.replicate_succ, blank_indent, ih]

include blank_newline blank_indent in
theorem LineBreak.allBlank {gap : String} (broken : LineBreak options gap) :
    Text.allBlank gap = true := by
  cases broken with
  | line depth => simp [blank_newline, allBlank_repeated_indent blank_indent depth]
  | blankLine depth => simp [blank_newline, allBlank_repeated_indent blank_indent depth]

include blank_newline blank_indent in
theorem Separator.allBlank {gap : String} (separates : Separator options gap) :
    Text.allBlank gap = true := by
  cases separates with
  | tight => rfl
  | space => rfl
  | broken broken => exact broken.allBlank blank_newline blank_indent

include blank_newline blank_indent in
theorem Woven.compact {pieces : List Piece} {text : String} (woven : Woven options pieces text) :
    Text.compact text = String.join (pieces.map fun piece => Text.compact piece.text) := by
  induction woven with
  | empty => rfl
  | last piece => simp
  | next separates _ _ ih =>
    have gone := Text.compact_of_allBlank (separates.allBlank blank_newline blank_indent)
    rw [List.map_cons, String.join_cons, ← ih, Text.compact_append, Text.compact_append, gone]
    simp

/-- Blanks apart, the pieces of a node are all that its leaves say. -/
theorem Node.join_compact_pieces (n : Node) :
    String.join (n.pieces.map fun piece => Text.compact piece.text) =
      String.join ((n.leaves.map Node.text).map Text.compact) := by
  rw [pieces, writtenLeaves]
  induction n.leaves with
  | nil => rfl
  | cons leaf rest ih =>
    have same : Text.compact leaf.writtenText = Text.compact leaf.text := Text.compact_trimEnd _
    -- Leaves without visible text are no pieces, but compacting leaves nothing of them either.
    by_cases empty : leaf.writtenText = ""
    · have silent : Text.compact leaf.text = "" := by rw [← same, empty]; rfl
      simpa [empty, silent] using ih
    · simpa [empty, piece, same] using ih

end

/-- Normalizing changes nothing but blanks: the pieces of the node, and before them those of its
leading comments, come out unchanged and in order. -/
theorem normalized_respaces (n : Node) (options : LayoutOptions)
    (blank_indent : Text.allBlank options.indent = true)
    (blank_newline : Text.allBlank options.newline = true) :
    Woven options n.pieces (n.normalized options) ∧
      Woven options (n.leadingComments.flatMap Node.pieces ++ n.pieces)
        (n.normalizedWithComments options) ∧
      (n.OnlyBlanksBetween → Text.compact (n.normalized options) = Text.compact n.text) := by
  have alone : Woven options n.pieces (n.normalized options) := by
    rw [← n.map_piece_tokens]
    exact layoutLines_woven blank_newline n.tokens n.tokens_endsVisible
  refine ⟨alone, ?_, ?_⟩
  · have pieces : (n.leadingComments.flatMap Node.tokens ++ n.tokens).map Token.piece =
        n.leadingComments.flatMap Node.pieces ++ n.pieces := by
      simp [List.map_flatMap, Node.map_piece_tokens]
    rw [← pieces]
    apply layoutLines_woven blank_newline
    intro t member
    rcases List.mem_append.mp member with leading | own
    · obtain ⟨comment, _, inside⟩ := List.mem_flatMap.mp leading
      exact comment.tokens_endsVisible t inside
    · exact n.tokens_endsVisible t own
  · intro between
    calc Text.compact (n.normalized options)
        = String.join (n.pieces.map fun piece => Text.compact piece.text) :=
          alone.compact blank_newline blank_indent
      _ = String.join ((n.leaves.map Node.text).map Text.compact) := n.join_compact_pieces
      _ = Text.compact n.text := between.compact.symm

/-! ### A block with a comment -/

/-- A childless node on one row. -/
def literalTree (kind : String) (named : Bool) (text : String) (start row : Nat) : Tree :=
  .node ⟨kind, none, named, false, ⟨start, start + text.utf8ByteSize, row, row⟩, text⟩ []

/-- A block on two rows that holds a comment with a blank at its end. -/
def commentedBlock : Node :=
  .root (.node ⟨"block", none, true, false, ⟨0, 11, 0, 1⟩, "\x7b // off \n\x7d"⟩
    [literalTree "\x7b" false "\x7b" 0 0, literalTree "comment" true "// off " 2 0,
      literalTree "\x7d" false "\x7d" 10 1])

theorem leaves_commentedBlock : commentedBlock.leaves = commentedBlock.children := by
  have single : ∀ c ∈ commentedBlock.children, c.leaves = [c] := by
    intro c member
    refine Node.leaves_of_isLeaf ?_
    revert c
    decide
  rw [Node.leaves_of_branch (by decide), List.flatMap_congr single]
  simp

theorem pieces_commentedBlock :
    commentedBlock.pieces = [⟨"\x7b", false⟩, ⟨"// off", true⟩, ⟨"\x7d", false⟩] := by
  rw [Node.pieces, Node.writtenLeaves, leaves_commentedBlock]
  decide

theorem commentedBlock_onlyBlanksBetween : commentedBlock.OnlyBlanksBetween := by
  -- From the back: after the closing brace, between the leaves, and before the opening brace.
  have last : Apart [] "" := .blank rfl
  have closing : Apart ["\x7d"] ("\n" ++ "\x7d" ++ "") := .next (by decide) last
  have comment : Apart ["// off ", "\x7d"] (" " ++ "// off " ++ "\n\x7d") :=
    .next (by decide) closing
  have opening : Apart ["\x7b", "// off ", "\x7d"] ("" ++ "\x7b" ++ " // off \n\x7d") :=
    .next rfl comment
  rw [Node.OnlyBlanksBetween, leaves_commentedBlock]
  exact opening

theorem commentedBlock_respaced :
    Text.allBlank LayoutOptions.standard.indent = true ∧
      Text.allBlank LayoutOptions.standard.newline = true ∧
      commentedBlock.OnlyBlanksBetween ∧
      Woven .standard [⟨"\x7b", false⟩, ⟨"// off", true⟩, ⟨"\x7d", false⟩]
        (commentedBlock.normalized .standard) ∧
      Text.compact (commentedBlock.normalized .standard) = "\x7b//off\x7d" := by
  have blank_indent : Text.allBlank LayoutOptions.standard.indent = true := by decide
  have blank_newline : Text.allBlank LayoutOptions.standard.newline = true := by decide
  have between := commentedBlock_onlyBlanksBetween
  obtain ⟨alone, _, compacted⟩ :=
    normalized_respaces commentedBlock .standard blank_indent blank_newline
  refine ⟨blank_indent, blank_newline, between, pieces_commentedBlock ▸ alone, ?_⟩
  rw [compacted between]
  decide

end ClassAtlas
