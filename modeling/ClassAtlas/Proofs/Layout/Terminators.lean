import ClassAtlas.Failure
import ClassAtlas.Proofs.Layout.Runs

/-!
# What ends the line of a comment

Behind a comment that runs to the end of its line, normalized text has the line terminator of the
settings, and the indentation of the next line. Settings are accepted with any blanks as the line
terminator, but few blanks end a line of source. With the others, what follows such a comment
becomes part of it: exactly the settings whose terminator ends lines never comment out code.
-/
namespace ClassAtlas

namespace Text

/-- The characters that end a line of source. -/
def lineEnds : List Char := ['\n', '\r', '\u0085', '\u2028', '\u2029']

/-- A line ends somewhere in the text. -/
def hasLineEnd (s : String) : Bool := s.toList.any fun c => lineEnds.contains c

@[simp] theorem hasLineEnd_append (left right : String) :
    hasLineEnd (left ++ right) = (hasLineEnd left || hasLineEnd right) := by
  simp [hasLineEnd]

theorem hasLineEnd_repeated (s : String) (count : Nat) :
    hasLineEnd (repeated s count) = true ↔ 0 < count ∧ hasLineEnd s = true := by
  unfold repeated
  induction count with
  | zero => exact iff_of_false (by simp [hasLineEnd]) (by simp)
  | succ count ih =>
    rw [List.replicate_succ, String.join_cons, hasLineEnd_append, Bool.or_eq_true, ih]
    have positive : 0 < count + 1 := Nat.succ_pos count
    tauto

end Text

open Text (hasLineEnd)

/-- A line terminator and an indentation end a line when one of them holds a line end. -/
theorem hasLineEnd_line (options : LayoutOptions) (depth : Nat) :
    hasLineEnd ((Gap.line depth).text options) = true ↔
      hasLineEnd options.newline = true ∨ 0 < depth ∧ hasLineEnd options.indent = true := by
  rw [Gap.text, Text.hasLineEnd_append, Bool.or_eq_true, Text.hasLineEnd_repeated]

theorem Break.Allows.eq_line {gap : Gap} (allowed : Break.line.Allows gap) :
    ∃ depth, gap = .line depth := by
  cases allowed with
  | line depth => exact ⟨depth, rfl⟩

/-- Of two placed tokens in a row the second one begins a line if the first one is a comment that
runs to the end of its line. -/
theorem line_after_lineComment {ts : List Token} {p q : Placed}
    (next : [p, q] <:+: (placeAll .kept .initial ts).1)
    (comment : p.token.piece.isLineComment = true) : ∃ depth, q.gap = .line depth := by
  obtain ⟨before, later, split⟩ := next
  have split' : (placeAll .kept .initial ts).1 = (before ++ [p]) ++ q :: later := by
    rw [← split]
    simp
  have placed := LayoutState.placed_of_split split'
  obtain ⟨gap, written, allowed⟩ := LayoutState.place_kept_gap
    (LayoutState.initial.after (q.token :: later.map Placed.token)
      ((before ++ [p]).map Placed.token)) q.token (later.map Placed.token).head?
  obtain rfl : q.gap = gap := Option.some.inj (placed.symm.trans written)
  -- What is due there is what the comment has left.
  rw [List.map_append, List.map_cons, List.map_nil, LayoutState.after_concat,
    due_after_lineComment _ comment] at allowed
  exact allowed.eq_line

namespace Node

/-- The tokens of the text with leading comments, with what stands before each. -/
def placedWithComments (n : Node) : List Placed :=
  (placeAll .kept .initial (n.leadingComments.flatMap tokens ++ n.tokens)).1

theorem normalizedWithComments_eq_placedText (n : Node) {options : LayoutOptions}
    (blank_newline : Text.allBlank options.newline = true) :
    n.normalizedWithComments options = placedText options n.placedWithComments := by
  refine layoutLines_eq_placedText blank_newline _ fun t member => ?_
  rcases List.mem_append.mp member with leading | own
  · obtain ⟨comment, -, inside⟩ := List.mem_flatMap.mp leading
    exact comment.tokens_endsVisible t inside
  · exact n.tokens_endsVisible t own

end Node

/-- Behind each comment that runs to the end of its line, a line ends before the next token. -/
def LineCommentsEnd (options : LayoutOptions) (placed : List Placed) : Prop :=
  ∀ p q, [p, q] <:+: placed → p.token.piece.isLineComment = true →
    hasLineEnd (q.gap.text options) = true

/-- What is written behind a comment that runs to the end of its line. -/
def CommentsTerminated (options : LayoutOptions) (placed : List Placed) : Prop :=
  ∀ p q, [p, q] <:+: placed → p.token.piece.isLineComment = true →
    ∃ depth, q.gap = .line depth ∧ (hasLineEnd (q.gap.text options) = true ↔
      hasLineEnd options.newline = true ∨ 0 < depth ∧ hasLineEnd options.indent = true)

theorem commentsTerminated (options : LayoutOptions) (ts : List Token) :
    CommentsTerminated options (placeAll .kept .initial ts).1 := by
  intro p q next comment
  obtain ⟨depth, line⟩ := line_after_lineComment next comment
  exact ⟨depth, line, line ▸ hasLineEnd_line options depth⟩

theorem CommentsTerminated.lineCommentsEnd {options : LayoutOptions} {placed : List Placed}
    (terminated : CommentsTerminated options placed)
    (ends : hasLineEnd options.newline = true) : LineCommentsEnd options placed := by
  intro p q next comment
  obtain ⟨_, _, exactly⟩ := terminated p q next comment
  exact exactly.mpr (.inl ends)

/-- A file of a comment and a name. -/
def commentedName : Node :=
  .root (.node ⟨"compilation_unit", none, true, false, ⟨0, 8, 0, 1⟩, "// off\nx"⟩
    [.node ⟨"comment", none, true, false, ⟨0, 6, 0, 0⟩, "// off"⟩ [],
      .node ⟨"identifier", none, true, false, ⟨7, 8, 1, 1⟩, "x"⟩ []])

/-- Outside all blocks nothing but the line terminator ends the line of a comment. -/
theorem hasLineEnd_newline_of_commentedName {options : LayoutOptions}
    (ends : LineCommentsEnd options commentedName.placed) : hasLineEnd options.newline = true := by
  let placed := commentedName.placed
  let p := placed.getD 0 ⟨.start, default⟩
  let q := placed.getD 1 ⟨.start, default⟩
  have line := ends p q (by decide +kernel) (by decide +kernel)
  have outside : q.gap = .line 0 := by decide +kernel
  rw [outside, hasLineEnd_line] at line
  simpa using line

/-- Behind a comment that runs to the end of its line stand the accepted line terminator and an
indentation; code behind comments stays code in all trees exactly if the terminator ends lines. -/
theorem lineComments_end_iff (s : Settings) (accepted : s.validate = .ok ()) :
    (∀ n : Node,
      (n.normalized s.layout = placedText s.layout n.placed ∧
        CommentsTerminated s.layout n.placed) ∧
      n.normalizedWithComments s.layout = placedText s.layout n.placedWithComments ∧
        CommentsTerminated s.layout n.placedWithComments) ∧
    ((∀ n : Node, LineCommentsEnd s.layout n.placed ∧
        LineCommentsEnd s.layout n.placedWithComments) ↔ hasLineEnd s.newline = true) := by
  have blank_newline : Text.allBlank s.layout.newline = true := by
    unfold Settings.validate Settings.flaw? at accepted
    split_ifs at accepted with indent newline
    simp only [Bool.or_eq_true, not_or, Bool.not_eq_true, Bool.not_eq_false'] at newline
    exact newline.2
  refine ⟨fun n => ⟨⟨?_, ?_⟩, ?_, ?_⟩, fun ends => ?_, fun ends n => ⟨?_, ?_⟩⟩
  · exact n.normalized_eq_placedText blank_newline
  · exact commentsTerminated _ _
  · exact n.normalizedWithComments_eq_placedText blank_newline
  · exact commentsTerminated _ _
  · exact hasLineEnd_newline_of_commentedName (ends commentedName).1
  · exact (commentsTerminated _ _).lineCommentsEnd ends
  · exact (commentsTerminated _ _).lineCommentsEnd ends

/-- The standard settings with a space in place of the line terminator. -/
def spaceTerminated : Settings := { Settings.standard with newline := " " }

/-- The settings are accepted, and the name becomes part of the comment. -/
theorem commentedName_commentedOut :
    spaceTerminated.validate = .ok () ∧
      commentedName.normalized spaceTerminated.layout = "// off x" ∧
      ¬∀ n : Node, LineCommentsEnd spaceTerminated.layout n.placed ∧
        LineCommentsEnd spaceTerminated.layout n.placedWithComments := by
  have accepted : spaceTerminated.validate = .ok () := by decide
  obtain ⟨texts, exactly⟩ := lineComments_end_iff spaceTerminated accepted
  refine ⟨accepted, ?_, ?_⟩
  · rw [(texts commentedName).1.1]
    decide +kernel
  · rw [exactly]
    decide

end ClassAtlas
