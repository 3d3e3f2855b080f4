import ClassAtlas.Proofs.Layout.Independence
import ClassAtlas.Proofs.Layout.Nesting

/-!
# Line breaks

A token begins a new line exactly when a break is due before it or when it asks for a line of its
own: a block brace and the first token of a member always do, and a comment or directive does unless
it trails the token before it. What is due after a token is read off the token and its successor.
-/
namespace ClassAtlas

/-- The gap ends a line. -/
def Gap.isBreak : Gap → Bool
  | .line _ | .blankLine _ => true
  | .start | .tight | .space => false

namespace Token

/-- The token begins a line even if no break is due after the previous one. -/
def asksForLine (t : Token) (previous? : Option Token) : Bool :=
  if t.isTrivia then !t.sharesRow previous? else t.isBlockEdge || t.startsMember

theorem isBlockEdge_of_plain {t : Token} (plain : t.edge? = none) : t.isBlockEdge = false := by
  rw [isBlockEdge, plain]
  rfl

theorem asksForLine_of_code {t : Token} (code : t.isTrivia = false) (previous? : Option Token) :
    t.asksForLine previous? = (t.isBlockEdge || t.startsMember) :=
  if_neg (by simp [code])

theorem asksForLine_of_block {t : Token} {edge : Edge} (bracket : t.edge? = some edge)
    (block : edge.bracket = .blockBrace) (previous? : Option Token) :
    t.asksForLine previous? = true := by
  rw [asksForLine_of_code (isTrivia_of_edge? bracket), isBlockEdge, bracket]
  simp [block]

end Token

theorem gap_of_allows_atStart {gap : Gap} (allowed : Break.atStart.Allows gap) : gap = .start := by
  cases allowed
  rfl

namespace LayoutState

/-! ### Before a token -/

theorem isBreak_gap (s : LayoutState) (spaced : Bool) :
    (s.gap spaced).isBreak = true ↔ s.due ≠ .atStart ∧ s.due ≠ .none := by
  unfold gap
  cases s.due <;> cases spaced <;> simp [Gap.isBreak]

theorem isBreak_gap_breakLine (s : LayoutState) (spaced : Bool) :
    (s.breakLine.gap spaced).isBreak = true ↔ s.due ≠ .atStart := by
  rw [isBreak_gap]
  by_cases due : s.due = .none
  · simp [breakLine_of_none due, due]
  · simp [breakLine_of_ne_none due, due]

/-- A token begins a new line when a break is due or when it asks for one, and is not the first. -/
theorem isBreak_place {s : LayoutState} {t : Token} {next? : Option Token} {gap : Gap}
    (placed : (s.place .kept t next?).1 = some gap) : gap.isBreak = true ↔
      s.due ≠ .atStart ∧ (s.due ≠ .none ∨ t.asksForLine s.previous? = true) := by
  have broken := s.isBreak_gap_breakLine
  rcases s.place_cases t next? with
    ⟨trivia, step⟩ | ⟨opens, step⟩ | ⟨closes, step⟩ | ⟨code, inline, step⟩
  · have read : (s.placeTrivia t next?).1 =
        (if s.trails t then s else s.breakLine).gap true := rfl
    rw [step, Option.some.injEq, read] at placed
    rw [← placed, Token.asksForLine, if_pos trivia, trails, Token.sharesRow]
    by_cases due : s.due = .none
    · split_ifs with shares
      · rw [isBreak_gap]
        simp_all
      · rw [broken]
        simp_all
    · rw [if_neg (by simp [due]), broken]
      simp [due]
  · rw [step, Option.some.injEq, placeOpening] at placed
    rw [← placed, broken, Token.asksForLine_of_block opens rfl]
    simp
  · -- The depth of the line plays no part in whether there is one.
    have shallow : (s.placeClosing t next?).1.isBreak = (s.breakLine.gap false).isBreak := by
      unfold placeClosing LayoutState.gap
      dsimp only
      cases s.breakLine.due <;> rfl
    rw [step, Option.some.injEq] at placed
    rw [← placed, shallow, broken, Token.asksForLine_of_block closes rfl]
    simp
  · have read : (s.placeOrdinary t).1 = (if t.startsMember then s.breakLine else s).gap
        ((if t.startsMember then s.breakLine else s).previous?.any fun p => p.needsSpace t) := rfl
    rw [step, Option.some.injEq, read] at placed
    rw [← placed, Token.asksForLine_of_code code, inline, Bool.false_or]
    split_ifs with starts
    · rw [broken]
      simp [starts]
    · rw [isBreak_gap]
      simp [starts]

/-! ### After a token -/

theorem due_place_opening {t : Token} (opens : t.edge? = some (.opens .blockBrace))
    (s : LayoutState) (next? : Option Token) : (s.place .kept t next?).2.due = .line := by
  rcases s.place_cases t next? with
    ⟨trivia, -⟩ | ⟨-, step⟩ | ⟨closes, -⟩ | ⟨-, inline, -⟩
  · rw [Token.isTrivia_of_edge? opens] at trivia
    cases trivia
  · rw [step]
    exact congrArg due (breakLine_of_none rfl)
  · rw [opens] at closes
    cases closes
  · simp [Token.isBlockEdge, opens, Edge.bracket] at inline

theorem due_afterClosing {s : LayoutState} (due : s.due = .none) (t next : Token) :
    (s.afterClosing t (some next)).due = .none ↔ next.text ∈ [";", ",", ")"] := by
  have line : s.breakLine.due = .line := congrArg LayoutState.due (breakLine_of_none due)
  have blank : s.breakBlank.due = .blankLine := by simp [breakBlank, due]
  simp only [afterClosing]
  split_ifs <;> simp_all

/-- After the closing brace of a block a break is due unless one of certain texts comes next. -/
theorem due_place_closing {t : Token} (closes : t.edge? = some (.closes .blockBrace))
    (s : LayoutState) (next : Token) :
    (s.place .kept t (some next)).2.due = .none ↔ next.text ∈ [";", ",", ")"] := by
  rcases s.place_cases t (some next) with
    ⟨trivia, -⟩ | ⟨opens, -⟩ | ⟨-, step⟩ | ⟨-, inline, -⟩
  · rw [Token.isTrivia_of_edge? closes] at trivia
    cases trivia
  · rw [closes] at opens
    cases opens
  · rw [step]
    exact due_afterClosing rfl t next
  · simp [Token.isBlockEdge, closes, Edge.bracket] at inline

/-- After an ordinary token a break is due where its text asks for one, or where it ends a member.
-/
theorem due_placeOrdinary (s : LayoutState) (t : Token) :
    ∃ before : LayoutState, before.due = .none ∧ before.nesting = s.nesting ∧
      (s.placeOrdinary t).2.due =
        if t.endsMember then (before.afterToken t).breakLine.due
        else (before.afterToken t).due := by
  refine ⟨(if t.startsMember then s.breakLine else s).written t, rfl, ?_, ?_⟩
  · split_ifs <;> simp
  · exact apply_ite due _ _ _

/-- Behind the token the line ends by itself; `statements` tells whether semicolons end statements
there. -/
def endsLineBy (t : Token) (statements : Bool) : Bool :=
  (t.text == ";" && statements) || (t.text == "," && t.parent == "enum_member_declaration_list") ||
    (t.text == ":" && switchLabelParents.contains t.parent) || closesAttributes t

theorem due_afterToken {s : LayoutState} (due : s.due = .none) (t : Token) :
    (s.afterToken t).due = if endsLineBy t s.endsStatements then .line else .none := by
  have line : s.breakLine.due = .line := congrArg LayoutState.due (breakLine_of_none due)
  -- No text is two of these at once.
  unfold afterToken
  split_ifs
  all_goals grind [endsLineBy, closesAttributes]

/-- After code that is no block brace a break is due where the line ends by itself, or where the
token ends a member. -/
theorem due_place_code {t : Token} (code : t.isTrivia = false) (inline : t.isBlockEdge = false)
    (s : LayoutState) (next? : Option Token) : (s.place .kept t next?).2.due =
      if endsLineBy t s.endsStatements || t.endsMember then .line else .none := by
  have step : s.place .kept t next? = (some (s.placeOrdinary t).1, (s.placeOrdinary t).2) := by
    rcases s.place_cases t next? with
      ⟨trivia, -⟩ | ⟨opens, -⟩ | ⟨closes, -⟩ | ⟨-, -, step⟩
    · rw [code] at trivia
      cases trivia
    · simp [Token.isBlockEdge, opens, Edge.bracket] at inline
    · simp [Token.isBlockEdge, closes, Edge.bracket] at inline
    · exact step
  obtain ⟨before, due, nested, after⟩ := s.due_placeOrdinary t
  have same : before.endsStatements = s.endsStatements := by
    simp only [nesting, Nesting.mk.injEq] at nested
    simp only [endsStatements, nested]
  have written := due_afterToken due t
  rw [step, after, ← same]
  cases ends : endsLineBy t before.endsStatements with
  | true =>
    rw [ends, if_pos rfl] at written
    rw [breakLine_of_ne_none (by simp [written]), written]
    simp
  | false =>
    rw [ends, if_neg Bool.false_ne_true] at written
    rw [breakLine_of_none written, written]
    simp

/-- Texts of tokens that end a line by themselves or change the brackets. -/
def activeTexts : List String := ["(", ")", "\x7b", "\x7d", ";", ",", ":", "]"]

/-- After most tokens a break is due only where they end a member. -/
theorem due_place_passive {t : Token} (code : t.isTrivia = false) (passive : t.text ∉ activeTexts)
    (s : LayoutState) (next? : Option Token) :
    (s.place .kept t next?).2.due = if t.endsMember then .line else .none := by
  have plain : t.edge? = none := by
    cases edge : t.edge? with
    | none => rfl
    | some edge' =>
      have known : ["(", ")", "\x7b", "\x7d"] ⊆ activeTexts := by decide
      exact absurd (known (Token.text_of_edge? edge)) passive
  simp only [activeTexts, List.mem_cons, List.not_mem_nil, or_false, not_or] at passive
  rw [due_place_code code (Token.isBlockEdge_of_plain plain)]
  simp [endsLineBy, closesAttributes, passive]

/-- After a semicolon a break is due where statements end, or where it ends a member. -/
theorem due_place_semicolon {t : Token} (code : t.isTrivia = false) (semicolon : t.text = ";")
    (s : LayoutState) (next? : Option Token) :
    (s.place .kept t next?).2.due = if s.endsStatements || t.endsMember then .line else .none := by
  have plain : t.edge? = none := by simp [Token.edge?, code, semicolon]
  rw [due_place_code code (Token.isBlockEdge_of_plain plain)]
  simp [endsLineBy, closesAttributes, semicolon]

/-! ### In a run -/

section Runs

variable {ts : List Token} {before later : List Placed} {p : Placed}

/-- The state in which a token of a run is placed. -/
def stateAt (before : List Placed) (p : Placed) (later : List Placed) : LayoutState :=
  initial.after (p.token :: later.map Placed.token) (before.map Placed.token)

/-- A token that asks for a line, whatever comes before it, begins one. -/
theorem begins_of_split (split : (placeAll .kept initial ts).1 = before ++ p :: later)
    (asks : ∀ previous?, p.token.asksForLine previous? = true) :
    p.gap = .start ∨ p.gap.isBreak = true := by
  have placed := placed_of_split split
  obtain ⟨gap, same, allowed⟩ :=
    (stateAt before p later).place_kept_gap p.token (later.map Placed.token).head?
  obtain rfl : p.gap = gap := Option.some.inj (placed.symm.trans same)
  rw [isBreak_place placed]
  by_cases start : (stateAt before p later).due = .atStart
  · rw [start] at allowed
    exact .inl (gap_of_allows_atStart allowed)
  · exact .inr ⟨start, .inr (asks _)⟩

/-- The next token begins a new line when a break is due after the one before, or when it asks for
a line. -/
theorem isBreak_next {q : Placed}
    (split : (placeAll .kept initial ts).1 = before ++ p :: q :: later) : q.gap.isBreak = true ↔
      ((stateAt before p (q :: later)).place .kept p.token (some q.token)).2.due ≠ .none ∨
        q.token.asksForLine (some p.token) = true := by
  have written : (placeAll .kept initial ts).1 = (before ++ [p]) ++ q :: later := by simp [split]
  have placed := placed_of_split written
  rw [List.map_append, List.map_cons, List.map_nil] at placed
  rw [isBreak_place placed, previous?_after_concat, after_concat]
  have later := due_place_kept_ne_atStart (stateAt before p (q :: later)) p.token (some q.token)
  exact and_iff_right later

/-- A token that does not begin a new line stands there after nothing or a space. -/
theorem gap_of_not_isBreak {gap : Gap} (later : gap ≠ .start) (same : gap.isBreak = false) :
    gap = .tight ∨ gap = .space := by
  cases gap <;> simp_all [Gap.isBreak]

theorem ne_start_of_next {q : Placed}
    (split : (placeAll .kept initial ts).1 = before ++ p :: q :: later) : q.gap ≠ .start := by
  have written : (placeAll .kept initial ts).1 = (before ++ [p]) ++ q :: later := by simp [split]
  have placed := placed_of_split written
  intro start
  rw [start] at placed
  exact place_kept_ne_start (due_after_ne_atStart _ _ (by simp)) placed

/-- Strictly inside the given brackets, semicolons end statements unless the innermost bracket is a
parenthesis or an inline brace. -/
theorem endsStatements_stateAt {bs : List Bracket} (plain : p.token.edge? = none)
    (around : StrictlyAround (before.map Placed.token) p.token (later.map Placed.token) bs) :
    (stateAt before p later).endsStatements = true ↔
      bs.head? = none ∨ bs.head? = some .blockBrace := by
  apply endsStatements_of_nesting
  rw [stateAt, nesting_after, nesting_initial]
  exact Nesting.through_strictlyAround plain around _

end Runs

end LayoutState

end ClassAtlas
