import ClassAtlas.Proofs.Layout.Likeness
import ClassAtlas.Proofs.Layout.Relocation
import Mathlib.Data.List.Basic

/-!
# Placing tokens again

Tokens that are placed a second time, on the rows on which they were written the first time, get the
same gaps. Rows decide where comments and directives stand: one trails the token before it on the
same row, and its line ends before a token on a later row. What the second pass reads off the new
rows is what the first one has written. The passes may differ only in when they ask for a line
break: after a comment in the second one, and not before its successor.
-/
namespace ClassAtlas

/-- The number of line feeds in a text. -/
def Text.feedCount (s : String) : Nat := s.toList.count '\n'

@[simp] theorem Text.feedCount_append (left right : String) :
    feedCount (left ++ right) = feedCount left + feedCount right := by
  simp [feedCount]

theorem Text.feedCount_trimEnd_le (s : String) : feedCount (trimEnd s) ≤ feedCount s :=
  (trimEnd_sublist s).count_le '\n'

/-- The rows on which placed tokens begin and end when they are written after the text `before`. -/
def writtenRows (options : LayoutOptions) (before : String) : List Placed → List (Nat × Nat)
  | [] => []
  | p :: rest =>
    let start := before ++ p.gap.text options
    let stop := start ++ p.token.text
    (Text.feedCount start, Text.feedCount stop) :: writtenRows options stop rest

theorem Token.PlacedAlike.onRows (t : Token) (rows : Nat × Nat) :
    PlacedAlike t (t.onRows rows) where
  text := rfl
  kind := rfl
  isBlockBrace := rfl
  startsMember := rfl
  endsMember := rfl
  place := .inl ⟨rfl, rfl, rfl⟩
  closesAttributes := rfl
  closesMember _ := rfl

open Token (PlacedAlike)

namespace LayoutState

/-- The state when the previous token stands on other rows. -/
def reseat (s : LayoutState) (rows : Nat × Nat) : LayoutState :=
  { s with previous? := s.previous?.map fun p => p.onRows rows }

theorem breakLine_reseat (s : LayoutState) (rows : Nat × Nat) :
    (s.reseat rows).breakLine = s.breakLine.reseat rows := by
  by_cases due : s.due = .none
  · rw [breakLine_of_none due, breakLine_of_none (s := s.reseat rows) due]
    rfl
  · rw [breakLine_of_ne_none due, breakLine_of_ne_none (s := s.reseat rows) due]

/-- Rows play no part in how a token is placed that is neither comment nor directive. -/
theorem place_reseat (s : LayoutState) {t : Token} (code : t.isTrivia = false)
    (next? : Option Token) (before rows nextRows : Nat × Nat) :
    (s.reseat before).place .kept (t.onRows rows) (next?.map fun next => next.onRows nextRows) =
      ((s.place .kept t next?).1, (s.place .kept t next?).2.reseat rows) := by
  have last : Option.Rel PlacedAlike s.previous? (s.previous?.map fun p => p.onRows before) := by
    cases s.previous? with
    | none => exact .none
    | some p => exact .some (.onRows p before)
  have next : (next?.map fun next => next.onRows nextRows).map Token.text =
      next?.map Token.text := by
    cases next? <;> rfl
  have after : (s.place .kept t next?).2.reseat rows =
      (s.place .kept t next?).2.withPrevious (some (t.onRows rows)) := by
    rw [reseat, previous?_place_kept]
    rfl
  rw [after]
  exact place_withPrevious s last (.onRows t rows) code next

/-! ### A break asked for early -/

theorem breakLine_breakLine (s : LayoutState) : s.breakLine.breakLine = s.breakLine :=
  breakLine_of_ne_none s.due_breakLine_ne_none

theorem gap_ne_line {s : LayoutState} (due : s.due = .none) (spaced : Bool) (depth : Nat) :
    s.gap spaced ≠ .line depth := by
  rw [gap, due]
  cases spaced <;> simp

/-- A line break that the next token asks for may as well be due before. -/
theorem place_breakLine {s : LayoutState} (due : s.due = .none) {t : Token} {next? : Option Token}
    {depth : Nat} (line : (s.place .kept t next?).1 = some (.line depth)) :
    s.breakLine.place .kept t next? = s.place .kept t next? := by
  unfold place at line ⊢
  by_cases trivia : t.isTrivia = true
  -- The comment stands on a line of its own, so it does not trail and asks for the break itself.
  · have apart : s.trails t = false := by
      by_contra trails
      rw [if_pos trivia, placeTrivia, if_pos (by simpa using trails)] at line
      exact gap_ne_line due _ _ (Option.some.inj line)
    have broken : s.breakLine.trails t = false := by
      simp [trails, due_breakLine_ne_none]
    simp only [trivia, if_true, placeTrivia, apart, broken, Bool.false_eq_true, if_false,
      breakLine_breakLine]
  · rw [if_neg trivia] at line ⊢
    rw [if_neg trivia]
    simp only [placeOpening, placeClosing, breakLine_breakLine, depth_breakLine]
    -- Block braces always ask for the break; of the other tokens only those that start a member do.
    by_cases opening : (t.isBlockBrace && t.text == "\x7b") = true
    · rw [if_pos opening, if_pos opening]
    · by_cases closing : (t.isBlockBrace && t.text == "\x7d") = true
      · rw [if_neg opening, if_neg opening, if_pos closing, if_pos closing]
      -- Any other token has got the line only because it starts a member.
      · rw [if_neg opening, if_neg opening, if_neg closing, if_neg closing]
        have starts : t.startsMember = true := by
          by_contra inside
          rw [if_neg opening, if_neg closing, placeOrdinary, if_neg inside] at line
          exact gap_ne_line due _ _ (Option.some.inj line)
        simp only [placeOrdinary, starts, if_true, breakLine_breakLine]

/-- Where the second pass stands before `rest` when the first one stands at `s` and the token last
written is on `rows`: the line break that the next token asks for may already be due. -/
inductive Resumes (s : LayoutState) (rows : Nat × Nat) : List Token → LayoutState → Prop
  | same (rest : List Token) : Resumes s rows rest (s.reseat rows)
  | early {t : Token} {later : List Token} {depth : Nat} : s.due = .none →
      (s.place .kept t later.head?).1 = some (.line depth) →
      Resumes s rows (t :: later) (s.breakLine.reseat rows)

/-- The second pass places the next token like the first one, from a state with other rows. -/
theorem Resumes.place {s s' : LayoutState} {rows : Nat × Nat} {t : Token} {later : List Token}
    (resumes : Resumes s rows (t :: later) s') :
    ∃ base : LayoutState, s' = base.reseat rows ∧
      base.place .kept t later.head? = s.place .kept t later.head? ∧
      (base.due = .none → s.due = .none) := by
  cases resumes with
  | same => exact ⟨s, rfl, rfl, id⟩
  | early due line => exact ⟨s.breakLine, rfl, place_breakLine due line, fun _ => due⟩

/-! ### Comments and directives -/

section Passes

variable {options : LayoutOptions}

theorem feedCount_line_pos (feed : '\n' ∈ options.newline.toList) (depth : Nat) :
    0 < Text.feedCount ((Gap.line depth).text options) := by
  have newline : 0 < Text.feedCount options.newline := List.count_pos_iff.mpr feed
  rw [Gap.text, Text.feedCount_append]
  omega

/-- A comment trails the token before it in the second pass exactly when it does in the first. -/
theorem trails_reseat (feed : '\n' ∈ options.newline.toList) {s : LayoutState} {rows : Nat × Nat}
    {before : String} (ends : s.due = .none → rows.2 = Text.feedCount before) {t t' : Token}
    {next? : Option Token}
    (begins : t'.startRow =
      Text.feedCount (before ++ (s.placeTrivia t next?).1.text options)) :
    (s.reseat rows).trails t' = s.trails t := by
  by_cases due : s.due = .none
  · cases last : s.previous? with
    | none => simp [trails, reseat, last]
    | some p =>
      have again : (s.reseat rows).trails t' = (rows.2 == t'.startRow) := by
        simp [trails, reseat, due, last, Token.onRows]
      rw [again, begins, Text.feedCount_append, ← ends due]
      by_cases trails : s.trails t = true
      · have space : (s.placeTrivia t next?).1 = .space := by
          rw [placeTrivia, if_pos trails]
          simp [gap, due]
        have unbroken : Text.feedCount (Gap.space.text options) = 0 :=
          show Text.feedCount " " = 0 by decide
        rw [trails, space, unbroken, Nat.add_zero, beq_self_eq_true]
      · have line : (s.placeTrivia t next?).1 = .line s.depth := by
          rw [placeTrivia, if_neg trails, breakLine_of_none due]
          rfl
        have positive := feedCount_line_pos feed s.depth
        rw [Bool.eq_false_iff.mpr trails, line, beq_eq_false_iff_ne]
        omega
  · have broken : (s.due == .none) = false := beq_eq_false_iff_ne.mpr due
    have broken' : ((s.reseat rows).due == .none) = false := broken
    rw [trails, trails, broken, broken', Bool.false_and, Bool.false_and]

/-- A comment that trails the token before it in both passes or in neither is written alike in both;
only whether its line ends may differ. -/
theorem placeTrivia_of_trails {s : LayoutState} {rows : Nat × Nat} {t t' : Token}
    (moved : t' = t.onRows t'.rows) (trails : (s.reseat rows).trails t' = s.trails t)
    (next? next'? : Option Token) :
    ∃ after : LayoutState, after.due = .none ∧
      (s.placeTrivia t next?).2 = (if endsLine t next? then after.breakLine else after) ∧
      (s.reseat rows).placeTrivia t' next'? = ((s.placeTrivia t next?).1,
        (if endsLine t' next'? then after.breakLine else after).reseat t'.rows) := by
  refine ⟨(if s.trails t then s else s.breakLine).written t, rfl, rfl, ?_⟩
  have written (s : LayoutState) :
      (s.reseat rows).written t' = (s.written t).reseat t'.rows := by
    rw [moved]
    rfl
  unfold placeTrivia
  rw [trails, breakLine_reseat, ← apply_ite (fun s : LayoutState => s.reseat rows),
    apply_ite (fun after : LayoutState => after.reseat t'.rows), ← breakLine_reseat]
  dsimp only
  rw [written]
  rfl

theorem writtenRows_placeAll {s : LayoutState} {t : Token} {rest : List Token} {gap : Gap}
    (placed : (s.place .kept t rest.head?).1 = some gap) (before : String) :
    writtenRows options before (placeAll .kept s (t :: rest)).1 =
      (Text.feedCount (before ++ gap.text options),
        Text.feedCount (before ++ gap.text options ++ t.text)) ::
      writtenRows options (before ++ gap.text options ++ t.text)
        (placeAll .kept (s.place .kept t rest.head?).2 rest).1 := by
  rw [placeAll_cons placed]
  rfl

/-- If a line ends after a token only in the second pass, the next token asked for the line break
that made the difference. -/
theorem resumes_endsLine (feed : '\n' ∈ options.newline.toList) {after : LayoutState}
    (due : after.due = .none) {t t' : Token} (moved : t' = t.onRows t'.rows) {before : String}
    (stops : t'.endRow = Text.feedCount before) {rest rest' : List Token}
    (same : rest'.map Token.unplaced = rest.map Token.unplaced)
    (written : rest'.map Token.rows = writtenRows options before (placeAll .kept
      (if endsLine t rest.head? then after.breakLine else after) rest).1) :
    Resumes (if endsLine t rest.head? then after.breakLine else after) t'.rows rest
      ((if endsLine t' rest'.head? then after.breakLine else after).reseat t'.rows) := by
  have comment : t'.isLineComment = t.isLineComment := by rw [moved]; rfl
  have kind : t'.kind = t.kind := by rw [moved]; rfl
  -- At the end of the text nothing depends on rows. Otherwise the first pass decides by the old
  -- row of the next token, and the second one by the row on which it was written.
  match rest, rest', same with
  | [], [], _ =>
    have ends : endsLine t' none = endsLine t none := by
      simp [endsLine, comment, kind]
    rw [List.head?_nil, ends]
    exact .same []
  | next :: later, next' :: later', _ =>
    rw [List.head?_cons] at written ⊢
    obtain ⟨gap, placed, allowed⟩ := place_kept_gap
      (if endsLine t (some next) then after.breakLine else after) next later.head?
    rw [writtenRows_placeAll placed, List.map_cons, List.cons.injEq] at written
    have below : next'.startRow = Text.feedCount before + Text.feedCount (gap.text options) := by
      rw [← Text.feedCount_append]
      exact congrArg Prod.fst written.1
    -- If the line ends in the first pass, the line feed that was written ends it in the second.
    by_cases ends : endsLine t (some next) = true
    · rw [if_pos ends, breakLine_of_none due] at allowed
      have ends' : endsLine t' (some next') = true := by
        cases allowed with
        | line depth =>
          have positive := feedCount_line_pos feed depth
          have later : t'.endRow < next'.startRow := by omega
          simp [endsLine, later]
      rw [List.head?_cons, ends, ends']
      exact .same _
    · rw [if_neg ends] at placed allowed ⊢
      by_cases ends' : endsLine t' (some next') = true
      · rw [List.head?_cons, if_pos ends']
        have later : t'.endRow < next'.startRow := by
          simp only [endsLine, comment, kind, Option.any_some, Bool.or_eq_true, not_or,
            decide_eq_true_eq] at ends ends'
          exact ends'.resolve_left fun own => own.elim ends.1.1 ends.1.2
        -- The line has not ended in the first pass, so the next token has asked for its break.
        have broken : 0 < Text.feedCount (gap.text options) := by omega
        rw [due] at allowed
        cases allowed with
        | tight => exact absurd broken (Nat.lt_irrefl 0)
        | space => exact absurd broken (show ¬0 < Text.feedCount " " by decide)
        | broken depth => exact .early due placed
      · rw [List.head?_cons, if_neg ends']
        exact .same _

/-- Placing tokens again on the rows on which they were written writes the same gaps. -/
theorem placeAll_again (feed : '\n' ∈ options.newline.toList) {ts ts' : List Token}
    (same : ts'.map Token.unplaced = ts.map Token.unplaced) {s s' : LayoutState} {rows : Nat × Nat}
    (resumes : Resumes s rows ts s') {before : String}
    (ends : s.due = .none → rows.2 = Text.feedCount before)
    (written : ts'.map Token.rows = writtenRows options before (placeAll .kept s ts).1) :
    (placeAll .kept s' ts').1.map (fun p => (p.gap, p.token.text)) =
      (placeAll .kept s ts).1.map (fun p => (p.gap, p.token.text)) := by
  induction ts generalizing ts' s s' rows before with
  | nil =>
    rw [List.map_nil, List.map_eq_nil_iff] at same
    rw [same]
    rfl
  | cons t rest ih =>
    obtain ⟨t', rest', rfl, first, others⟩ := List.map_eq_cons_iff.mp same
    obtain ⟨gap, placed, -⟩ := place_kept_gap s t rest.head?
    obtain ⟨base, rfl, agree, earlier⟩ := resumes.place
    rw [writtenRows_placeAll placed, List.map_cons, List.cons.injEq] at written
    have texts : t'.text = t.text := show t'.unplaced.text = t.unplaced.text by rw [first]
    have moved : t' = t.onRows t'.rows := Token.eq_onRows first
    -- It is enough that the second pass writes this token after the same gap and can go on.
    suffices next : ((base.reseat rows).place .kept t' rest'.head?).1 = some gap ∧
        Resumes (s.place .kept t rest.head?).2 t'.rows rest
          ((base.reseat rows).place .kept t' rest'.head?).2 by
      have later := ih others next.2 (fun _ => congrArg Prod.snd written.1) written.2
      rw [placeAll_cons next.1, placeAll_cons placed, List.map_cons, List.map_cons,
        later, texts]
    -- Rows decide only where comments and directives stand; any other token is placed alike.
    by_cases trivia : t.isTrivia = true
    · have trivia' : t'.isTrivia = true := by rw [moved]; exact trivia
      rw [← agree, place_of_isTrivia base trivia] at placed written ⊢
      rw [← Option.some.inj placed] at written ⊢
      have trails := trails_reseat feed (fun due => ends (earlier due)) (congrArg Prod.fst written.1)
      obtain ⟨after, due, here, again⟩ :=
        placeTrivia_of_trails moved trails rest.head? rest'.head?
      rw [place_of_isTrivia _ trivia', again, here]
      rw [here] at written
      exact ⟨rfl, resumes_endsLine feed due moved (congrArg Prod.snd written.1) others written.2⟩
    · obtain ⟨nextRows, nexts⟩ := Token.head?_onRows others
      have step := place_reseat base (Bool.eq_false_iff.mpr trivia) rest.head? rows t'.rows nextRows
      rw [← moved, ← nexts, agree] at step
      rw [step]
      exact ⟨placed, .same rest⟩

end Passes

end LayoutState

end ClassAtlas
