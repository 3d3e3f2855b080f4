import ClassAtlas.Layout.Render
import Mathlib.Tactic.SplitIfs

/-!
# Steps of layout

What placing one token does when nothing is left out: it writes the token after a gap that fits the
break that was due, and leaves some break due for the next one. `Break.Allows` is what every later
argument about gaps rests on.
-/
namespace ClassAtlas

/-- The gaps that can be written when a break is due. A token may begin a line although none is
due, but a break that is due is always written. -/
inductive Break.Allows : Break → Gap → Prop
  | atStart : Break.atStart.Allows .start
  | tight : Break.none.Allows .tight
  | space : Break.none.Allows .space
  | broken (depth : Nat) : Break.none.Allows (.line depth)
  | line (depth : Nat) : Break.line.Allows (.line depth)
  | blankLine (depth : Nat) : Break.blankLine.Allows (.blankLine depth)

namespace LayoutState

@[simp] theorem depth_breakLine (s : LayoutState) : s.breakLine.depth = s.depth := by
  unfold breakLine; split <;> rfl

theorem breakLine_of_none {s : LayoutState} (due : s.due = .none) :
    s.breakLine = { s with due := .line } := by
  simp [breakLine, due]

theorem breakLine_of_ne_none {s : LayoutState} (due : s.due ≠ .none) : s.breakLine = s := by
  unfold breakLine
  split
  · next none => exact absurd none due
  · rfl

theorem due_breakLine_ne_none (s : LayoutState) : s.breakLine.due ≠ .none := by
  by_cases due : s.due = .none
  · simp [breakLine_of_none due]
  · rwa [breakLine_of_ne_none due]

theorem due_breakLine_ne_atStart {s : LayoutState} (later : s.due ≠ .atStart) :
    s.breakLine.due ≠ .atStart := by
  by_cases due : s.due = .none
  · simp [breakLine_of_none due]
  · rwa [breakLine_of_ne_none due]

/-! ### Gaps -/

theorem allows_gap (s : LayoutState) (spaced : Bool) : s.due.Allows (s.gap spaced) := by
  unfold gap
  cases s.due with
  | atStart => exact .atStart
  | none => cases spaced <;> constructor
  | line => exact .line _
  | blankLine => exact .blankLine _

/-- Asking for a line break first still writes a gap that fits what was due, at any depth. -/
theorem allows_gap_breakLine (s : LayoutState) (spaced : Bool) (depth : Nat) :
    s.due.Allows (gap { s.breakLine with depth := depth } spaced) := by
  -- Only a break that was not due can make a difference, and then the token begins a line.
  by_cases due : s.due = .none
  · rw [breakLine_of_none due, due]
    exact .broken _
  · rw [breakLine_of_ne_none due]
    exact allows_gap { s with depth := depth } spaced

/-- Every token is written, after a gap that fits the break that was due. -/
theorem place_kept_gap (s : LayoutState) (t : Token) (next? : Option Token) :
    ∃ gap, (s.place .kept t next?).1 = some gap ∧ s.due.Allows gap := by
  unfold place
  by_cases trivia : t.isTrivia = true
  · rw [if_pos trivia]
    refine ⟨(s.placeTrivia t next?).1, rfl, ?_⟩
    dsimp only [placeTrivia]
    split
    -- Only a comment that trails the token before it asks for no break.
    · exact allows_gap s true
    · exact allows_gap_breakLine s true s.breakLine.depth
  · rw [if_neg trivia]
    refine ⟨_, rfl, ?_⟩
    split
    · exact allows_gap_breakLine s false s.breakLine.depth
    · split
      · exact allows_gap_breakLine s false (s.depth - 1)
      · dsimp only [placeOrdinary]
        split
        · exact allows_gap_breakLine s _ s.breakLine.depth
        · exact allows_gap s _

/-! ### What is due afterwards -/

theorem due_afterToken_ne_atStart {s : LayoutState} (later : s.due ≠ .atStart) (t : Token) :
    (s.afterToken t).due ≠ .atStart := by
  have broken := due_breakLine_ne_atStart later
  unfold afterToken
  split_ifs <;> assumption

theorem due_afterClosing_ne_atStart {s : LayoutState} (later : s.due ≠ .atStart) (t : Token)
    (next? : Option Token) : (s.afterClosing t next?).due ≠ .atStart := by
  have broken := due_breakLine_ne_atStart later
  have blank : s.breakBlank.due ≠ .atStart := by
    unfold breakBlank
    split
    · next start => exact absurd start later
    · simp
  unfold afterClosing
  cases next? with
  | none => exact broken
  | some next => dsimp only; split_ifs <;> assumption

/-- Once a token has been written, the next one is no longer the first. -/
theorem due_place_kept_ne_atStart (s : LayoutState) (t : Token) (next? : Option Token) :
    (s.place .kept t next?).2.due ≠ .atStart := by
  -- Writing a token leaves nothing due, and what follows can only ask for more breaks.
  have plain : ∀ s : LayoutState, (s.written t).due ≠ .atStart := fun s => by simp [written]
  unfold place
  by_cases trivia : t.isTrivia = true
  · rw [if_pos trivia]
    dsimp only [placeTrivia]
    split
    · exact due_breakLine_ne_atStart (plain _)
    · exact plain _
  · rw [if_neg trivia]
    dsimp only
    split
    · exact due_breakLine_ne_atStart (by simp [written])
    · split
      · exact due_afterClosing_ne_atStart (by simp [written]) t next?
      · have ordinary : ∀ s : LayoutState, ((s.written t).afterToken t).due ≠ .atStart :=
          fun s => due_afterToken_ne_atStart (plain s) t
        dsimp only [placeOrdinary]
        split
        · exact due_breakLine_ne_atStart (ordinary _)
        · exact ordinary _

/-! ### The token written last -/

@[simp] theorem previous?_breakLine (s : LayoutState) : s.breakLine.previous? = s.previous? := by
  unfold breakLine; split <;> rfl

@[simp] theorem previous?_breakBlank (s : LayoutState) : s.breakBlank.previous? = s.previous? := by
  unfold breakBlank; split <;> rfl

@[simp] theorem previous?_afterToken (s : LayoutState) (t : Token) :
    (s.afterToken t).previous? = s.previous? := by
  unfold afterToken; split_ifs <;> simp

@[simp] theorem previous?_afterClosing (s : LayoutState) (t : Token) (next? : Option Token) :
    (s.afterClosing t next?).previous? = s.previous? := by
  cases next? with
  | none => simp [afterClosing]
  | some next => simp only [afterClosing]; split_ifs <;> simp

theorem previous?_place_kept (s : LayoutState) (t : Token) (next? : Option Token) :
    (s.place .kept t next?).2.previous? = some t := by
  simp only [place, placeTrivia, placeOpening, placeClosing, placeOrdinary]
  split_ifs <;> simp [written]

theorem place_of_isTrivia (s : LayoutState) {t : Token} (trivia : t.isTrivia = true)
    (next? : Option Token) :
    s.place .kept t next? = (some (s.placeTrivia t next?).1, (s.placeTrivia t next?).2) := by
  rw [place, if_pos trivia]

theorem place_dropped_of_isTrivia (s : LayoutState) {t : Token} (trivia : t.isTrivia = true)
    (next? : Option Token) : s.place .dropped t next? = (none, s) := by
  rw [place, if_pos trivia]

/-- Code is laid out alike whether comments are kept or dropped. -/
theorem place_of_code (trivia : Trivia) (s : LayoutState) {t : Token} (code : t.isTrivia = false)
    (next? : Option Token) : s.place trivia t next? = s.place .kept t next? := by
  simp only [place, code, Bool.false_eq_true, if_false]

/-- After a comment or directive a line break is due exactly when the token ends its line. -/
theorem due_place_trivia (s : LayoutState) {t : Token} (trivia : t.isTrivia = true)
    (next? : Option Token) :
    (s.place .kept t next?).2.due = if endsLine t next? then .line else .none := by
  unfold place
  rw [if_pos trivia]
  dsimp only [placeTrivia]
  split
  · exact congrArg LayoutState.due (breakLine_of_none (by simp [written]))
  · simp [written]

end LayoutState

theorem placeAll_cons {trivia : Trivia} {s : LayoutState} {t : Token} {rest : List Token}
    {gap : Gap} (placed : (s.place trivia t rest.head?).1 = some gap) :
    placeAll trivia s (t :: rest) =
      (⟨gap, t⟩ :: (placeAll trivia (s.place trivia t rest.head?).2 rest).1,
        (placeAll trivia (s.place trivia t rest.head?).2 rest).2) := by
  simp [placeAll, placed]

theorem placeAll_dropped_cons (s : LayoutState) {t : Token} (trivia : t.isTrivia = true)
    (rest : List Token) : placeAll .dropped s (t :: rest) = placeAll .dropped s rest := by
  simp [placeAll, s.place_dropped_of_isTrivia trivia]

/-- A token is left out, or it is written as if everything were kept. -/
theorem placeAll_cons_cases (trivia : Trivia) (s : LayoutState) (t : Token) (rest : List Token) :
    placeAll trivia s (t :: rest) = placeAll trivia s rest ∨
      ∃ gap, (s.place .kept t rest.head?).1 = some gap ∧
        (placeAll trivia s (t :: rest)).1 =
          ⟨gap, t⟩ :: (placeAll trivia (s.place .kept t rest.head?).2 rest).1 := by
  by_cases dropped : trivia = .dropped ∧ t.isTrivia = true
  · obtain ⟨rfl, out⟩ := dropped
    exact .inl (placeAll_dropped_cons s out rest)
  · have kept : s.place trivia t rest.head? = s.place .kept t rest.head? := by
      cases trivia with
      | kept => rfl
      | dropped => exact s.place_of_code _ (by simpa using dropped) _
    obtain ⟨gap, placed, -⟩ := s.place_kept_gap t rest.head?
    rw [placeAll_cons (kept ▸ placed), kept]
    exact .inr ⟨gap, placed, rfl⟩

end ClassAtlas
