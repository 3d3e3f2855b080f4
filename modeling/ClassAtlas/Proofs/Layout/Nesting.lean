import ClassAtlas.Proofs.Layout.Brackets
import ClassAtlas.Proofs.Layout.Runs

/-!
# Nesting

What layout knows about open brackets: the depth of blocks, the open parentheses and the open
braces. A token changes this as the bracket says that it opens or closes, and a closing bracket
takes back what its partner has done. So at every place of balanced tokens the knowledge is
determined by the brackets around the place.
-/
namespace ClassAtlas

/-- What layout knows about open brackets. -/
structure Nesting where
  depth : Nat
  parens : Nat
  braces : List OpenBrace
  deriving DecidableEq, Repr

namespace Nesting

def outermost : Nesting := ⟨0, 0, []⟩

def enter (k : Nesting) : Bracket → Nesting
  | .parenthesis => { k with parens := k.parens + 1 }
  | .inlineBrace => { k with braces := .inline :: k.braces }
  | .blockBrace => ⟨k.depth + 1, 0, .block k.parens :: k.braces⟩

def leave (k : Nesting) : Bracket → Nesting
  | .parenthesis => { k with parens := k.parens - 1 }
  | .inlineBrace => { k with braces := k.braces.tail }
  | .blockBrace =>
    { depth := k.depth - 1
      parens := match k.braces with
        | .block parens :: _ => parens
        | _ => k.parens
      braces := k.braces.tail }

def cross (k : Nesting) : Option Edge → Nesting
  | none => k
  | some (.opens b) => k.enter b
  | some (.closes b) => k.leave b

theorem leave_enter (k : Nesting) (b : Bracket) : (k.enter b).leave b = k := by
  cases b <;> rfl

/-- The nesting inside the given brackets, the innermost first. -/
def within (k : Nesting) (bs : List Bracket) : Nesting := bs.foldr (fun b k => k.enter b) k

@[simp] theorem within_nil (k : Nesting) : k.within [] = k := rfl

@[simp] theorem within_cons (k : Nesting) (b : Bracket) (bs : List Bracket) :
    k.within (b :: bs) = (k.within bs).enter b := rfl

theorem depth_within (k : Nesting) (bs : List Bracket) :
    (k.within bs).depth = k.depth + bs.count .blockBrace := by
  induction bs with
  | nil => simp
  | cons b rest ih =>
    rw [within_cons, List.count_cons]
    cases b with
    | parenthesis | inlineBrace => simpa [enter] using ih
    | blockBrace => simp [enter, ih, Nat.add_assoc]

/-- The nesting after some tokens. -/
def through (k : Nesting) (ts : List Token) : Nesting := ts.foldl (fun k t => k.cross t.edge?) k

@[simp] theorem through_nil (k : Nesting) : k.through [] = k := rfl

@[simp] theorem through_cons (k : Nesting) (t : Token) (rest : List Token) :
    k.through (t :: rest) = (k.cross t.edge?).through rest := rfl

@[simp] theorem through_append (k : Nesting) (left right : List Token) :
    k.through (left ++ right) = (k.through left).through right :=
  List.foldl_append

/-- A pair of brackets leaves no trace, whatever balanced tokens stand in it. -/
theorem through_pair {k : Nesting} {o c : Token} {inner : List Token} {b : Bracket}
    (opens : o.edge? = some (.opens b)) (closes : c.edge? = some (.closes b))
    (inside : ∀ k : Nesting, k.through inner = k) : k.through (o :: inner ++ [c]) = k := by
  simp [opens, closes, cross, inside, leave_enter]

theorem through_balanced {ts : List Token} (balanced : Balanced ts) (k : Nesting) :
    k.through ts = k := by
  induction balanced generalizing k with
  | nil => rfl
  | plain unbracketed _ ih =>
    rw [through_cons, unbracketed]
    exact ih k
  | @pair o c inner rest b opens closes _ _ inside ih =>
    have pair := through_pair (k := k) opens closes inside
    rw [List.cons_append, through_cons, through_append] at pair
    rw [through_cons, through_append, through_cons]
    simp only [through_cons, through_nil] at pair
    rw [pair]
    exact ih k

/-- After the tokens before a place the nesting is that of the brackets around it. -/
theorem through_around {before after : List Token} {bs : List Bracket}
    (around : Around before bs after) (k : Nesting) : k.through before = k.within bs := by
  induction around with
  | outside before _ => exact through_balanced before k
  | inside _ opens _ left _ ih =>
    rw [through_append, ih, through_cons, opens, within_cons]
    exact through_balanced left _

/-- The nesting at a token that is no bracket is that of the brackets strictly around it. -/
theorem through_strictlyAround {before after : List Token} {t : Token} {bs : List Bracket}
    (plain : t.edge? = none) (around : StrictlyAround before t after bs) (k : Nesting) :
    k.through before = k.within bs := by
  cases around with
  | lone => rfl
  | plain _ around => exact through_around around k
  | opening opens _ _ _ =>
    rw [plain] at opens
    cases opens
  | closing _ closes _ _ =>
    rw [plain] at closes
    cases closes

/-- The depth at which a token that begins a line is written. -/
def lineDepth (k : Nesting) : Option Edge → Nat
  | some (.closes .blockBrace) => k.depth - 1
  | _ => k.depth

theorem lineDepth_of_not_closes (k : Nesting) {edge? : Option Edge}
    (other : edge? ≠ some (.closes .blockBrace)) : k.lineDepth edge? = k.depth := by
  unfold lineDepth
  split
  · exact absurd rfl other
  · rfl

theorem lineDepth_enter (k : Nesting) (b : Bracket) :
    (k.enter b).lineDepth (some (.closes b)) = k.depth := by
  cases b <;> rfl

/-- A token is indented by the blocks strictly around it: not by the one it opens or closes. -/
theorem lineDepth_strictlyAround {before after : List Token} {t : Token} {bs : List Bracket}
    (around : StrictlyAround before t after bs) :
    (outermost.through before).lineDepth t.edge? = bs.count .blockBrace := by
  have depth (bs : List Bracket) : (outermost.within bs).depth = bs.count .blockBrace := by
    rw [depth_within]
    exact Nat.zero_add _
  cases around with
  | lone => cases t.edge? with
    | none => rfl
    | some edge => rcases edge with b | b <;> cases b <;> rfl
  | plain unbracketed around =>
    rw [unbracketed, through_around around]
    exact depth bs
  | opening opens _ _ around =>
    rw [opens, through_around around]
    exact depth bs
  | closing opens closes inside around =>
    rw [closes, through_append, through_around around, through_cons, opens,
      through_balanced inside, cross, lineDepth_enter, depth]

end Nesting

namespace LayoutState

/-! ### Ways to place a token -/

/-- A token is trivia, one of the two braces of a block, or ordinary. -/
theorem place_cases (s : LayoutState) (t : Token) (next? : Option Token) :
    (t.isTrivia = true ∧ s.place .kept t next? =
        (some (s.placeTrivia t next?).1, (s.placeTrivia t next?).2)) ∨
      (t.edge? = some (.opens .blockBrace) ∧ s.place .kept t next? =
        (some (s.placeOpening t).1, (s.placeOpening t).2)) ∨
      (t.edge? = some (.closes .blockBrace) ∧ s.place .kept t next? =
        (some (s.placeClosing t next?).1, (s.placeClosing t next?).2)) ∨
      (t.isTrivia = false ∧ t.isBlockEdge = false ∧ s.place .kept t next? =
        (some (s.placeOrdinary t).1, (s.placeOrdinary t).2)) := by
  cases trivia : t.isTrivia with
  | true => exact .inl ⟨rfl, place_of_isTrivia s trivia next?⟩
  | false =>
    right
    by_cases opening : t.isBlockBrace = true ∧ t.text = "\x7b"
    · refine .inl ⟨?_, ?_⟩
      · simp [Token.edge?, Token.brace, trivia, opening]
      · simp [place, trivia, opening]
    · by_cases closing : t.isBlockBrace = true ∧ t.text = "\x7d"
      · refine .inr (.inl ⟨?_, ?_⟩)
        · simp [Token.edge?, Token.brace, trivia, closing]
        · simp [place, trivia, closing]
      · refine .inr (.inr ⟨rfl, ?_, ?_⟩)
        · simp only [Token.isBlockEdge, Token.edge?, Token.brace, trivia, Bool.false_eq_true,
            if_false, beq_iff_eq]
          split_ifs <;> simp_all [Edge.bracket]
        · simp [place, trivia, opening, closing]

/-! ### Nesting after a token -/

def nesting (s : LayoutState) : Nesting := ⟨s.depth, s.parens, s.braces⟩

theorem nesting_initial : initial.nesting = .outermost := rfl

@[simp] theorem nesting_breakLine (s : LayoutState) : s.breakLine.nesting = s.nesting := by
  unfold breakLine; split <;> rfl

@[simp] theorem nesting_breakBlank (s : LayoutState) : s.breakBlank.nesting = s.nesting := by
  unfold breakBlank; split <;> rfl

@[simp] theorem nesting_written (s : LayoutState) (t : Token) :
    (s.written t).nesting = s.nesting := rfl

@[simp] theorem nesting_afterClosing (s : LayoutState) (t : Token) (next? : Option Token) :
    (s.afterClosing t next?).nesting = s.nesting := by
  cases next? with
  | none => simp [afterClosing]
  | some next => simp only [afterClosing]; split_ifs <;> simp

theorem nesting_placeTrivia (s : LayoutState) (t : Token) (next? : Option Token) :
    (s.placeTrivia t next?).2.nesting = s.nesting := by
  unfold placeTrivia
  dsimp only
  split_ifs <;> simp

theorem nesting_placeOpening (s : LayoutState) (t : Token) :
    (s.placeOpening t).2.nesting = s.nesting.enter .blockBrace := by
  have same := s.nesting_breakLine
  unfold placeOpening
  dsimp only
  rw [nesting_breakLine, ← same]
  simp [nesting, Nesting.enter]

theorem nesting_placeClosing (s : LayoutState) (t : Token) (next? : Option Token) :
    (s.placeClosing t next?).2.nesting = s.nesting.leave .blockBrace := by
  have same := s.nesting_breakLine
  unfold placeClosing
  dsimp only
  rw [nesting_afterClosing, ← same]
  -- Only the depth is not read off the same state.
  exact congrArg (fun depth => Nesting.mk (depth - 1) _ _) s.depth_breakLine.symm

theorem nesting_afterToken (s : LayoutState) {t : Token} (code : t.isTrivia = false)
    (inline : t.isBlockEdge = false) : (s.afterToken t).nesting = s.nesting.cross t.edge? := by
  -- A brace that belongs to no block is an inline one.
  have brace : t.text = "\x7b" ∨ t.text = "\x7d" → t.brace = .inlineBrace := by
    rintro (text | text) <;>
      simpa [Token.isBlockEdge, Token.edge?, Edge.bracket, Token.brace, code, text] using inline
  unfold afterToken Token.edge?
  simp only [code, Bool.false_eq_true, if_false, beq_iff_eq]
  split_ifs with opening closing left right
  · rfl
  · rfl
  · rw [brace (.inl left)]
    rfl
  · rw [brace (.inr right)]
    rfl
  all_goals simp [Nesting.cross]

theorem nesting_placeOrdinary (s : LayoutState) {t : Token} (code : t.isTrivia = false)
    (inline : t.isBlockEdge = false) :
    (s.placeOrdinary t).2.nesting = s.nesting.cross t.edge? := by
  have after (s : LayoutState) : ((s.written t).afterToken t).nesting = s.nesting.cross t.edge? :=
    nesting_afterToken _ code inline
  unfold placeOrdinary
  dsimp only
  split_ifs <;> simp only [nesting_breakLine, after]

/-- Placing a token changes the nesting as the token's bracket says. -/
theorem nesting_place (s : LayoutState) (t : Token) (next? : Option Token) :
    (s.place .kept t next?).2.nesting = s.nesting.cross t.edge? := by
  rcases s.place_cases t next? with
    ⟨trivia, step⟩ | ⟨opens, step⟩ | ⟨closes, step⟩ | ⟨code, inline, step⟩
  · rw [step, Token.edge?_of_isTrivia trivia]
    exact nesting_placeTrivia s t next?
  · rw [step, opens]
    exact nesting_placeOpening s t
  · rw [step, closes]
    exact nesting_placeClosing s t next?
  · rw [step]
    exact nesting_placeOrdinary s code inline

/-! ### Depth -/

theorem depth_of_gap {s : LayoutState} {spaced : Bool} {depth : Nat}
    (line : s.gap spaced = .line depth ∨ s.gap spaced = .blankLine depth) : depth = s.depth := by
  unfold gap at line
  cases due : s.due with
  | atStart => simp [due] at line
  | none => cases spaced <;> simp [due] at line
  | line | blankLine => simpa [due, eq_comm] using line

/-- A line is indented by the depth before its first token, or by one level less if that token
closes a block. -/
theorem depth_place {s : LayoutState} {t : Token} {next? : Option Token} {gap : Gap} {depth : Nat}
    (placed : (s.place .kept t next?).1 = some gap)
    (line : gap = .line depth ∨ gap = .blankLine depth) :
    depth = s.nesting.lineDepth t.edge? := by
  rcases s.place_cases t next? with
    ⟨trivia, step⟩ | ⟨opens, step⟩ | ⟨closes, step⟩ | ⟨code, inline, step⟩
  all_goals
    rw [step, Option.some.injEq] at placed
    subst placed
  · rw [Token.edge?_of_isTrivia trivia]
    refine (depth_of_gap line).trans ?_
    split_ifs <;> simp [Nesting.lineDepth, nesting]
  · rw [opens, depth_of_gap line]
    exact s.depth_breakLine
  · rw [closes, depth_of_gap line]
    rfl
  · have other : t.edge? ≠ some (.closes .blockBrace) := by
      intro closes
      simp [Token.isBlockEdge, closes, Edge.bracket] at inline
    refine (depth_of_gap line).trans ?_
    rw [Nesting.lineDepth_of_not_closes _ other]
    split_ifs
    · exact s.depth_breakLine
    · rfl

/-! ### Whole runs -/

theorem nesting_after (s : LayoutState) (later ts : List Token) :
    (s.after later ts).nesting = s.nesting.through ts := by
  induction ts generalizing s with
  | nil => rfl
  | cons t rest ih => rw [after, ih, nesting_place, Nesting.through_cons]

/-- Every bracket is taken back by its partner, whatever stands between them. -/
theorem nesting_after_pair {s : LayoutState} {o c : Token} {inner : List Token} {b : Bracket}
    (opens : o.edge? = some (.opens b)) (closes : c.edge? = some (.closes b))
    (inside : Balanced inner) (later before : List Token) :
    (s.after later (before ++ o :: inner ++ [c])).nesting =
      (s.after (o :: (inner ++ c :: later)) before).nesting := by
  rw [nesting_after, nesting_after, List.append_assoc, Nesting.through_append]
  exact Nesting.through_pair opens closes (Nesting.through_balanced inside)

/-- The depth at which a line begins is that of the blocks strictly around its first token. -/
theorem depth_of_split {ts : List Token} {before later : List Placed} {p : Placed}
    {bs : List Bracket} {depth : Nat} (split : (placeAll .kept initial ts).1 = before ++ p :: later)
    (around : StrictlyAround (before.map Placed.token) p.token (later.map Placed.token) bs)
    (line : p.gap = .line depth ∨ p.gap = .blankLine depth) : depth = bs.count .blockBrace := by
  have written := depth_place (placed_of_split split) line
  rw [nesting_after, nesting_initial] at written
  exact written.trans (Nesting.lineDepth_strictlyAround around)

/-- Inside the given brackets, semicolons end statements unless the innermost bracket is a
parenthesis or an inline brace. -/
theorem endsStatements_of_nesting {s : LayoutState} {bs : List Bracket}
    (within : s.nesting = Nesting.outermost.within bs) :
    s.endsStatements = true ↔ bs.head? = none ∨ bs.head? = some .blockBrace := by
  have parens : s.parens = (Nesting.outermost.within bs).parens := congrArg Nesting.parens within
  have braces : s.braces = (Nesting.outermost.within bs).braces := congrArg Nesting.braces within
  rw [endsStatements, parens, braces]
  cases bs with
  | nil => simp [Nesting.outermost]
  | cons b rest => cases b <;> simp [Nesting.enter]

end LayoutState

end ClassAtlas
