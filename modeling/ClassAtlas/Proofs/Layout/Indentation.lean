import ClassAtlas.Proofs.Layout.Independence
import ClassAtlas.Proofs.Layout.Nesting

/-!
# Indentation follows the braces

In a tree with matching brackets, a line of normalized text is indented by as many levels as there
are blocks strictly around its first token, so that the closing brace of a block stands below the
beginning of the line of its opening brace. Behind a pair of brackets layout knows nothing of what
is between them, and lays out what follows as if something else had been there.
-/
namespace ClassAtlas

/-- What of a gap stands before the line that it begins. -/
def Gap.breaks? (options : LayoutOptions) : Gap → Option String
  | .start => some ""
  | .tight | .space => none
  | .line _ => some options.newline
  | .blankLine _ => some (options.newline ++ options.newline)

/-- A pair of partners with balanced tokens in between. -/
def IsPair (o : Token) (inner : List Token) (c : Token) : Prop :=
  ∃ b, o.edge? = some (.opens b) ∧ c.edge? = some (.closes b) ∧ Balanced inner

/-- How a token is written, wherever it comes from. -/
def Placed.written (p : Placed) : Gap × String := (p.gap, p.token.text)

namespace LayoutState

/-! ### Behind a bracket -/

theorem written_congr {s s' : LayoutState} (same : s'.nesting = s.nesting) (t : Token) :
    s'.written t = s.written t := by
  simp only [nesting, Nesting.mk.injEq] at same
  simp only [written, same]

/-- The state that code leaves depends on the one before only through the open brackets. -/
theorem place_congr_of_nesting {s s' : LayoutState} (same : s'.nesting = s.nesting) {t : Token}
    (code : t.isTrivia = false) (next? : Option Token) :
    (s'.place .kept t next?).2 = (s.place .kept t next?).2 := by
  have broken : s'.breakLine.nesting = s.breakLine.nesting := by simp only [nesting_breakLine, same]
  have plain := written_congr same t
  have line := written_congr broken t
  simp only [nesting, Nesting.mk.injEq] at same broken
  unfold place
  simp only [code, Bool.false_eq_true, if_false]
  split_ifs
  · simp only [placeOpening, line, broken]
  · simp only [placeClosing, written, same, broken]
  · simp only [placeOrdinary]
    split_ifs <;> simp only [plain, line]

/-- Behind the same code on other rows, after the same open brackets, the same is written alike. -/
theorem placeAll_congr_of_nesting {s s' : LayoutState} (same : s'.nesting = s.nesting)
    {c c' : Token} (code : c.isTrivia = false) {later later' : List Token}
    (moved : (c' :: later').map Token.unplaced = (c :: later).map Token.unplaced)
    (answers : rowAnswers (some c') later' = rowAnswers (some c) later) :
    (placeAll .kept (s'.place .kept c' later'.head?).2 later').1.map Placed.written =
      (placeAll .kept (s.place .kept c later.head?).2 later).1.map Placed.written := by
  rw [List.map_cons, List.map_cons, List.cons.injEq] at moved
  obtain ⟨first, others⟩ := moved
  have here : c' = c.onRows c'.rows := Token.eq_onRows first
  have code' : c'.isTrivia = false := by rw [here]; exact code
  obtain ⟨nextRows, nexts⟩ := Token.head?_onRows others
  -- Both runs go on from one state, but for the rows of the bracket that was written last.
  have state : (s'.place .kept c' later'.head?).2 =
      (s.place .kept c later.head?).2.reseat c'.rows := by
    have step := s.place_reseat code later.head? (0, 0) c'.rows nextRows
    rw [← here, ← nexts] at step
    have unrowed : s'.nesting = (s.reseat (0, 0)).nesting := same
    rw [place_congr_of_nesting unrowed code', step]
  have previous : ((s.place .kept c later.head?).2.reseat c'.rows).previous? = some c' := by
    rw [reseat, previous?_place_kept, Option.map_some, ← here]
  rw [state]
  refine congrArg Prod.fst (placeAll_of_answers others ?_)
  rw [previous, previous?_place_kept, answers]

end LayoutState

/-! ### Lines -/

/-- The first token of a line comes after one unit of indentation per block around it. -/
theorem Gap.text_of_breaks? {ts : List Token} {before later : List Placed} {p : Placed}
    {bs : List Bracket} (split : (placeAll .kept .initial ts).1 = before ++ p :: later)
    (around : StrictlyAround (before.map Placed.token) p.token (later.map Placed.token) bs)
    {options : LayoutOptions} {breaks : String} (begins : p.gap.breaks? options = some breaks) :
    p.gap.text options = breaks ++ repeated options.indent (bs.count .blockBrace) := by
  have depth (depth : Nat) := @LayoutState.depth_of_split ts before later p bs depth split around
  cases gap : p.gap with
  | tight | space => rw [gap] at begins; cases begins
  | line d =>
    rw [gap, Gap.breaks?, Option.some.injEq] at begins
    rw [← begins, ← depth d (.inl gap), Gap.text]
  | blankLine d =>
    rw [gap, Gap.breaks?, Option.some.injEq] at begins
    rw [← begins, ← depth d (.inr gap), Gap.text]
  | start =>
    -- Only the first token stands at the start, and nothing is open there.
    have first : before = [] := by
      by_contra some_before
      have written := LayoutState.placed_of_split split
      rw [gap] at written
      refine LayoutState.place_kept_ne_start (LayoutState.due_after_ne_atStart _ _ ?_) written
      simpa using some_before
    have outside := Nesting.lineDepth_strictlyAround around
    have none_open : Nesting.outermost.lineDepth p.token.edge? = 0 := by
      unfold Nesting.lineDepth
      split <;> rfl
    rw [first, List.map_nil, Nesting.through_nil, none_open] at outside
    rw [gap, Gap.breaks?, Option.some.injEq] at begins
    rw [← begins, ← outside]
    rfl

namespace Node

/-- The tokens behind a place are laid out from the state that the tokens before it leave. -/
theorem drop_placed {n : Node} {before later : List Token} (split : n.tokens = before ++ later) :
    n.placed.drop before.length =
      (placeAll .kept (LayoutState.initial.after later before) later).1 := by
  obtain ⟨front, tokens, others⟩ := LayoutState.initial.exists_placeAll_append before later
  rw [placed, split, others, ← tokens, List.length_map, List.drop_left]

end Node

/-- In normalized text, a line is indented by the blocks around its first token, and what follows a
pair of brackets does not depend on what is in it. -/
theorem indentation_follows_braces (n : Node) (options : LayoutOptions)
    (blank_newline : Text.allBlank options.newline = true) (bracketed : n.WellBracketed) :
    n.normalized options = placedText options n.placed ∧
      (∀ before p later, n.placed = before ++ p :: later →
        let around := StrictlyAround (before.map Placed.token) p.token (later.map Placed.token)
        (∃ bs, around bs) ∧ ∀ bs, around bs → ∀ breaks, p.gap.breaks? options = some breaks →
          p.gap.text options = breaks ++ repeated options.indent (bs.count .blockBrace)) ∧
      ∀ before o inner c later, n.tokens = before ++ o :: inner ++ c :: later →
        IsPair o inner c →
          (LayoutState.initial.after later (before ++ o :: inner ++ [c])).nesting =
            (LayoutState.initial.after (o :: inner ++ c :: later) before).nesting ∧
          ∀ (n' : Node) inner' c' later', n'.tokens = before ++ o :: inner' ++ c' :: later' →
            IsPair o inner' c' →
            (c' :: later').map Token.unplaced = (c :: later).map Token.unplaced →
            rowAnswers (some c') later' = rowAnswers (some c) later →
            (n'.placed.drop (before ++ o :: inner' ++ [c']).length).map Placed.written =
              (n.placed.drop (before ++ o :: inner ++ [c]).length).map Placed.written := by
  refine ⟨n.normalized_eq_placedText blank_newline, ?_, ?_⟩
  · intro before p later split
    exact ⟨bracketed.strictlyAround (Node.tokens_of_split split),
      fun bs around breaks begins => Gap.text_of_breaks? split around begins⟩
  · intro before o inner c later split ⟨b, opens, closes, inside⟩
    have kept := @LayoutState.nesting_after_pair .initial o c inner b opens closes inside
    refine ⟨kept later before, fun n' inner' c' later' split' pair moved answers => ?_⟩
    obtain ⟨-, -, -, inside'⟩ := pair
    rw [List.append_cons] at split split'
    rw [Node.drop_placed split, Node.drop_placed split', LayoutState.after_concat,
      LayoutState.after_concat]
    refine LayoutState.placeAll_congr_of_nesting ?_ (Token.isTrivia_of_edge? closes) moved answers
    -- Before both closing brackets just the opening one and those around it are open.
    simp only [LayoutState.nesting_after, Nesting.through_append, Nesting.through_cons,
      Nesting.through_balanced inside, Nesting.through_balanced inside']

/-! ### A call in a block -/

/-- A block around a call with the given arguments, which end at an offset. -/
def callBlock (text : String) (arguments : List Tree) (stop : Nat) : Node :=
  .root (.node ⟨"block", none, true, false, ⟨0, stop + 3, 0, 0⟩, text⟩
    (literalTree "\x7b" false "\x7b" 0 0 :: literalTree "identifier" true "f" 1 0 ::
      literalTree "(" false "(" 2 0 :: arguments ++
      [literalTree ")" false ")" stop 0, literalTree ";" false ";" (stop + 1) 0,
        literalTree "\x7d" false "\x7d" (stop + 2) 0]))

def calledWithName : Node :=
  callBlock "\x7bf(a);\x7d" [literalTree "identifier" true "a" 3 0] 4

def calledWithNothing : Node := callBlock "\x7bf();\x7d" [] 3

theorem calledWithName_wellBracketed : calledWithName.WellBracketed := by
  have leaves : ∀ c ∈ calledWithName.children, c.isLeaf = true := by decide
  exact .branch (by decide) (by decide +kernel) fun c child => .leaf (leaves c child)

/-- The call is indented by the block around it, and the rest of the block is written as if the call
had no arguments. -/
theorem calledWithName_indented :
    Text.allBlank LayoutOptions.standard.newline = true ∧ calledWithName.WellBracketed ∧
      calledWithName.normalized .standard = "\x7b\n    f(a);\n\x7d" ∧
      (∃ before p later bs, calledWithName.placed = before ++ p :: later ∧ p.token.text = "f" ∧
        StrictlyAround (before.map Placed.token) p.token (later.map Placed.token) bs ∧
        p.gap.text .standard = "\n" ++ repeated "    " (bs.count .blockBrace)) ∧
      (calledWithNothing.placed.drop 4).map Placed.written =
        (calledWithName.placed.drop 5).map Placed.written := by
  have newline : Text.allBlank LayoutOptions.standard.newline = true := by decide
  obtain ⟨text, lines, pairs⟩ :=
    indentation_follows_braces calledWithName .standard newline calledWithName_wellBracketed
  refine ⟨newline, calledWithName_wellBracketed, ?_, ?_, ?_⟩
  · rw [text]
    decide +kernel
  · let p := calledWithName.placed.getD 1 ⟨.start, default⟩
    have split : calledWithName.placed =
        calledWithName.placed.take 1 ++ p :: calledWithName.placed.drop 2 := by
      decide +kernel
    obtain ⟨⟨bs, around⟩, indented⟩ := lines _ _ _ split
    refine ⟨_, _, _, bs, split, by decide +kernel, around, ?_⟩
    exact indented bs around "\n" (by decide +kernel)
  · let ts := calledWithName.tokens
    let ts' := calledWithNothing.tokens
    have pair : IsPair ts[2]! [ts[3]!] ts[4]! :=
      ⟨.parenthesis, by decide +kernel, by decide +kernel, .plain (by decide +kernel) .nil⟩
    have pair' : IsPair ts[2]! [] ts'[3]! :=
      ⟨.parenthesis, by decide +kernel, by decide +kernel, .nil⟩
    obtain ⟨-, same⟩ := pairs (ts.take 2) _ _ _ (ts.drop 5) (by decide +kernel) pair
    have behind := same calledWithNothing _ _ (ts'.drop 4) (by decide +kernel) pair'
      (by decide +kernel) (by decide +kernel)
    have four : (ts.take 2 ++ [ts[2]!] ++ [ts'[3]!]).length = 4 := by decide +kernel
    have five : (ts.take 2 ++ [ts[2]!, ts[3]!] ++ [ts[4]!]).length = 5 := by decide +kernel
    rwa [four, five] at behind

end ClassAtlas
