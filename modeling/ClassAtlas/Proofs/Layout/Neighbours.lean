import ClassAtlas.Proofs.Layout.Spaces
import ClassAtlas.Proofs.Syntax.Form
import Mathlib.Data.List.Chain

/-!
# What layout writes without a gap

Two tokens with nothing in between must not be read as one. Words never are: between two words there
is always a space or a line break, as long as unary operators are no words. But the rule that no
space follows a prefix operator and none stands before a postfix operator holds also where the
neighbour begins or ends in the same sign, and there two operators become a different one: a minus
before a negated operand is written as a decrement.
-/
namespace ClassAtlas

namespace Text

/-- A character of identifiers and numbers. -/
def isWordChar (c : Char) : Bool := isLetterOrDigit c || c == '_'

def isSign (c : Char) : Bool := c == '+' || c == '-'

/-- The first text ends in a plus or minus, and the second one begins with the same sign. -/
def SignsMeet (left right : String) : Prop :=
  ∃ sign, isSign sign = true ∧ left.toList.getLast? = some sign ∧ right.toList.head? = some sign

/-- The first text ends, and the second one begins, in a character of identifiers. -/
def WordsMeet (left right : String) : Prop :=
  left.toList.getLast?.any isWordChar = true ∧ right.toList.head?.any isWordChar = true

end Text

open Text (isWordChar isSign SignsMeet WordsMeet)

namespace Token

/-! ### Neighbours without a space -/

/-- Texts after which there is no space, wherever it is that they hold what follows. -/
def holding : List String := ["(", "[", ".", "::", "->", "..", "?.", "<", ">", "?", ")", ","]

/-- Texts before which there can be no space. -/
def clinging : List String :=
  [")", "]", ";", ",", ".", "::", "->", "..", "?.", "?", "*", "<", ">", ":", "(", "["]

theorem text_of_isTypeBracket {t : Token} (bracket : t.isTypeBracket = true) :
    t.text = "<" ∨ t.text = ">" := by
  simp only [isTypeBracket, Bool.and_eq_true, Bool.or_eq_true, beq_iff_eq] at bracket
  exact bracket.1

theorem holdsNext_cases {t : Token} (holds : t.holdsNext = true) :
    t.isPrefixOperator = true ∨ t.text ∈ holding := by
  simp only [holdsNext, Bool.or_eq_true, Bool.and_eq_true, beq_iff_eq, List.contains_iff_mem]
    at holds
  rcases holds with ((((listed | bracket) | question) | cast) | comma) | operator
  · exact .inr ((by decide : ["(", "[", ".", "::", "->", "..", "?."] ⊆ holding) listed)
  · simp [holding, bracket.1]
  · simp [holding, question.1]
  · simp [holding, cast.1]
  · simp [holding, comma.1]
  · exact .inl operator

theorem needsSpace_cases {p t : Token} (tight : p.needsSpace t = false) :
    p.isPrefixOperator = true ∨ t.isPostfixOperator = true ∨ p.text ∈ holding ∨
      t.text ∈ clinging := by
  unfold needsSpace at tight
  split at tight
  next holds =>
    rcases holdsNext_cases holds with operator | listed
    · exact .inl operator
    · exact .inr (.inr (.inl listed))
  split at tight
  next listed =>
    have known := (by decide : [")", "]", ";", ",", ".", "::", "->", "..", "?."] ⊆ clinging)
    exact .inr (.inr (.inr (known (List.contains_iff_mem.mp listed))))
  split at tight
  next question => simp [clinging, beq_iff_eq.mp question]
  split at tight
  next pointer => simp [clinging, beq_iff_eq.mp (Bool.and_eq_true_iff.mp pointer).1]
  split at tight
  next bracket => rcases text_of_isTypeBracket bracket with text | text <;> simp [clinging, text]
  split at tight
  next colon => simp [clinging, beq_iff_eq.mp colon]
  split at tight
  next parenthesis => simp [clinging, beq_iff_eq.mp parenthesis]
  split at tight
  next bracket => simp [clinging, beq_iff_eq.mp bracket]
  next => exact .inr (.inl (by simpa using tight))

theorem needsSpace_of_isPrefixOperator {p : Token} (operator : p.isPrefixOperator = true)
    (t : Token) : p.needsSpace t = false := by
  simp [needsSpace, holdsNext, operator]

/-- Between two words there is a space, unless one of them is a unary operator. -/
theorem needsSpace_of_wordsMeet {p t : Token} (words : WordsMeet p.text t.text)
    (plain : p.isPrefixOperator = false) (plain' : t.isPostfixOperator = false) :
    p.needsSpace t = true := by
  have closed : ∀ s ∈ holding, s.toList.getLast?.any isWordChar = false := by decide +kernel
  have opened : ∀ s ∈ clinging, s.toList.head?.any isWordChar = false := by decide +kernel
  by_contra tight
  rcases needsSpace_cases (Bool.eq_false_iff.mpr tight) with operator | operator | left | right
  · exact absurd operator (by simp [plain])
  · exact absurd operator (by simp [plain'])
  · exact absurd words.1 (by simp [closed _ left])
  · exact absurd words.2 (by simp [opened _ right])

/-- Where two equal signs meet, only these rules leave out the space. -/
theorem needsSpace_of_signsMeet {p t : Token} (signs : SignsMeet p.text t.text) :
    p.needsSpace t = false ↔
      p.isPrefixOperator = true ∨ t.isPostfixOperator = true ∨ t.text = "->" := by
  obtain ⟨sign, known, ends, begins⟩ := signs
  have ends_sign : p.text.toList.getLast?.any isSign = true := by simp [ends, known]
  have begins_sign : t.text.toList.head?.any isSign = true := by simp [begins, known]
  have closed : ∀ s ∈ holding, s.toList.getLast?.any isSign = false := by decide +kernel
  have opened : ∀ s ∈ clinging, s.toList.head?.any isSign = true → s = "->" := by decide +kernel
  constructor
  · intro tight
    rcases needsSpace_cases tight with operator | operator | left | right
    · exact .inl operator
    · exact .inr (.inl operator)
    · exact absurd ends_sign (by simp [closed _ left])
    · exact .inr (.inr (opened _ right begins_sign))
  · rintro (operator | operator | arrow)
    · exact needsSpace_of_isPrefixOperator operator t
    · -- The rules that might ask for a space all the same are about texts that begin with no sign.
      have signless : ∀ s ∈ ["?", ":", "(", "["], s.toList.head?.any isSign = false := by
        decide +kernel
      have other : t.text ∉ ["?", ":", "(", "["] := fun listed =>
        absurd begins_sign (by simp [signless _ listed])
      simp only [List.mem_cons, List.not_mem_nil, or_false, not_or] at other
      simp [needsSpace, other, operator]
    · simp [needsSpace, arrow]

end Token

/-- What stands before a token fits the token before it. -/
structure Fits (p q : Placed) : Prop where
  later : q.gap ≠ .start
  tight : q.gap = .tight → q.token.isTrivia = false ∧ p.token.needsSpace q.token = false
  space : q.gap = .space → q.token.isTrivia = true ∨ p.token.needsSpace q.token = true

namespace LayoutState

theorem spaced_of_gap (s : LayoutState) (spaced : Bool) :
    (s.gap spaced = .tight → spaced = false) ∧ (s.gap spaced = .space → spaced = true) := by
  unfold gap
  cases s.due <;> cases spaced <;> simp

theorem gap_of_due_ne_none {s : LayoutState} (due : s.due ≠ .none) (spaced : Bool) :
    s.gap spaced ≠ .tight ∧ s.gap spaced ≠ .space := by
  unfold gap
  cases found : s.due with
  | none => exact absurd found due
  | atStart | line | blankLine => simp

theorem place_kept_ne_start {s : LayoutState} (later : s.due ≠ .atStart) {t : Token}
    {next? : Option Token} : (s.place .kept t next?).1 ≠ some .start := by
  obtain ⟨gap, placed, allowed⟩ := s.place_kept_gap t next?
  rw [placed]
  rintro ⟨⟩
  cases due : s.due with
  | atStart => exact later due
  | none | line | blankLine => rw [due] at allowed; cases allowed

/-- Code that is written on the line of another token fits it. -/
theorem place_code_fits {s : LayoutState} {p t : Token} (previous : s.previous? = some p)
    (code : t.isTrivia = false) (next? : Option Token) :
    ((s.place .kept t next?).1 = some .tight → p.needsSpace t = false) ∧
      ((s.place .kept t next?).1 = some .space → p.needsSpace t = true) := by
  have broken (s : LayoutState) (depth : Nat) (spaced : Bool) :=
    @gap_of_due_ne_none { s.breakLine with depth := depth } s.due_breakLine_ne_none spaced
  unfold place
  simp only [code, Bool.false_eq_true, if_false, Option.some.injEq]
  by_cases opening : (t.isBlockBrace && t.text == "\x7b") = true
  · have line := broken s s.breakLine.depth false
    rw [if_pos opening]
    exact ⟨fun tight => absurd tight line.1, fun space => absurd space line.2⟩
  · by_cases closing : (t.isBlockBrace && t.text == "\x7d") = true
    · have line := broken s (s.depth - 1) false
      rw [if_neg opening, if_pos closing]
      exact ⟨fun tight => absurd tight line.1, fun space => absurd space line.2⟩
    · rw [if_neg opening, if_neg closing]
      by_cases starts : t.startsMember = true
      · have line := broken s s.breakLine.depth (p.needsSpace t)
        simp only [placeOrdinary, starts, if_true, previous?_breakLine, previous, Option.any_some]
        exact ⟨fun tight => absurd tight line.1, fun space => absurd space line.2⟩
      · simp only [placeOrdinary, starts, Bool.false_eq_true, if_false, previous, Option.any_some]
        exact spaced_of_gap s (p.needsSpace t)

/-- A token that is written after another one fits it. -/
theorem place_kept_fits {s : LayoutState} {p : Placed} (previous : s.previous? = some p.token)
    (later : s.due ≠ .atStart) {t : Token} {next? : Option Token} {gap : Gap}
    (placed : (s.place .kept t next?).1 = some gap) : Fits p ⟨gap, t⟩ where
  later := by
    rintro rfl
    exact place_kept_ne_start later placed
  tight := by
    rintro rfl
    cases trivia : t.isTrivia with
    | false => exact ⟨rfl, (place_code_fits previous trivia next?).1 placed⟩
    | true =>
      -- Comments and directives are never written without a gap.
      rw [place_of_isTrivia s trivia] at placed
      exact absurd ((spaced_of_gap _ true).1 (Option.some.inj placed)) (by simp)
  space := by
    rintro rfl
    cases trivia : t.isTrivia with
    | false => exact .inr ((place_code_fits previous trivia next?).2 placed)
    | true => exact .inl rfl

/-- Each token of a run fits the one before it; `p` is written last before the run. -/
theorem isChain_placeAll {trivia : Trivia} {s : LayoutState} {p : Placed}
    (previous : s.previous? = some p.token) (later : s.due ≠ .atStart) (ts : List Token) :
    List.IsChain Fits (p :: (placeAll trivia s ts).1) := by
  induction ts generalizing s p with
  | nil => exact List.isChain_singleton p
  | cons t rest ih =>
    rcases placeAll_cons_cases trivia s t rest with same | ⟨gap, placed, split⟩
    · rw [same]
      exact ih previous later
    · rw [split]
      apply List.isChain_cons_cons.mpr
      refine ⟨place_kept_fits previous later placed, ?_⟩
      exact ih (s.previous?_place_kept t _) (s.due_place_kept_ne_atStart t _)

theorem isChain_placeAll_initial (trivia : Trivia) (ts : List Token) :
    List.IsChain Fits (placeAll trivia .initial ts).1 := by
  induction ts with
  | nil => exact List.isChain_nil
  | cons t rest ih =>
    rcases placeAll_cons_cases trivia .initial t rest with same | ⟨gap, -, split⟩
    · rw [same]
      exact ih
    · rw [split]
      exact isChain_placeAll (previous?_place_kept _ t _) (due_place_kept_ne_atStart _ t _) rest

theorem mem_placeAll {trivia : Trivia} {s : LayoutState} {ts : List Token} {p : Placed}
    (member : p ∈ (placeAll trivia s ts).1) : p.token ∈ ts := by
  induction ts generalizing s with
  | nil => exact absurd member List.not_mem_nil
  | cons t rest ih =>
    rcases placeAll_cons_cases trivia s t rest with same | ⟨gap, -, split⟩
    · rw [same] at member
      exact List.mem_cons_of_mem t (ih member)
    · rw [split, List.mem_cons] at member
      rcases member with rfl | later
      · exact List.mem_cons_self
      · exact List.mem_cons_of_mem t (ih later)

end LayoutState

/-! ### Unary operators -/

/-- The token is a unary operator only if it is punctuation. -/
def Token.IsPunctuated (t : Token) : Prop :=
  t.isPrefixOperator = true ∨ t.isPostfixOperator = true → t.text.toList.any isWordChar = false

namespace Node

/-- The operator of a prefix or postfix expression. -/
def isUnaryOperator (n : Node) : Bool :=
  (n.parent?.map kind == some "prefix_unary_expression" && n.isFirst) ||
    (n.parent?.map kind == some "postfix_unary_expression" && n.isLast)

/-- No operator of a prefix or postfix expression in the subtree has a letter, a digit or an
underscore in it. -/
def OperatorsPunctuated (n : Node) : Prop :=
  ∀ c ∈ n.subtree, c.isLeaf = true → c.isUnaryOperator = true →
    c.text.toList.any isWordChar = false

theorem OperatorsPunctuated.child {n c : Node} (punctuated : n.OperatorsPunctuated)
    (child : c ∈ n.children) : c.OperatorsPunctuated :=
  fun x below => punctuated x (subtree_subset_of_mem_children child below)

theorem isUnaryOperator_of_token? {n : Node} {t : Token} (made : n.token? = some t)
    (operator : t.isPrefixOperator = true ∨ t.isPostfixOperator = true) :
    n.isUnaryOperator = true := by
  unfold token? at made
  dsimp only at made
  split at made
  next => cases made
  next =>
    cases made
    simp only [Token.isPrefixOperator, Token.isPostfixOperator, Bool.and_eq_true, beq_iff_eq]
      at operator
    cases parent : n.parent? with
    | none => simp [parent] at operator
    | some p => simpa [isUnaryOperator, parent] using operator

theorem text_of_token? {n : Node} {t : Token} (made : n.token? = some t) :
    t.text = n.writtenText := by
  unfold token? at made
  dsimp only at made
  split at made
  next => cases made
  next => cases made; rfl

theorem OperatorsPunctuated.tokens {n : Node} (punctuated : n.OperatorsPunctuated) :
    ∀ t ∈ n.tokens, t.IsPunctuated := by
  intro t member operator
  -- Marks change neither the operator nor the text, so the token may be taken from a leaf.
  let read (t : Token) := (t.isPrefixOperator, t.isPostfixOperator, t.text)
  have same : read t ∈ (n.leaves.filterMap token?).map read :=
    map_tokens read (fun _ => rfl) n ▸ List.mem_map_of_mem member
  obtain ⟨bare, found, equal⟩ := List.mem_map.mp same
  obtain ⟨leaf, listed, made⟩ := List.mem_filterMap.mp found
  simp only [read, Prod.mk.injEq] at equal
  obtain ⟨before, after, text⟩ := equal
  rw [← before, ← after] at operator
  obtain ⟨below, isLeaf⟩ := mem_leaves listed
  have whole := punctuated leaf below isLeaf (isUnaryOperator_of_token? made operator)
  rw [← text, text_of_token? made, List.any_eq_false]
  intro c inside
  exact List.any_eq_false.mp whole c ((Text.trimEnd_sublist leaf.text).subset inside)

theorem OperatorsPunctuated.tokens_header {n : Node} (punctuated : n.OperatorsPunctuated) :
    ∀ t ∈ n.header.flatMap Node.tokens, t.IsPunctuated := by
  intro t member
  obtain ⟨c, listed, inside⟩ := List.mem_flatMap.mp member
  exact (punctuated.child (mem_children_of_mem_header listed)).tokens t inside

/-- The tokens of the normalized text with what stands before each. -/
def placed (n : Node) : List Placed := (placeAll .kept .initial n.tokens).1

/-- The tokens of the header with what stands before each. -/
def placedHeader (n : Node) : List Placed :=
  (placeAll .dropped .initial (n.header.flatMap Node.tokens)).1

end Node

/-! ### Where tokens meet -/

/-- Two equal signs that layout brings together: the second token stands on the line of the first
one, and one of them is an operator of its operand, or the second one an arrow. -/
structure SignsClash (p q : Placed) : Prop where
  sameLine : q.gap = .tight ∨ q.gap = .space
  code : q.token.isTrivia = false
  signs : SignsMeet p.token.text q.token.text
  glued : p.token.isPrefixOperator = true ∨ q.token.isPostfixOperator = true ∨
    q.token.text = "->"

theorem Gap.text_eq_empty {gap : Gap} {options : LayoutOptions} (newline : options.newline ≠ "")
    (later : gap ≠ .start) : gap.text options = "" ↔ gap = .tight := by
  cases gap <;> simp_all [Gap.text, String.append_eq_empty_iff]

theorem Gap.inlineText_eq_empty {gap : Gap} (later : gap ≠ .start) :
    gap.inlineText = "" ↔ gap = .tight := by
  cases gap <;> simp_all [Gap.inlineText]

theorem Token.IsPunctuated.not_operator {t : Token} (punctuated : t.IsPunctuated) {c : Char}
    (inside : c ∈ t.text.toList) (word : isWordChar c = true) :
    t.isPrefixOperator = false ∧ t.isPostfixOperator = false := by
  rw [← Bool.not_eq_true, ← Bool.not_eq_true, ← not_or]
  intro operator
  exact List.any_eq_false.mp (punctuated operator) c inside word

theorem Token.IsPunctuated.not_wordsMeet {p t : Token} (tight : p.needsSpace t = false)
    (punctuated : p.IsPunctuated) (punctuated' : t.IsPunctuated) :
    ¬WordsMeet p.text t.text := by
  intro words
  -- A unary operator neither ends nor begins like a word.
  obtain ⟨c, ends, word⟩ := (Option.any_eq_true ..).mp words.1
  obtain ⟨c', begins, word'⟩ := (Option.any_eq_true ..).mp words.2
  have plain := punctuated.not_operator (List.mem_of_getLast? ends) word
  have plain' := punctuated'.not_operator (List.mem_of_head? begins) word'
  exact absurd tight (by simp [needsSpace_of_wordsMeet words plain.1 plain'.2])

theorem Fits.meet_iff {p q : Placed} (fits : Fits p q) (punctuated : p.token.IsPunctuated)
    (punctuated' : q.token.IsPunctuated) :
    q.gap = .tight ∧ (WordsMeet p.token.text q.token.text ∨ SignsMeet p.token.text q.token.text) ↔
      SignsClash p q := by
  constructor
  · rintro ⟨tight, meet⟩
    obtain ⟨code, close⟩ := fits.tight tight
    rcases meet with words | signs
    · exact absurd words (Token.IsPunctuated.not_wordsMeet close punctuated punctuated')
    · exact ⟨.inl tight, code, signs, (Token.needsSpace_of_signsMeet signs).mp close⟩
  · rintro ⟨sameLine, code, signs, glued⟩
    have close := (Token.needsSpace_of_signsMeet signs).mpr glued
    rcases sameLine with tight | space
    · exact ⟨tight, .inr signs⟩
    · rcases fits.space space with trivia | spaced
      · simp [code] at trivia
      · simp [close] at spaced

/-- In a run whose unary operators are punctuation, tokens meet only where signs clash. -/
theorem meet_iff_of_placeAll {trivia : Trivia} {ts : List Token}
    (punctuated : ∀ t ∈ ts, t.IsPunctuated) {p q : Placed}
    (next : [p, q] <:+: (placeAll trivia .initial ts).1) :
    q.gap ≠ .start ∧
      (q.gap = .tight ∧
        (WordsMeet p.token.text q.token.text ∨ SignsMeet p.token.text q.token.text) ↔
      SignsClash p q) := by
  have fits : Fits p q := by
    have chain := LayoutState.isChain_placeAll_initial trivia ts
    obtain ⟨front, back, split⟩ := next
    rw [← split] at chain
    exact List.isChain_pair.mp chain.left_of_append.right_of_append
  have known (x : Placed) (member : x ∈ [p, q]) : x.token.IsPunctuated :=
    punctuated x.token (LayoutState.mem_placeAll (next.subset member))
  exact ⟨fits.later, fits.meet_iff (known p (by simp)) (known q (by simp))⟩

/-- Two tokens in a row are written without anything in between although words or equal signs meet
there exactly where signs clash, in the normalized text and in the header: never between words. -/
theorem meet_iff_signsClash (n : Node) (options : LayoutOptions) (newline : options.newline ≠ "")
    (punctuated : n.OperatorsPunctuated) :
    (∀ p q, [p, q] <:+: n.placed →
      (q.gap.text options = "" ∧
        (WordsMeet p.token.text q.token.text ∨ SignsMeet p.token.text q.token.text) ↔
      SignsClash p q)) ∧
    ∀ p q, [p, q] <:+: n.placedHeader →
      (q.gap.inlineText = "" ∧
        (WordsMeet p.token.text q.token.text ∨ SignsMeet p.token.text q.token.text) ↔
      SignsClash p q) := by
  constructor
  · intro p q next
    obtain ⟨later, meet⟩ := meet_iff_of_placeAll punctuated.tokens next
    rw [Gap.text_eq_empty newline later, meet]
  · intro p q next
    obtain ⟨later, meet⟩ := meet_iff_of_placeAll punctuated.tokens_header next
    rw [Gap.inlineText_eq_empty later, meet]

/-! ### A negated operand -/

/-- A minus before a negated name, with a blank between the two signs. -/
def negatedTwice : Node :=
  .root (.node ⟨"prefix_unary_expression", none, true, false, ⟨0, 4, 0, 0⟩, "- -n"⟩
    [literalTree "-" false "-" 0 0,
      .node ⟨"prefix_unary_expression", none, true, false, ⟨2, 4, 0, 0⟩, "-n"⟩
        [literalTree "-" false "-" 2 0, literalTree "identifier" true "n" 3 0]])

/-- The minus of a negation that itself stands in such a node. -/
def minusWithin (grandparent : String) : Token :=
  { (default : Token) with
    text := "-", kind := "-", parent := "prefix_unary_expression", grandparent, isFirst := true }

/-- The two signs are written as a decrement. -/
theorem negatedTwice_decrements :
    LayoutOptions.standard.newline ≠ "" ∧ negatedTwice.OperatorsPunctuated ∧
      (∃ p q, [p, q] <:+: negatedTwice.placed ∧ q.gap.text .standard = "" ∧
        p.token = minusWithin "" ∧ q.token = minusWithin "prefix_unary_expression") ∧
      negatedTwice.normalized .standard = "--n" := by
  have newline : LayoutOptions.standard.newline ≠ "" := by decide
  have punctuated : negatedTwice.OperatorsPunctuated := by
    refine Node.forall_mem_subtree.mpr ⟨by decide +kernel, fun c child => ?_⟩
    apply Node.forall_subtree_of_flat
    · revert c
      decide +kernel
    · revert c
      decide +kernel
  refine ⟨newline, punctuated, ?_, by decide +kernel⟩
  let p : Placed := ⟨.start, minusWithin ""⟩
  let q : Placed := ⟨.tight, minusWithin "prefix_unary_expression"⟩
  have next : [p, q] <:+: negatedTwice.placed := by decide +kernel
  have clash : SignsClash p q :=
    { sameLine := .inl rfl, code := by decide, glued := .inl (by decide)
      signs := ⟨'-', by decide, by decide, by decide⟩ }
  obtain ⟨lines, -⟩ := meet_iff_signsClash negatedTwice .standard newline punctuated
  exact ⟨p, q, next, ((lines p q next).mpr clash).1, rfl, rfl⟩

end ClassAtlas
