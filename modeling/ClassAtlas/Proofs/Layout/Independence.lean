import ClassAtlas.Proofs.Layout.Settled

/-!
# Normalized text does not depend on the layout of the source

Two nodes are alike when nothing but layout tells them apart. Their tokens then differ in their rows
only. Of the rows normalized text keeps no more than the answers to two questions about every
comment and directive: whether it begins where the token before it ends, and whether the next token
begins further down. The header of a member on a single line does not even depend on these.
-/
namespace ClassAtlas

namespace Token

/-- The token begins on the row on which the one before it ends. -/
def sharesRow (t : Token) (previous? : Option Token) : Bool :=
  previous?.any fun p => p.endRow == t.startRow

/-- The next token begins on a later row than this one ends on. -/
def leavesRow (t : Token) (next? : Option Token) : Bool :=
  next?.any fun next => decide (t.endRow < next.startRow)

end Token

/-- What rows tell about each comment and directive of a sequence of tokens: whether it begins where
the token before it ends, and whether the next token begins on a later row. -/
def rowAnswers (previous? : Option Token) : List Token → List (Bool × Bool)
  | [] => []
  | t :: rest =>
    if t.isTrivia then
      (t.sharesRow previous?, t.leavesRow rest.head?) :: rowAnswers (some t) rest
    else rowAnswers (some t) rest

open Token (PlacedAlike)

namespace LayoutState

/-- The gaps and texts of placed tokens, and the break that is due after them. -/
def layoutOf (result : List Placed × Break) : List (Gap × String) × Break :=
  (result.1.map fun p => (p.gap, p.token.text), result.2)

theorem layoutOf_placeAll_cons {trivia : Trivia} {s : LayoutState} {t : Token} {rest : List Token}
    {gap : Gap} (placed : (s.place trivia t rest.head?).1 = some gap) :
    layoutOf (placeAll trivia s (t :: rest)) =
      ((gap, t.text) :: (layoutOf (placeAll trivia (s.place trivia t rest.head?).2 rest)).1,
        (layoutOf (placeAll trivia (s.place trivia t rest.head?).2 rest)).2) := by
  rw [placeAll_cons placed]
  rfl

/-- A comment or directive with the same answers is placed alike. -/
theorem placeTrivia_of_answers {s : LayoutState} {rows : Nat × Nat} {t t' : Token}
    (moved : t' = t.onRows t'.rows) {next? next'? : Option Token}
    (shares : t'.sharesRow (s.reseat rows).previous? = t.sharesRow s.previous?)
    (leaves : t'.leavesRow next'? = t.leavesRow next?) :
    (s.reseat rows).placeTrivia t' next'? =
      ((s.placeTrivia t next?).1, (s.placeTrivia t next?).2.reseat t'.rows) := by
  have trails : (s.reseat rows).trails t' = s.trails t := congrArg (s.due == .none && ·) shares
  have comment : t'.isLineComment = t.isLineComment := by rw [moved]; rfl
  have kind : t'.kind = t.kind := by rw [moved]; rfl
  have ends : endsLine t' next'? = endsLine t next? := by
    rw [endsLine, endsLine, comment, kind]
    exact congrArg (_ || ·) leaves
  obtain ⟨after, -, here, again⟩ := placeTrivia_of_trails moved trails next? next'?
  rw [again, here, ends]

/-- Tokens with the same answers are laid out alike, whatever rows they stand on. -/
theorem placeAll_of_answers {ts ts' : List Token}
    (same : ts'.map Token.unplaced = ts.map Token.unplaced) {s : LayoutState} {rows : Nat × Nat}
    (answers : rowAnswers (s.reseat rows).previous? ts' = rowAnswers s.previous? ts) :
    layoutOf (placeAll .kept (s.reseat rows) ts') = layoutOf (placeAll .kept s ts) := by
  induction ts generalizing ts' s rows with
  | nil =>
    rw [List.map_nil, List.map_eq_nil_iff] at same
    subst same
    rfl
  | cons t rest ih =>
    obtain ⟨t', rest', rfl, first, others⟩ := List.map_eq_cons_iff.mp same
    have moved : t' = t.onRows t'.rows := Token.eq_onRows first
    have texts : t'.text = t.text := by rw [moved]; rfl
    have kinds : t'.isTrivia = t.isTrivia := by rw [moved]; rfl
    obtain ⟨gap, placed, -⟩ := place_kept_gap s t rest.head?
    -- After this token both runs stand at one state but for the row of the token just written.
    suffices step : (s.reseat rows).place .kept t' rest'.head? =
        ((s.place .kept t rest.head?).1, (s.place .kept t rest.head?).2.reseat t'.rows) by
      have placed' : ((s.reseat rows).place .kept t' rest'.head?).1 = some gap := by
        rw [step, placed]
      have later : rowAnswers (some t') rest' = rowAnswers (some t) rest := by
        simp only [rowAnswers, kinds] at answers
        split at answers
        · exact (List.cons.inj answers).2
        · exact answers
      have written : ((s.place .kept t rest.head?).2.reseat t'.rows).previous? = some t' := by
        rw [reseat, previous?_place_kept, Option.map_some, ← moved]
      rw [layoutOf_placeAll_cons placed, layoutOf_placeAll_cons placed', step, texts, ih others]
      rw [written, previous?_place_kept, later]
    cases trivia : t.isTrivia with
    | true =>
      rw [trivia] at kinds
      simp only [rowAnswers, kinds, trivia, if_true, List.cons.injEq, Prod.mk.injEq] at answers
      rw [place_of_isTrivia _ kinds, place_of_isTrivia _ trivia,
        placeTrivia_of_answers moved answers.1.1 answers.1.2]
    | false =>
      obtain ⟨nextRows, nexts⟩ := Token.head?_onRows others
      have step := place_reseat s trivia rest.head? rows t'.rows nextRows
      rwa [← moved, ← nexts] at step

/-- Tokens that are placed alike are laid out alike where comments and directives are left out. -/
theorem placeAll_dropped_alike {ts ts' : List Token} (alike : List.Forall₂ PlacedAlike ts ts')
    {s : LayoutState} {previous? : Option Token}
    (before : Option.Rel PlacedAlike s.previous? previous?) :
    layoutOf (placeAll .dropped (s.withPrevious previous?) ts') =
      layoutOf (placeAll .dropped s ts) := by
  induction alike generalizing s previous? with
  | nil => rfl
  | @cons t t' rest rest' first others ih =>
    have kinds := first.isTrivia
    cases trivia : t.isTrivia with
    | true =>
      rw [trivia] at kinds
      rw [placeAll_dropped_cons _ kinds, placeAll_dropped_cons _ trivia]
      exact ih before
    | false =>
      rw [trivia] at kinds
      obtain ⟨gap, placed, -⟩ := place_kept_gap s t rest.head?
      have next : rest'.head?.map Token.text = rest.head?.map Token.text := by
        cases others with
        | nil => rfl
        | cons first => exact congrArg some first.text
      have step := place_withPrevious s before first trivia next
      -- The token just written is the one that the next two are placed after.
      have last : Option.Rel PlacedAlike (s.place .kept t rest.head?).2.previous? (some t') := by
        rw [previous?_place_kept]
        exact .some first
      have later := ih last
      rw [← place_of_code .dropped _ kinds, ← place_of_code .dropped _ trivia] at step
      rw [← place_of_code .dropped _ trivia] at placed later
      have placed' : ((s.withPrevious previous?).place .dropped t' rest'.head?).1 = some gap := by
        rw [step, placed]
      rw [layoutOf_placeAll_cons placed, layoutOf_placeAll_cons placed', step, first.text, later]

end LayoutState

/-! ### From the layout to the text -/

open LayoutState (layoutOf)

theorem join_of_layoutOf (spell : Gap → String) {result result' : List Placed × Break}
    (same : layoutOf result' = layoutOf result) :
    String.join (result'.1.map fun p => spell p.gap ++ p.token.text) =
      String.join (result.1.map fun p => spell p.gap ++ p.token.text) := by
  have spelled (result : List Placed × Break) :
      (result.1.map fun p => spell p.gap ++ p.token.text) =
        (layoutOf result).1.map fun p => spell p.1 ++ p.2 := by
    simp [layoutOf, Function.comp_def]
  rw [spelled, spelled, same]

theorem layoutLines_of_answers {ts ts' : List Token}
    (same : ts'.map Token.unplaced = ts.map Token.unplaced)
    (answers : rowAnswers none ts' = rowAnswers none ts) (options : LayoutOptions) :
    layoutLines options ts' = layoutLines options ts := by
  have placed := @LayoutState.placeAll_of_answers ts ts' same .initial (0, 0) answers
  have due := congrArg (fun layout => layout.2.text options) placed
  have texts := join_of_layoutOf (Gap.text options) placed
  exact congrArg Text.trimEnd (congr (congrArg _ texts) due)

theorem layoutInline_alike {ts ts' : List Token} (alike : List.Forall₂ PlacedAlike ts ts') :
    layoutInline ts' = layoutInline ts := by
  have placed := LayoutState.placeAll_dropped_alike (s := .initial) alike .none
  exact congrArg Text.trimEnd (join_of_layoutOf Gap.inlineText placed)

/-- Where comments and directives are left out, rows play no part at all. -/
theorem layoutInline_unplaced {ts ts' : List Token}
    (same : ts'.map Token.unplaced = ts.map Token.unplaced) :
    layoutInline ts' = layoutInline ts := by
  apply layoutInline_alike
  rw [← List.forall₂_eq_eq_eq, List.forall₂_map_left_iff, List.forall₂_map_right_iff] at same
  refine same.flip.imp fun t t' pair => ?_
  rw [Token.eq_onRows pair]
  exact .onRows t t'.rows

namespace Node

/-- Only layout tells the nodes apart: kinds and fields are the same in and around them, and at the
same places the same is written in every childless or atomic node, and the same directives stand on
a single row. -/
structure Alike (n n' : Node) : Prop where
  form : n'.form = n.form
  texts : ∀ c ∈ n.subtree, ∀ c' ∈ n'.subtree, c'.address = c.address → c.isLeaf = true →
    c'.text = c.text
  oneRow : ∀ c ∈ n.subtree, ∀ c' ∈ n'.subtree, c'.address = c.address →
    Token.isDirectiveKind c.kind = true → (c'.startRow = c'.endRow ↔ c.startRow = c.endRow)

namespace Alike

variable {n n' : Node}

theorem child (alike : n.Alike n') {c c' : Node} (child : c ∈ n.children)
    (child' : c' ∈ n'.children) (same : c'.form = c.form) : c.Alike c' where
  form := same
  texts x below x' below' := alike.texts x (subtree_subset_of_mem_children child below) x'
    (subtree_subset_of_mem_children child' below')
  oneRow x below x' below' := alike.oneRow x (subtree_subset_of_mem_children child below) x'
    (subtree_subset_of_mem_children child' below')

theorem isLeaf_eq (alike : n.Alike n') : n'.isLeaf = n.isLeaf := by
  have kinds := congr_of_view kind kind_form alike.form
  have childless := congr_of_view (fun n => n.children.isEmpty) (by simp) alike.form
  have places := congr_of_view address address_form alike.form
  have rows := alike.oneRow n n.mem_subtree_self n' n'.mem_subtree_self places
  simp only [isLeaf, isAtomic, kinds] at childless ⊢
  rw [childless]
  cases directive : Token.isDirectiveKind n.kind with
  | false => simp
  | true =>
    have single : (n'.startRow == n'.endRow) = (n.startRow == n.endRow) := by
      rw [Bool.eq_iff_iff]
      simpa using rows directive
    rw [single]

theorem sameLeaves (alike : n.Alike n') : SameLeaves n n' := by
  induction n using childInduction generalizing n' with
  | step n ih =>
    have leaf := alike.isLeaf_eq
    have places := congr_of_view address address_form alike.form
    cases shape : n.isLeaf with
    | true =>
      have texts := alike.texts n n.mem_subtree_self n' n'.mem_subtree_self places shape
      exact .leaf shape (leaf.trans shape) (congrArg Text.trimEnd texts)
    | false =>
      refine .branch shape (leaf.trans shape) ?_
      refine forall₂_of_map_eq (map_form_children alike.form) fun c member c' member' same => ?_
      exact ih c member (alike.child member member' same)

theorem map_unplaced_tokens (alike : n.Alike n') :
    n'.tokens.map Token.unplaced = n.tokens.map Token.unplaced :=
  map_unplaced_tokens_of_form alike.form alike.sameLeaves

theorem map_unplaced_header (alike : n.Alike n') :
    (n'.header.flatMap tokens).map Token.unplaced =
      (n.header.flatMap tokens).map Token.unplaced := by
  rw [List.map_flatMap, List.map_flatMap]
  apply flatMap_congr_of_forall₂
  refine forall₂_of_map_eq (map_form_header alike.form) fun c member c' member' same => ?_
  exact (alike.child (mem_children_of_mem_header member) (mem_children_of_mem_header member')
    same).map_unplaced_tokens

end Alike

end Node

/-- Nodes that only layout tells apart have the same normalized text if rows tell the same about
their comments and directives, and the same header in any case. -/
theorem layout_independent (n n' : Node) (alike : n.Alike n') :
    (rowAnswers none n'.tokens = rowAnswers none n.tokens →
      ∀ options, n'.normalized options = n.normalized options) ∧
      n'.signature = n.signature := by
  refine ⟨fun answers options => ?_, ?_⟩
  · exact layoutLines_of_answers alike.map_unplaced_tokens answers options
  · exact layoutInline_unplaced alike.map_unplaced_header

/-! ### The block with a comment, spread over more rows -/

/-- The block of `commentedBlock` with more blanks before the comment and more rows after it. -/
def spreadBlock : Node :=
  .root (.node ⟨"block", none, true, false, ⟨0, 18, 0, 3⟩, "\x7b     // off \n\n\n\x7d"⟩
    [literalTree "\x7b" false "\x7b" 0 0, literalTree "comment" true "// off " 6 0,
      literalTree "\x7d" false "\x7d" 17 3])

theorem spreadBlock_alike : commentedBlock.Alike spreadBlock where
  form := rfl
  texts := by decide +kernel
  oneRow := by decide +kernel

theorem spreadBlock_normalized :
    commentedBlock.Alike spreadBlock ∧ spreadBlock.endRow ≠ commentedBlock.endRow ∧
      rowAnswers none spreadBlock.tokens = rowAnswers none commentedBlock.tokens ∧
      spreadBlock.normalized .standard = commentedBlock.normalized .standard ∧
      spreadBlock.signature = commentedBlock.signature := by
  have answers : rowAnswers none spreadBlock.tokens = rowAnswers none commentedBlock.tokens := by
    decide +kernel
  obtain ⟨normalized, header⟩ := layout_independent commentedBlock spreadBlock spreadBlock_alike
  exact ⟨spreadBlock_alike, by decide, answers, normalized answers .standard, header⟩

end ClassAtlas
