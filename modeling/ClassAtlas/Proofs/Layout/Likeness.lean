import ClassAtlas.Proofs.Layout.Steps

/-!
# Tokens that are placed alike

Layout asks little of what surrounds a token: a few kinds of parents, and where the token stands in
them. Tokens that give the same answers are placed alike after alike tokens. So code may move to
other rows, and the tokens of a header do not depend on which member the header belongs to, nor on
what stands around that member.
-/
namespace ClassAtlas

namespace Token

/-- The kinds of members that have a header. -/
def memberKinds : List String := ["method_declaration", "constructor_declaration"]

/-- The tokens differ in nothing that layout asks of code. Those directly in a member may stand
anywhere in it, since no spacing depends on that. -/
structure PlacedAlike (t t' : Token) : Prop where
  text : t'.text = t.text
  kind : t'.kind = t.kind
  isBlockBrace : t'.isBlockBrace = t.isBlockBrace
  startsMember : t'.startsMember = t.startsMember
  endsMember : t'.endsMember = t.endsMember
  place : (t'.parent = t.parent ∧ t'.isFirst = t.isFirst ∧ t'.isLast = t.isLast) ∨
    (t.parent ∈ memberKinds ∧ t'.parent ∈ memberKinds)
  closesAttributes : LayoutState.closesAttributes t' = LayoutState.closesAttributes t
  closesMember : t.isBlockBrace = true →
    LayoutState.closesMember t' = LayoutState.closesMember t

namespace PlacedAlike

variable {p p' t t' : Token}

theorem isTrivia (alike : PlacedAlike t t') : t'.isTrivia = t.isTrivia := by
  rw [Token.isTrivia, Token.isTrivia, alike.kind]

/-- Kinds of parents that are no members are told apart. -/
theorem contains_parent (alike : PlacedAlike t t') {kinds : List String}
    (others : ∀ kind ∈ memberKinds, kinds.contains kind = false) :
    kinds.contains t'.parent = kinds.contains t.parent := by
  rcases alike.place with ⟨same, -, -⟩ | ⟨direct, direct'⟩
  · rw [same]
  · rw [others _ direct, others _ direct']

theorem parent_beq (alike : PlacedAlike t t') {kind : String} (other : kind ∉ memberKinds) :
    (t'.parent == kind) = (t.parent == kind) := by
  rcases alike.place with ⟨same, -, -⟩ | ⟨direct, direct'⟩
  · rw [same]
  · have apart {member : String} (among : member ∈ memberKinds) : (member == kind) = false :=
      beq_eq_false_iff_ne.mpr fun same => other (same ▸ among)
    rw [apart direct, apart direct']

/-- Neither is a certain operator, or they stand at the same place among their siblings. -/
theorem operator (alike : PlacedAlike t t') {kind : String} (other : kind ∉ memberKinds) :
    (t'.parent == kind && t'.isFirst) = (t.parent == kind && t.isFirst) ∧
      (t'.parent == kind && t'.isLast) = (t.parent == kind && t.isLast) := by
  rcases alike.place with ⟨same, first, last⟩ | ⟨direct, direct'⟩
  · rw [same, first, last]
    exact ⟨rfl, rfl⟩
  · have apart : (t.parent == kind) = false := beq_eq_false_iff_ne.mpr fun same =>
      other (same ▸ direct)
    rw [alike.parent_beq other, apart]
    exact ⟨rfl, rfl⟩

theorem isTypeBracket (alike : PlacedAlike t t') : t'.isTypeBracket = t.isTypeBracket := by
  rw [Token.isTypeBracket, Token.isTypeBracket, alike.text, alike.contains_parent (by decide)]

theorem isPostfixOperator (alike : PlacedAlike t t') :
    t'.isPostfixOperator = t.isPostfixOperator :=
  (alike.operator (by decide)).2

theorem holdsNext (alike : PlacedAlike t t') : t'.holdsNext = t.holdsNext := by
  have operator : t'.isPrefixOperator = t.isPrefixOperator := (alike.operator (by decide)).1
  simp only [Token.holdsNext, alike.text, alike.isTypeBracket, operator,
    alike.parent_beq (by decide : "conditional_access_expression" ∉ memberKinds),
    alike.parent_beq (by decide : "cast_expression" ∉ memberKinds),
    alike.parent_beq (by decide : "array_rank_specifier" ∉ memberKinds)]

theorem spacedBeforeBracket (alike : PlacedAlike t t') :
    t'.spacedBeforeBracket = t.spacedBeforeBracket := by
  simp only [Token.spacedBeforeBracket, Token.isWord, alike.text]

theorem needsSpace (before : PlacedAlike p p') (alike : PlacedAlike t t') :
    p'.needsSpace t' = p.needsSpace t := by
  have nullable : ["nullable_type", "conditional_access_expression"].contains t'.parent =
      ["nullable_type", "conditional_access_expression"].contains t.parent :=
    alike.contains_parent (by decide)
  have colon : spacedColonParents.contains t'.parent = spacedColonParents.contains t.parent :=
    alike.contains_parent (by decide)
  simp only [Token.needsSpace, before.holdsNext, before.text, before.isTypeBracket,
    before.spacedBeforeBracket, alike.text, alike.isTypeBracket, alike.isPostfixOperator, nullable,
    colon, alike.parent_beq (by decide : "pointer_type" ∉ memberKinds)]

end PlacedAlike

end Token

open Token (PlacedAlike)

namespace LayoutState

/-! ### Another token before -/

/-- The state when another token has been written last. -/
def withPrevious (s : LayoutState) (previous? : Option Token) : LayoutState := { s with previous? }

variable {s : LayoutState} {t t' : Token} {previous? next? next'? : Option Token}

theorem breakLine_withPrevious (s : LayoutState) (previous? : Option Token) :
    (s.withPrevious previous?).breakLine = s.breakLine.withPrevious previous? := by
  obtain ⟨due, depth, parens, braces, before?⟩ := s
  cases due <;> rfl

theorem breakBlank_withPrevious (s : LayoutState) (previous? : Option Token) :
    (s.withPrevious previous?).breakBlank = s.breakBlank.withPrevious previous? := by
  obtain ⟨due, depth, parens, braces, before?⟩ := s
  cases due <;> rfl

theorem afterToken_withPrevious (s : LayoutState) (alike : PlacedAlike t t') :
    (s.withPrevious previous?).afterToken t' = (s.afterToken t).withPrevious previous? := by
  have statements : (s.withPrevious previous?).endsStatements = s.endsStatements := rfl
  have label : switchLabelParents.contains t'.parent = switchLabelParents.contains t.parent :=
    alike.contains_parent (by decide)
  have entry := alike.parent_beq (by decide : "enum_member_declaration_list" ∉ Token.memberKinds)
  unfold afterToken
  rw [statements, label, entry, alike.text, alike.closesAttributes, breakLine_withPrevious]
  simp only [apply_ite (fun after : LayoutState => after.withPrevious previous?)]
  rfl

theorem afterClosing_withPrevious (s : LayoutState)
    (closes : closesMember t' = closesMember t)
    (next : next'?.map Token.text = next?.map Token.text) :
    (s.withPrevious previous?).afterClosing t' next'? =
      (s.afterClosing t next?).withPrevious previous? := by
  have broken := s.breakLine_withPrevious previous?
  have blank := s.breakBlank_withPrevious previous?
  cases next? with
  | none =>
    rw [Option.map_none, Option.map_eq_none_iff] at next
    rw [next]
    exact broken
  | some follower =>
    obtain ⟨follower', rfl, text⟩ := Option.map_eq_some_iff.mp next
    simp only [afterClosing, text, closes, broken, blank,
      apply_ite (fun after : LayoutState => after.withPrevious previous?)]

theorem placeOpening_withPrevious (s : LayoutState) (t t' : Token) :
    (s.withPrevious previous?).placeOpening t' =
      ((s.placeOpening t).1, (s.placeOpening t).2.withPrevious (some t')) := by
  have after := breakLine_withPrevious
    { s.breakLine.written t with
      depth := s.breakLine.depth + 1
      parens := 0
      braces := .block s.breakLine.parens :: s.breakLine.braces } (some t')
  unfold placeOpening
  rw [breakLine_withPrevious]
  exact congrArg _ after

theorem placeClosing_withPrevious (s : LayoutState) (closes : closesMember t' = closesMember t)
    (next : next'?.map Token.text = next?.map Token.text) :
    (s.withPrevious previous?).placeClosing t' next'? =
      ((s.placeClosing t next?).1, (s.placeClosing t next?).2.withPrevious (some t')) := by
  have after (s : LayoutState) : (s.withPrevious (some t')).afterClosing t' next'? =
      (s.afterClosing t next?).withPrevious (some t') := afterClosing_withPrevious s closes next
  unfold placeClosing
  rw [breakLine_withPrevious]
  refine congrArg _ (Eq.trans ?_ (after _))
  rfl

theorem placeOrdinary_withPrevious (s : LayoutState)
    (before : Option.Rel PlacedAlike s.previous? previous?) (alike : PlacedAlike t t') :
    (s.withPrevious previous?).placeOrdinary t' =
      ((s.placeOrdinary t).1, (s.placeOrdinary t).2.withPrevious (some t')) := by
  -- The space depends on what has been written last, but only through what layout asks of it.
  have spaced (s : LayoutState) (before : Option.Rel PlacedAlike s.previous? previous?) :
      ((s.withPrevious previous?).previous?.any fun p => p.needsSpace t') =
        s.previous?.any fun p => p.needsSpace t := by
    rw [withPrevious]
    generalize s.previous? = last? at before
    cases before with
    | none => rfl
    | some alike' => exact alike'.needsSpace alike
  have after (s : LayoutState) : ((s.withPrevious previous?).written t').afterToken t' =
      ((s.written t).afterToken t).withPrevious (some t') :=
    afterToken_withPrevious (s.written t) alike
  have stands : Option.Rel PlacedAlike
      (if t.startsMember then s.breakLine else s).previous? previous? := by
    split
    · rwa [previous?_breakLine]
    · exact before
  unfold placeOrdinary
  simp only [alike.startsMember, alike.endsMember, breakLine_withPrevious,
    ← apply_ite (fun s : LayoutState => s.withPrevious previous?), spaced _ stands, after,
    ← apply_ite (fun s : LayoutState => s.withPrevious (some t'))]
  rfl

/-- Code is placed alike after alike tokens, and then it is what has been written last. -/
theorem place_withPrevious (s : LayoutState) (before : Option.Rel PlacedAlike s.previous? previous?)
    (alike : PlacedAlike t t') (code : t.isTrivia = false)
    (next : next'?.map Token.text = next?.map Token.text) :
    (s.withPrevious previous?).place .kept t' next'? =
      ((s.place .kept t next?).1, (s.place .kept t next?).2.withPrevious (some t')) := by
  unfold place
  simp only [alike.isTrivia, code, alike.isBlockBrace, alike.text, Bool.false_eq_true, if_false]
  split_ifs with opens closes
  · rw [placeOpening_withPrevious s t t']
  · have block : t.isBlockBrace = true := (Bool.and_eq_true_iff.mp closes).1
    rw [s.placeClosing_withPrevious (alike.closesMember block) next]
  · rw [s.placeOrdinary_withPrevious before alike]

end LayoutState

end ClassAtlas
