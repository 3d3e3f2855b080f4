import ClassAtlas.Proofs.Layout.Brackets
import ClassAtlas.Proofs.Layout.Independence
import ClassAtlas.Proofs.Layout.Members
import ClassAtlas.Proofs.Layout.Neighbours

/-!
# Headers on a single line

The signature of a member consists of the words of its header, each as it is written and in order,
with nothing or one space between neighbours. Whatever breaks lines in a block does not do so here.
The header is also all that the signature depends on: members with the same header have the same
signature, of whichever kind they are and whatever stands around them and in them.
-/
namespace ClassAtlas

/-- A text consists of the given words, in order, with nothing or one space between neighbours. -/
inductive Spaced : List String → String → Prop
  | empty : Spaced [] ""
  | last (word : String) : Spaced [word] word
  | next {word following gap text : String} {rest : List String} :
      gap = "" ∨ gap = " " → Spaced (following :: rest) text →
      Spaced (word :: following :: rest) (word ++ gap ++ text)

/-- The texts of tokens, without comments and directives. -/
def codeTexts (ts : List Token) : List String :=
  (ts.filter fun t => !t.isTrivia).map Token.text

namespace Node

/-- What is written of a subtree in document order, without comments and directives. -/
def words (n : Node) : List String :=
  (n.writtenLeaves.filter fun leaf => !leaf.isTrivia).map writtenText

/-- The child of the body field, a block, an expression after `=>`, or a semicolon. -/
def StartsBody (c : Node) : Prop :=
  c.field? = some "body" ∨ c.kind ∈ ["block", "arrow_expression_clause", ";"]

/-- These are the children before the first one that starts a body, without lists of attributes and
comments. -/
def IsHeader (n : Node) (header : List Node) : Prop :=
  ∃ front back, n.children = front ++ back ∧ (∀ c ∈ front, ¬c.StartsBody) ∧
    (∀ c ∈ back.head?, c.StartsBody) ∧
    header = front.filter fun c => c.kind ∉ ["attribute_list", "comment"]

/-- Two nodes are of one kind, and so are the nodes below them down to those that are written in one
piece, of which the same is written. -/
inductive SameWords : Node → Node → Prop
  | leaf {n n' : Node} : n.isLeaf = true → n'.isLeaf = true → n'.kind = n.kind →
      n'.writtenText = n.writtenText → SameWords n n'
  | branch {n n' : Node} : n.isLeaf = false → n'.isLeaf = false → n'.kind = n.kind →
      List.Forall₂ SameWords n.children n'.children → SameWords n n'

/-! ### Where the body begins -/

theorem not_startsBody_of_mem {n c : Node}
    (before : c ∈ n.children.takeWhile fun c => !n.beginsBody c) : ¬c.StartsBody := by
  have inFront (c : Node) (before : c ∈ n.children.takeWhile fun c => !n.beginsBody c) :
      n.beginsBody c = false := by
    simpa using List.mem_takeWhile_imp before
  have apart := inFront c before
  rw [beginsBody, Bool.or_eq_false_iff] at apart
  rintro (field | kind)
  -- The first child of the field stands no later, so it would be before the body, too.
  · have known : ((n.children.takeWhile fun c => !n.beginsBody c).find? fun c =>
        c.field? == some "body").isSome = true :=
      List.find?_isSome.mpr ⟨c, before, beq_iff_eq.mpr field⟩
    obtain ⟨body, found⟩ := Option.isSome_iff_exists.mp known
    have first : n.child? "body" = some body := by
      rw [child?, ← List.takeWhile_append_dropWhile (p := fun c => !n.beginsBody c)
        (l := n.children), List.find?_append, found]
      rfl
    have begins : n.beginsBody body = true := by
      simp [beginsBody, first]
    rw [inFront body (List.mem_of_find?_eq_some found)] at begins
    cases begins
  · rw [← List.contains_iff_mem, apart.2] at kind
    cases kind

theorem startsBody_of_beginsBody {n c : Node} (child : c ∈ n.children)
    (begins : n.beginsBody c = true) : c.StartsBody := by
  rw [beginsBody, Bool.or_eq_true, Option.any_eq_true] at begins
  rcases begins with ⟨body, found, same⟩ | kind
  · have field : body.field? = some "body" := by
      rw [child?] at found
      simpa using List.find?_some found
    rw [eq_of_address_children (mem_children_of_child? found) child (beq_iff_eq.mp same)] at field
    exact .inl field
  · exact .inr (List.contains_iff_mem.mp kind)

theorem isHeader_header (n : Node) : n.IsHeader n.header := by
  refine ⟨n.children.takeWhile fun c => !n.beginsBody c,
    n.children.dropWhile fun c => !n.beginsBody c, List.takeWhile_append_dropWhile.symm,
    fun c => not_startsBody_of_mem, fun c first => ?_, ?_⟩
  · have child : c ∈ n.children :=
      (List.dropWhile_suffix _).subset (List.mem_of_head? first)
    have begins := List.head?_dropWhile_not (fun c => !n.beginsBody c) n.children
    rw [Option.mem_def.mp first] at begins
    exact startsBody_of_beginsBody child (by simpa using begins)
  · rw [header]
    refine List.filter_congr fun c _ => ?_
    rw [Bool.eq_iff_iff]
    simp

/-! ### Words -/

/-- The tokens that are neither comments nor directives are the words of the subtree. -/
theorem codeTexts_tokens (n : Node) : codeTexts n.tokens = n.words := by
  have pairs : List.Forall₂ (fun leaf t => t.isTrivia = leaf.isTrivia ∧ t.text = leaf.writtenText)
      n.writtenLeaves n.tokens :=
    n.marks_tokens.imp fun leaf t marks =>
      ⟨isTrivia_of_token? (t := t.unmarked) marks.token,
        text_of_token? (t := t.unmarked) marks.token⟩
  rw [words, codeTexts]
  generalize n.writtenLeaves = leaves, n.tokens = tokens at pairs
  induction pairs with
  | nil => rfl
  | @cons leaf t leaves tokens pair _ ih =>
    cases trivia : leaf.isTrivia with
    | true => simpa [pair.1, trivia] using ih
    | false => simpa [pair.1, pair.2, trivia] using ih

theorem codeTexts_flatMap (nodes : List Node) :
    codeTexts (nodes.flatMap tokens) = nodes.flatMap words := by
  rw [codeTexts, List.filter_flatMap, List.map_flatMap]
  exact List.flatMap_congr fun n _ => n.codeTexts_tokens

end Node

/-! ### A line of words -/

theorem Gap.inlineText_cases (gap : Gap) : gap.inlineText = "" ∨ gap.inlineText = " " := by
  cases gap <;> simp [inlineText]

theorem Spaced.endsVisible {words : List String} {text : String} (spaced : Spaced words text)
    (visible : ∀ word ∈ words, Text.EndsVisible word) (some_word : words ≠ []) :
    Text.EndsVisible text := by
  induction spaced with
  | empty => exact absurd rfl some_word
  | last word => exact visible word (by simp)
  | next _ _ ih =>
    exact Text.endsVisible_append _
      (ih (fun word member => visible word (List.mem_cons_of_mem _ member)) (by simp))

/-- All but the spaces is in the words. -/
theorem Spaced.mem_words {words : List String} {text : String} (spaced : Spaced words text)
    {c : Char} (inside : c ∈ text.toList) (other : c ≠ ' ') :
    ∃ word ∈ words, c ∈ word.toList := by
  induction spaced with
  | empty => cases inside
  | last word => exact ⟨word, List.mem_singleton_self word, inside⟩
  | @next word following gap text rest between _ ih =>
    have apart : c ∉ gap.toList := by
      rcases between with rfl | rfl
      · exact List.not_mem_nil
      · simpa using other
    rw [String.toList_append, String.toList_append, List.mem_append, List.mem_append] at inside
    rcases inside with (first | gap) | later
    · exact ⟨word, List.mem_cons_self, first⟩
    · exact absurd gap apart
    · obtain ⟨word', member, inside⟩ := ih later
      exact ⟨word', List.mem_cons_of_mem _ member, inside⟩

/-- The text of placed tokens on a single line, before it is trimmed. -/
def inlineText (placed : List Placed) : String :=
  String.join (placed.map fun p => p.gap.inlineText ++ p.token.text)

theorem codeTexts_cons_of_isTrivia {t : Token} (trivia : t.isTrivia = true) (rest : List Token) :
    codeTexts (t :: rest) = codeTexts rest := by
  simp [codeTexts, trivia]

theorem codeTexts_cons {t : Token} (code : t.isTrivia = false) (rest : List Token) :
    codeTexts (t :: rest) = t.text :: codeTexts rest := by
  simp [codeTexts, code]

/-- Placing tokens without comments and directives spaces their texts, after the gap that stands
before the first one. -/
theorem placeAll_spaced (s : LayoutState) (ts : List Token) :
    codeTexts ts = [] ∧ inlineText (placeAll .dropped s ts).1 = "" ∨
      ∃ word words gap text, codeTexts ts = word :: words ∧ s.due.Allows gap ∧
        Spaced (word :: words) text ∧
        inlineText (placeAll .dropped s ts).1 = gap.inlineText ++ text := by
  induction ts generalizing s with
  | nil => exact .inl ⟨rfl, rfl⟩
  | cons t rest ih =>
    cases trivia : t.isTrivia with
    | true =>
      rw [placeAll_dropped_cons s trivia, codeTexts_cons_of_isTrivia trivia]
      exact ih s
    | false =>
      obtain ⟨gap, placed, allowed⟩ := s.place_kept_gap t rest.head?
      rw [← LayoutState.place_of_code .dropped s trivia] at placed
      have line : inlineText (placeAll .dropped s (t :: rest)).1 = gap.inlineText ++ (t.text ++
          inlineText (placeAll .dropped (s.place .dropped t rest.head?).2 rest).1) := by
        rw [placeAll_cons placed]
        simp [inlineText, String.append_assoc]
      rw [codeTexts_cons trivia]
      refine .inr ⟨t.text, codeTexts rest, gap, _, rfl, allowed, ?_, line⟩
      -- The gap before the next word is the one that separates it from this one.
      obtain ⟨none, blank⟩ | ⟨next, words, between, text, found, -, spaced, later⟩ :=
        ih (s.place .dropped t rest.head?).2
      · rw [none, blank, String.append_empty]
        exact .last t.text
      · rw [found, later, ← String.append_assoc]
        exact .next between.inlineText_cases spaced

/-- A line of tokens consists of their texts with nothing or one space in between. -/
theorem layoutInline_spaced {ts : List Token} (visible : ∀ t ∈ ts, Text.EndsVisible t.text) :
    Spaced (codeTexts ts) (layoutInline ts) := by
  have trimmed : layoutInline ts = Text.trimEnd (inlineText (placeAll .dropped .initial ts).1) :=
    rfl
  rw [trimmed]
  obtain ⟨none, blank⟩ | ⟨word, words, gap, text, found, allowed, spaced, line⟩ :=
    placeAll_spaced .initial ts
  · rw [none, blank]
    exact .empty
  · -- Nothing stands before the first word, and the last one ends in a visible character.
    have start : gap = .start := by
      cases allowed with
      | atStart => rfl
    have ends : Text.EndsVisible text := by
      refine spaced.endsVisible (fun word member => ?_) (List.cons_ne_nil _ _)
      rw [← found] at member
      obtain ⟨t, inside, rfl⟩ := List.mem_map.mp member
      exact visible t (List.mem_of_mem_filter inside)
    have bare : gap.inlineText ++ text = text := by
      rw [start]
      exact String.empty_append
    rw [found, line, bare, Text.trimEnd_of_endsVisible ends]
    exact spaced

/-! ### Members with the same header -/

open Token (PlacedAlike memberKinds)

namespace Node

/-- The kind of the parent, or nothing. -/
def parentKind (n : Node) : String := (n.parent?.map kind).getD ""

def grandparentKind (n : Node) : String := ((n.parent?.bind parent?).map kind).getD ""

/-- Two nodes stand where layout makes no difference between them: both directly in a member, where
they are no attributes, or at the same place further down in it. -/
inductive StandsAlike (n n' : Node) : Prop
  | direct : n.parentKind ∈ memberKinds → n'.parentKind ∈ memberKinds →
      n.kind ≠ "attribute_list" → StandsAlike n n'
  | below : n'.parentKind = n.parentKind → n'.isFirst = n.isFirst → n'.isLast = n.isLast →
      n'.isInBlock = n.isInBlock →
      (n'.grandparentKind = n.grandparentKind ∨ n.parentKind ≠ "attribute_list" ∧
        n.grandparentKind ∈ memberKinds ∧ n'.grandparentKind ∈ memberKinds) → StandsAlike n n'

/-- Members with headers are declarations, but no lists and no blocks. -/
theorem forall_memberKinds : ∀ kind ∈ memberKinds,
    (kind ≠ "attribute_list" ∧ kind ≠ "accessor_list") ∧
      Token.memberListParents.contains kind = false ∧ Token.blockParents.contains kind = false ∧
      (Text.endsWith "_declaration" kind && kind != "accessor_declaration") = true := by
  decide

theorem isListedMember_eq (n : Node) :
    n.isListedMember = (!n.isComment && Token.memberListParents.contains n.parentKind) := by
  rw [isListedMember, parentKind]
  cases n.parent? <;> rfl

/-- What stands directly in a member is in no block. -/
theorem isInBlock_of_parentKind {n : Node} (direct : n.parentKind ∈ memberKinds) :
    n.isInBlock = false := by
  rw [parentKind] at direct
  rw [isInBlock]
  cases known : n.parent? with
  | none => rfl
  | some parent =>
    simp only [known, Option.map_some, Option.getD_some] at direct
    obtain ⟨⟨-, other⟩, -, plain, -⟩ := forall_memberKinds _ direct
    simp only [beq_eq_false_iff_ne.mpr other, Bool.false_eq_true, if_false, plain]

namespace StandsAlike

variable {n n' : Node}

theorem isInBlock (stands : StandsAlike n n') : n'.isInBlock = n.isInBlock := by
  cases stands with
  | direct parent parent' _ =>
    rw [isInBlock_of_parentKind parent, isInBlock_of_parentKind parent']
  | below _ _ _ inBlock _ => exact inBlock

theorem place (stands : StandsAlike n n') :
    (n'.parentKind = n.parentKind ∧ n'.isFirst = n.isFirst ∧ n'.isLast = n.isLast) ∨
      (n.parentKind ∈ memberKinds ∧ n'.parentKind ∈ memberKinds) := by
  cases stands with
  | direct parent parent' _ => exact .inr ⟨parent, parent'⟩
  | below parent first last _ _ => exact .inl ⟨parent, first, last⟩

/-- In attributes the grandparents are of one kind, since members have none in their headers. -/
theorem attributes (stands : StandsAlike n n') (ask : String → Bool) :
    (n'.parentKind == "attribute_list" && ask n'.grandparentKind) =
      (n.parentKind == "attribute_list" && ask n.grandparentKind) := by
  have apart {kind : String} (member : kind ∈ memberKinds) : (kind == "attribute_list") = false :=
    beq_eq_false_iff_ne.mpr (forall_memberKinds kind member).1.1
  cases stands with
  | direct parent parent' _ =>
    rw [apart parent, apart parent', Bool.false_and, Bool.false_and]
  | below parent _ _ _ grandparent =>
    rw [parent]
    rcases grandparent with same | ⟨other, -, -⟩
    · rw [same]
    · rw [beq_eq_false_iff_ne.mpr other, Bool.false_and, Bool.false_and]

theorem closesMember (stands : StandsAlike n n') {t t' : Token}
    (grandparent : t.grandparent = n.grandparentKind)
    (grandparent' : t'.grandparent = n'.grandparentKind) (inBlock : n.isInBlock = true) :
    LayoutState.closesMember t' = LayoutState.closesMember t := by
  have closes {kind : String} (member : kind ∈ memberKinds) :
      (Text.endsWith "_declaration" kind && kind != "accessor_declaration") = true :=
    (forall_memberKinds kind member).2.2.2
  rw [LayoutState.closesMember, LayoutState.closesMember, grandparent, grandparent']
  -- Such a brace is in a block of the header; if that stands directly in a member, this closes it.
  cases stands with
  | direct parent _ _ =>
    rw [isInBlock_of_parentKind parent] at inBlock
    cases inBlock
  | below _ _ _ _ around =>
    rcases around with same | ⟨-, member, member'⟩
    · rw [same]
    · rw [closes member, closes member']

/-- The tokens of two leaves that are alike. -/
theorem forall₂_token? (stands : StandsAlike n n') (kind : n'.kind = n.kind)
    (text : n'.writtenText = n.writtenText) :
    List.Forall₂ PlacedAlike n.token?.toList n'.token?.toList := by
  unfold writtenText at text
  unfold token?
  simp only [text]
  split
  · exact .nil
  · refine .cons ?_ .nil
    exact {
      text := rfl
      kind := kind
      isBlockBrace := by rw [stands.isInBlock]
      startsMember := rfl
      endsMember := rfl
      place := stands.place
      closesAttributes := by
        simp only [LayoutState.closesAttributes, Bool.and_assoc]
        exact congrArg _ (stands.attributes fun kind => Text.endsWith "declaration" kind ||
          ["global_attribute", "compilation_unit"].contains kind)
      closesMember := fun brace =>
        stands.closesMember rfl rfl (Bool.and_eq_true_iff.mp brace).2 }

end StandsAlike

theorem forall₂_markLast {ts ts' : List Token} (alike : List.Forall₂ PlacedAlike ts ts') :
    List.Forall₂ PlacedAlike (markLast ts) (markLast ts') := by
  induction alike with
  | nil => exact .nil
  | cons first others ih =>
    cases others with
    | nil => exact .cons { first with endsMember := rfl } .nil
    | cons _ _ => exact .cons first ih

theorem forall₂_markMember {ts ts' : List Token} (alike : List.Forall₂ PlacedAlike ts ts') :
    List.Forall₂ PlacedAlike (markMember ts) (markMember ts') := by
  refine forall₂_markLast ?_
  cases alike with
  | nil => exact .nil
  | cons first others => exact .cons { first with startsMember := rfl } others

/-- An accessor that is written in one piece is childless. -/
theorem isAccessorWithBody_of_isLeaf {n : Node} (leaf : n.isLeaf = true) :
    n.isAccessorWithBody = false := by
  rw [isAccessorWithBody, Bool.and_eq_false_iff]
  by_cases accessor : n.kind = "accessor_declaration"
  · have plain : n.isAtomic = false := by
      rw [isAtomic, accessor]
      exact Bool.or_eq_false_iff.mpr ⟨by decide, Bool.and_eq_false_imp.mpr fun directive =>
        absurd directive (by decide)⟩
    rw [isLeaf, plain, Bool.or_false, List.isEmpty_iff] at leaf
    exact .inr (by rw [leaf, List.any_nil])
  · exact .inl (beq_eq_false_iff_ne.mpr accessor)

theorem any_congr_of_forall₂ {p : Node → Bool} {left right : List Node}
    (agree : List.Forall₂ (fun c c' => p c' = p c) left right) : right.any p = left.any p := by
  induction agree with
  | nil => rfl
  | cons same _ ih => rw [List.any_cons, List.any_cons, same, ih]

namespace SameWords

variable {n n' : Node}

theorem kind (same : SameWords n n') : n'.kind = n.kind := by
  cases same with
  | leaf _ _ kind _ | branch _ _ kind _ => exact kind

theorem isAccessorWithBody (same : SameWords n n') :
    n'.isAccessorWithBody = n.isAccessorWithBody := by
  cases same with
  | leaf leaf leaf' _ _ =>
    rw [isAccessorWithBody_of_isLeaf leaf, isAccessorWithBody_of_isLeaf leaf']
  | branch _ _ kind children =>
    have bodies := any_congr_of_forall₂ (p := fun c =>
      ["block", "arrow_expression_clause"].contains c.kind)
      (children.imp fun c c' pair => by rw [pair.kind])
    rw [Node.isAccessorWithBody, Node.isAccessorWithBody, kind, bodies]

end SameWords

/-- Paired siblings stand first or last both or neither. -/
theorem forall₂_siblingsFrom {R : Node → Node → Prop} {parent parent' : NodeInfo}
    {context context' : List Crumb} {before before' trees trees' : List Tree}
    (first : before'.isEmpty = before.isEmpty)
    (related : List.Forall₂ R (siblingsFrom parent context before trees)
      (siblingsFrom parent' context' before' trees')) :
    List.Forall₂ (fun c c' => R c c' ∧ c'.isFirst = c.isFirst ∧ c'.isLast = c.isLast)
      (siblingsFrom parent context before trees)
      (siblingsFrom parent' context' before' trees') := by
  induction trees generalizing before before' trees' with
  | nil =>
    cases trees' with
    | nil => exact .nil
    | cons tree' after' => cases related
  | cons tree after ih =>
    cases trees' with
    | nil => cases related
    | cons tree' after' =>
      -- The first siblings have nothing before them; the last ones have equally much after them.
      simp only [siblingsFrom, List.forall₂_cons] at related ⊢
      have lengths := related.2.length_eq
      refine ⟨⟨related.1, first, ?_⟩, ih rfl related.2⟩
      cases after <;> cases after' <;> simp [siblingsFrom] at lengths <;> rfl

theorem parentKind_of_mem_children {n c : Node} (child : c ∈ n.children) :
    c.parentKind = n.kind := by
  rw [parentKind, parent?_of_mem_children child]
  rfl

theorem grandparentKind_of_mem_children {n c : Node} (child : c ∈ n.children) :
    c.grandparentKind = n.parentKind := by
  rw [grandparentKind, parent?_of_mem_children child]
  rfl

theorem isInBlock_of_mem_children {n c : Node} (child : c ∈ n.children) :
    c.isInBlock = if n.kind == "accessor_list" then n.children.any isAccessorWithBody
      else Token.blockParents.contains n.kind := by
  rw [isInBlock, parent?_of_mem_children child]

/-- The children of nodes that stand alike stand alike, too. -/
theorem StandsAlike.children {n n' : Node} (stands : StandsAlike n n') (kind : n'.kind = n.kind)
    (below : List.Forall₂ SameWords n.children n'.children) :
    List.Forall₂ (fun c c' => SameWords c c' ∧ StandsAlike c c') n.children n'.children := by
  have bodies : n'.children.any isAccessorWithBody = n.children.any isAccessorWithBody :=
    any_congr_of_forall₂ (below.imp fun _ _ pair => pair.isAccessorWithBody)
  have placed := forall₂_siblingsFrom rfl below
  refine forall₂_imp_of_mem placed fun c child c' child' ⟨same, first, last⟩ => ⟨same, ?_⟩
  refine .below ?_ first last ?_ ?_
  · rw [parentKind_of_mem_children child, parentKind_of_mem_children child', kind]
  · rw [isInBlock_of_mem_children child, isInBlock_of_mem_children child', kind, bodies]
  · rw [grandparentKind_of_mem_children child, grandparentKind_of_mem_children child',
      parentKind_of_mem_children child]
    cases stands with
    | direct parent parent' other => exact .inr ⟨other, parent, parent'⟩
    | below parent _ _ _ _ => exact .inl parent

theorem StandsAlike.isListedMember {n n' : Node} (stands : StandsAlike n n')
    (kind : n'.kind = n.kind) : n'.isListedMember = n.isListedMember := by
  have apart {kind : String} (member : kind ∈ memberKinds) :
      Token.memberListParents.contains kind = false :=
    (forall_memberKinds kind member).2.1
  rw [isListedMember_eq, isListedMember_eq, isComment, isComment, kind]
  cases stands with
  | direct parent parent' _ => rw [apart parent, apart parent']
  | below parent _ _ _ _ => rw [parent]

/-- The tokens of nodes that stand alike and have the same words are placed alike. -/
theorem SameWords.tokens {n n' : Node} (same : SameWords n n') (stands : StandsAlike n n') :
    List.Forall₂ PlacedAlike n.tokens n'.tokens := by
  induction n using childInduction generalizing n' with
  | step n ih =>
    -- The nodes are members of a type both or neither, so the same tokens are marked.
    have listed := stands.isListedMember same.kind
    cases same with
    | leaf leaf leaf' kind text =>
      have inner := stands.forall₂_token? kind text
      rw [tokens_of_isLeaf leaf, tokens_of_isLeaf leaf', listed]
      split
      · exact forall₂_markMember inner
      · exact inner
    | branch branch branch' kind below =>
      have each : List.Forall₂ (fun c c' => List.Forall₂ PlacedAlike c.tokens c'.tokens)
          n.children n'.children :=
        forall₂_imp_of_mem (stands.children kind below) fun c child c' _ pair =>
          ih c child pair.1 pair.2
      have inner : List.Forall₂ PlacedAlike (n.children.flatMap Node.tokens)
          (n'.children.flatMap Node.tokens) :=
        List.rel_flatMap each fun _ _ pair => pair
      rw [tokens_of_branch branch, tokens_of_branch branch', listed]
      split
      · exact forall₂_markMember inner
      · exact inner

/-- The header of a member stands directly in it, and no attributes do so. -/
theorem forall₂_tokens_header {n n' : Node} (member : n.kind ∈ memberKinds)
    (member' : n'.kind ∈ memberKinds) (same : List.Forall₂ SameWords n.header n'.header) :
    List.Forall₂ PlacedAlike (n.header.flatMap tokens) (n'.header.flatMap tokens) := by
  have each : List.Forall₂ (fun c c' => List.Forall₂ PlacedAlike c.tokens c'.tokens)
      n.header n'.header := by
    refine forall₂_imp_of_mem same fun c inside c' inside' pair => pair.tokens (.direct ?_ ?_ ?_)
    · rwa [parentKind_of_mem_children (mem_children_of_mem_header inside)]
    · rwa [parentKind_of_mem_children (mem_children_of_mem_header inside')]
    · have kept := (List.mem_filter.mp inside).2
      rintro attributes
      rw [attributes] at kept
      cases kept
  exact List.rel_flatMap each fun _ _ pair => pair

end Node

/-- The signature of a member consists of the words of its header with nothing or one space in
between, so a line only breaks inside a word, and members with the same header have the same
signature, however they differ otherwise. -/
theorem signature_spaces_header (n : Node) :
    n.IsHeader n.header ∧ Spaced (n.header.flatMap Node.words) n.signature ∧
      (∀ c ∈ n.signature.toList, c ≠ ' ' → ∃ word ∈ n.header.flatMap Node.words, c ∈ word.toList) ∧
      ∀ n' : Node, n.kind ∈ memberKinds → n'.kind ∈ memberKinds →
        List.Forall₂ Node.SameWords n.header n'.header → n'.signature = n.signature := by
  have spaced : Spaced (n.header.flatMap Node.words) n.signature := by
    rw [← Node.codeTexts_flatMap]
    refine layoutInline_spaced fun t member => ?_
    obtain ⟨c, _, inside⟩ := List.mem_flatMap.mp member
    exact c.tokens_endsVisible t inside
  refine ⟨n.isHeader_header, spaced, fun c inside other => spaced.mem_words inside other, ?_⟩
  intro n' member member' same
  exact layoutInline_alike (Node.forall₂_tokens_header member member' same)

/-! ### One header twice -/

/-- A method in the body of a type, with attributes, a comment and a body. -/
def annotatedMethod : Node where
  focus := .node ⟨"method_declaration", none, true, false, ⟨2, 24, 0, 1⟩,
      "[A] // a\nvoid M() \x7b \x7d"⟩
    [.node ⟨"attribute_list", none, true, false, ⟨2, 5, 0, 0⟩, "[A]"⟩
        [literalTree "[" false "[" 2 0, literalTree "attribute" true "A" 3 0,
          literalTree "]" false "]" 4 0],
      literalTree "comment" true "// a" 6 0,
      literalTree "predefined_type" true "void" 11 1, literalTree "identifier" true "M" 16 1,
      .node ⟨"parameter_list", some "parameters", true, false, ⟨17, 19, 1, 1⟩, "()"⟩
        [literalTree "(" false "(" 17 1, literalTree ")" false ")" 18 1],
      .node ⟨"block", some "body", true, false, ⟨20, 23, 1, 1⟩, "\x7b \x7d"⟩
        [literalTree "\x7b" false "\x7b" 20 1, literalTree "\x7d" false "\x7d" 22 1]]
  context := [⟨⟨"declaration_list", some "body", true, false, ⟨0, 25, 0, 1⟩,
      "\x7b [A] // a\nvoid M() \x7b \x7d \x7d"⟩,
    [literalTree "\x7b" false "\x7b" 0 0], [literalTree "\x7d" false "\x7d" 24 1]⟩]

/-- A method on two rows that stands alone, with a semicolon in place of the body. -/
def spreadMethod : Node :=
  .root (.node ⟨"method_declaration", none, true, false, ⟨0, 11, 0, 1⟩, "void M\n( );"⟩
    [literalTree "predefined_type" true "void" 0 0, literalTree "identifier" true "M" 5 0,
      .node ⟨"parameter_list", some "parameters", true, false, ⟨7, 10, 1, 1⟩, "( )"⟩
        [literalTree "(" false "(" 7 1, literalTree ")" false ")" 9 1],
      literalTree ";" false ";" 10 1])

theorem spreadMethod_signature :
    annotatedMethod.kind ∈ memberKinds ∧ spreadMethod.kind ∈ memberKinds ∧
      List.Forall₂ Node.SameWords annotatedMethod.header spreadMethod.header ∧
      spreadMethod.signature = annotatedMethod.signature ∧
      annotatedMethod.signature = "void M()" := by
  have member : annotatedMethod.kind ∈ memberKinds := by decide
  have member' : spreadMethod.kind ∈ memberKinds := by decide
  have same : List.Forall₂ Node.SameWords annotatedMethod.header spreadMethod.header := by
    refine .cons (.leaf rfl rfl rfl rfl) (.cons (.leaf rfl rfl rfl rfl) (.cons ?_ .nil))
    refine .branch (by decide) (by decide) rfl ?_
    exact .cons (.leaf rfl rfl rfl rfl) (.cons (.leaf rfl rfl rfl rfl) .nil)
  obtain ⟨-, -, -, alike⟩ := signature_spaces_header annotatedMethod
  exact ⟨member, member', same, alike spreadMethod member member' same, by decide +kernel⟩

end ClassAtlas
