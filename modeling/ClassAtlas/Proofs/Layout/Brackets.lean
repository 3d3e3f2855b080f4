import ClassAtlas.Proofs.Layout.Leaves
import ClassAtlas.Proofs.Syntax.Address

/-!
# Brackets

In a tree whose parentheses and braces match, so do those of its tokens: what stands between two
partners is balanced, and around every token there is a certain sequence of open brackets. Comments
and directives are not read, so a parenthesis in one of them matches nothing.
-/
namespace ClassAtlas

/-- The brackets that layout tells apart. -/
inductive Bracket where
  | parenthesis
  | inlineBrace
  | blockBrace
  deriving DecidableEq, Repr

/-- One end of a bracketed part. -/
inductive Edge where
  | opens (bracket : Bracket)
  | closes (bracket : Bracket)
  deriving DecidableEq, Repr

def Edge.bracket : Edge → Bracket
  | .opens b | .closes b => b

namespace Token

/-- The brace that a token in braces is. -/
def brace (t : Token) : Bracket := if t.isBlockBrace then .blockBrace else .inlineBrace

/-- The bracket that a token of code opens or closes. -/
def edge? (t : Token) : Option Edge :=
  if t.isTrivia then none
  else if t.text == "(" then some (.opens .parenthesis)
  else if t.text == ")" then some (.closes .parenthesis)
  else if t.text == "\x7b" then some (.opens t.brace)
  else if t.text == "\x7d" then some (.closes t.brace)
  else none

theorem edge?_unmarked (t : Token) : t.unmarked.edge? = t.edge? := rfl

theorem isTrivia_of_edge? {t : Token} {edge : Edge} (bracket : t.edge? = some edge) :
    t.isTrivia = false := by
  by_contra trivia
  rw [edge?, if_pos (by simpa using trivia)] at bracket
  cases bracket

theorem edge?_of_isTrivia {t : Token} (trivia : t.isTrivia = true) : t.edge? = none :=
  if_pos trivia

theorem text_of_edge? {t : Token} {edge : Edge} (bracket : t.edge? = some edge) :
    t.text ∈ ["(", ")", "\x7b", "\x7d"] := by
  unfold edge? at bracket
  split_ifs at bracket <;> simp_all

/-- The token is a brace of an indented block, as a part of the code. -/
def isBlockEdge (t : Token) : Bool := t.edge?.any fun edge => edge.bracket == .blockBrace

end Token

/-- Every bracket has its partner, and partners do not cross. -/
inductive Balanced : List Token → Prop
  | nil : Balanced []
  | plain {t : Token} {rest : List Token} : t.edge? = none → Balanced rest → Balanced (t :: rest)
  | pair {o c : Token} {inner rest : List Token} {b : Bracket} :
      o.edge? = some (.opens b) → c.edge? = some (.closes b) → Balanced inner → Balanced rest →
      Balanced (o :: (inner ++ c :: rest))

/-- The brackets that are opened before a place and closed after it, the innermost first. -/
inductive Around : List Token → List Bracket → List Token → Prop
  | outside {before after : List Token} : Balanced before → Balanced after →
      Around before [] after
  | inside {before left right after : List Token} {o c : Token} {b : Bracket}
      {bs : List Bracket} : Around before bs after → o.edge? = some (.opens b) →
      c.edge? = some (.closes b) → Balanced left → Balanced right →
      Around (before ++ o :: left) (b :: bs) (right ++ c :: after)

/-- The brackets around a token between others. The bracket that a token itself opens or closes is
not around it, and around a token without others there is none. -/
inductive StrictlyAround : List Token → Token → List Token → List Bracket → Prop
  | lone {t : Token} : StrictlyAround [] t [] []
  | plain {before after : List Token} {t : Token} {bs : List Bracket} : t.edge? = none →
      Around before bs after → StrictlyAround before t after bs
  | opening {before inner after : List Token} {o c : Token} {b : Bracket} {bs : List Bracket} :
      o.edge? = some (.opens b) → c.edge? = some (.closes b) → Balanced inner →
      Around before bs after → StrictlyAround before o (inner ++ c :: after) bs
  | closing {before inner after : List Token} {o c : Token} {b : Bracket} {bs : List Bracket} :
      o.edge? = some (.opens b) → c.edge? = some (.closes b) → Balanced inner →
      Around before bs after → StrictlyAround (before ++ o :: inner) c after bs

/-! ### Balanced tokens -/

namespace Balanced

theorem append {left right : List Token} (balanced : Balanced left) (balanced' : Balanced right) :
    Balanced (left ++ right) := by
  induction balanced with
  | nil => exact balanced'
  | plain unbracketed _ ih => exact .plain unbracketed ih
  | @pair o c inner rest b opens closes inside _ _ ih =>
    rw [List.cons_append, List.append_assoc, List.cons_append]
    exact .pair opens closes inside ih

theorem enclosed {o c : Token} {inner : List Token} {b : Bracket}
    (opens : o.edge? = some (.opens b)) (closes : c.edge? = some (.closes b))
    (inside : Balanced inner) : Balanced (o :: inner ++ [c]) :=
  .pair opens closes inside .nil

/-- Only the brackets among the tokens matter. -/
theorem congr {ts ts' : List Token} (balanced : Balanced ts)
    (same : ts'.map Token.edge? = ts.map Token.edge?) : Balanced ts' := by
  induction balanced generalizing ts' with
  | nil =>
    rw [List.map_nil, List.map_eq_nil_iff] at same
    exact same ▸ .nil
  | plain unbracketed _ ih =>
    obtain ⟨t', rest', rfl, first, others⟩ := List.map_eq_cons_iff.mp same
    exact .plain (first.trans unbracketed) (ih others)
  | pair opens closes _ _ ih ih' =>
    obtain ⟨o', rest, rfl, first, others⟩ := List.map_eq_cons_iff.mp same
    rw [List.map_append] at others
    obtain ⟨inner', rest, rfl, inside, others⟩ := List.map_eq_append_iff.mp others
    obtain ⟨c', rest', rfl, last, after⟩ := List.map_eq_cons_iff.mp others
    exact .pair (first.trans opens) (last.trans closes) (ih inside) (ih' after)

theorem of_plain {t : Token} {rest : List Token} (balanced : Balanced (t :: rest))
    (unbracketed : t.edge? = none) : Balanced rest := by
  cases balanced with
  | plain _ others => exact others
  | pair opens _ _ _ => rw [unbracketed] at opens; cases opens

/-- After an opening bracket comes what is inside, its partner, and what is outside again. -/
theorem of_opens {o : Token} {rest : List Token} {b : Bracket} (balanced : Balanced (o :: rest))
    (opens : o.edge? = some (.opens b)) : ∃ inner c after, rest = inner ++ c :: after ∧
      c.edge? = some (.closes b) ∧ Balanced inner ∧ Balanced after := by
  cases balanced with
  | plain unbracketed _ => rw [opens] at unbracketed; cases unbracketed
  | @pair _ c inner after b' opens' closes inside others =>
    rw [opens, Option.some.injEq, Edge.opens.injEq] at opens'
    exact ⟨inner, c, after, rfl, opens' ▸ closes, inside, others⟩

theorem not_closes {c : Token} {rest : List Token} {b : Bracket} (balanced : Balanced (c :: rest)) :
    c.edge? ≠ some (.closes b) := by
  intro closes
  cases balanced with
  | plain unbracketed _ => rw [closes] at unbracketed; cases unbracketed
  | pair opens _ _ _ => rw [closes] at opens; cases opens

end Balanced

/-! ### Around a place -/

namespace Around

theorem after_balanced {front before after : List Token} {bs : List Bracket}
    (balanced : Balanced front) (around : Around before bs after) :
    Around (front ++ before) bs after := by
  induction around with
  | outside before after => exact .outside (balanced.append before) after
  | inside _ opens closes left right ih =>
    rw [← List.append_assoc]
    exact .inside ih opens closes left right

/-- A pair of brackets around everything becomes the outermost one. -/
theorem enclosed {o c : Token} {before after rest : List Token} {b : Bracket} {bs : List Bracket}
    (opens : o.edge? = some (.opens b)) (closes : c.edge? = some (.closes b))
    (balanced : Balanced rest) (around : Around before bs after) :
    Around (o :: before) (bs ++ [b]) (after ++ c :: rest) := by
  induction around with
  | outside before after => exact .inside (.outside .nil balanced) opens closes before after
  | inside _ opens' closes' left right ih =>
    rw [List.append_assoc, List.cons_append]
    exact .inside ih opens' closes' left right

/-- A cut of a pair and what follows it, behind the opening bracket, is inside the pair or behind
it. -/
theorem cut_pair {c : Token} {inner rest before after : List Token}
    (cut : inner ++ c :: rest = before ++ after) :
    (∃ right, inner = before ++ right ∧ after = right ++ c :: rest) ∨
      ∃ left, before = inner ++ c :: left ∧ rest = left ++ after := by
  rcases List.append_eq_append_iff.mp cut with ⟨left, rfl, split⟩ | ⟨right, rfl, split⟩
  · rcases List.cons_eq_append_iff.mp split with ⟨rfl, rfl⟩ | ⟨left, rfl, rfl⟩
    · exact .inl ⟨[], by simp, rfl⟩
    · exact .inr ⟨left, rfl, rfl⟩
  · exact .inl ⟨right, rfl, split⟩

/-- Wherever balanced tokens are cut, certain brackets are open. -/
theorem of_balanced {ts before after : List Token} (balanced : Balanced ts)
    (cut : ts = before ++ after) : ∃ bs, Around before bs after := by
  induction balanced generalizing before after with
  | nil =>
    obtain ⟨rfl, rfl⟩ := List.append_eq_nil_iff.mp cut.symm
    exact ⟨[], .outside .nil .nil⟩
  | @plain t rest unbracketed others ih =>
    rcases List.cons_eq_append_iff.mp cut with ⟨rfl, rfl⟩ | ⟨before, rfl, later⟩
    · exact ⟨[], .outside .nil (.plain unbracketed others)⟩
    · obtain ⟨bs, around⟩ := ih later
      exact ⟨bs, around.after_balanced (.plain unbracketed .nil)⟩
  | @pair o c inner rest b opens closes inside others ih ih' =>
    rcases List.cons_eq_append_iff.mp cut with ⟨rfl, rfl⟩ | ⟨before, rfl, later⟩
    · exact ⟨[], .outside .nil (.pair opens closes inside others)⟩
    · rcases cut_pair later with ⟨right, rfl, rfl⟩ | ⟨left, rfl, rfl⟩
      · obtain ⟨bs, around⟩ := ih rfl
        exact ⟨_, around.enclosed opens closes others⟩
      · obtain ⟨bs, around⟩ := ih' rfl
        refine ⟨bs, ?_⟩
        simpa using around.after_balanced (.enclosed opens closes inside)

theorem of_plain {before rest : List Token} {t : Token} {bs : List Bracket}
    (around : Around before bs (t :: rest)) (unbracketed : t.edge? = none) :
    Around before bs rest := by
  generalize cut : t :: rest = after at around
  cases around with
  | outside before after => exact .outside before (cut ▸ after |>.of_plain unbracketed)
  | inside outer opens closes left right =>
    rcases List.cons_eq_append_iff.mp cut with ⟨rfl, same⟩ | ⟨right', rfl, rfl⟩
    · cases same
      rw [unbracketed] at closes
      cases closes
    · exact .inside outer opens closes left (right.of_plain unbracketed)

/-- The partner of an opening bracket after the cut stands in the same surroundings. -/
theorem of_opens {before rest : List Token} {o : Token} {b : Bracket} {bs : List Bracket}
    (around : Around before bs (o :: rest)) (opens : o.edge? = some (.opens b)) :
    ∃ inner c after, rest = inner ++ c :: after ∧ c.edge? = some (.closes b) ∧ Balanced inner ∧
      Around before bs after := by
  generalize cut : o :: rest = after at around
  cases around with
  | outside front back =>
    subst cut
    obtain ⟨inner, c, after, rfl, closes, inside, others⟩ := back.of_opens opens
    exact ⟨inner, c, after, rfl, closes, inside, .outside front others⟩
  | @inside front left right after _ c' _ _ outer opens' closes' balanced balanced' =>
    rcases List.cons_eq_append_iff.mp cut with ⟨rfl, same⟩ | ⟨right, rfl, rfl⟩
    · cases same
      rw [opens] at closes'
      cases closes'
    · obtain ⟨inner, c, right, rfl, closes, inside, others⟩ := balanced'.of_opens opens
      refine ⟨inner, c, right ++ c' :: after, by simp, closes, inside, ?_⟩
      exact .inside outer opens' closes' balanced others

/-- A closing bracket after the cut is the partner of the innermost bracket that is open. -/
theorem of_closes {before after : List Token} {c : Token} {b : Bracket} {bs : List Bracket}
    (around : Around before bs (c :: after)) (closes : c.edge? = some (.closes b)) :
    ∃ front o inner bs', before = front ++ o :: inner ∧ bs = b :: bs' ∧
      o.edge? = some (.opens b) ∧ Balanced inner ∧ Around front bs' after := by
  generalize cut : c :: after = rest at around
  cases around with
  | outside front back => exact absurd closes (cut ▸ back).not_closes
  | @inside front left right _ o _ _ _ outer opens' closes' balanced balanced' =>
    rcases List.cons_eq_append_iff.mp cut with ⟨rfl, same⟩ | ⟨right, rfl, rfl⟩
    · cases same
      rw [closes, Option.some.injEq, Edge.closes.injEq] at closes'
      subst closes'
      exact ⟨front, o, left, _, rfl, rfl, opens', balanced, outer⟩
    · exact absurd closes balanced'.not_closes

end Around

/-- Around each of a sequence of balanced tokens certain brackets are open. -/
theorem Balanced.strictlyAround {before after : List Token} {t : Token}
    (balanced : Balanced (before ++ t :: after)) : ∃ bs, StrictlyAround before t after bs := by
  obtain ⟨bs, around⟩ := Around.of_balanced balanced rfl
  cases edge : t.edge? with
  | none => exact ⟨bs, .plain edge (around.of_plain edge)⟩
  | some edge' =>
    cases edge' with
    | opens b =>
      obtain ⟨inner, c, after, rfl, closes, inside, outer⟩ := around.of_opens edge
      exact ⟨bs, .opening edge closes inside outer⟩
    | closes b =>
      obtain ⟨front, o, inner, bs, rfl, -, opens, inside, outer⟩ := around.of_closes edge
      exact ⟨bs, .closing opens edge inside outer⟩

/-! ### Brackets in a tree -/

namespace Node

/-- The node is a comment or a directive. -/
def isTrivia (n : Node) : Bool := n.isComment || Token.isDirectiveKind n.kind

/-- The node is written in one piece as the given text and is part of the code. -/
def isSymbol (n : Node) (text : String) : Bool :=
  n.isLeaf && !n.isTrivia && n.writtenText == text

/-- The brackets that are partners. -/
def bracketPairs : List (String × String) := [("(", ")"), ("\x7b", "\x7d")]

/-- What is neither an opening nor a closing bracket. -/
def IsPlain (n : Node) : Prop :=
  ∀ pair ∈ bracketPairs, n.isSymbol pair.1 = false ∧ n.isSymbol pair.2 = false

/-- Among siblings, every bracket has its partner, and partners do not cross. -/
inductive Bracketed : List Node → Prop
  | nil : Bracketed []
  | plain {c : Node} {rest : List Node} : c.IsPlain → Bracketed rest → Bracketed (c :: rest)
  | pair {o c : Node} {inner rest : List Node} {left right : String} :
      (left, right) ∈ bracketPairs → o.isSymbol left = true → c.isSymbol right = true →
      Bracketed inner → Bracketed rest → Bracketed (o :: (inner ++ c :: rest))

/-- Every bracket below the node, outside what is written in one piece, has its partner among its
siblings. -/
inductive WellBracketed : Node → Prop
  | leaf {n : Node} : n.isLeaf = true → WellBracketed n
  | branch {n : Node} : n.isLeaf = false → Bracketed n.children →
      (∀ c ∈ n.children, WellBracketed c) → WellBracketed n

/-- The brace that a node in braces is. -/
def brace (n : Node) : Bracket := if n.isInBlock then .blockBrace else .inlineBrace

/-- The bracket that a leaf opens or closes. -/
def edge? (n : Node) : Option Edge :=
  if n.isSymbol "(" then some (.opens .parenthesis)
  else if n.isSymbol ")" then some (.closes .parenthesis)
  else if n.isSymbol "\x7b" then some (.opens n.brace)
  else if n.isSymbol "\x7d" then some (.closes n.brace)
  else none

theorem kind_of_token? {n : Node} {t : Token} (made : n.token? = some t) : t.kind = n.kind := by
  unfold token? at made
  dsimp only at made
  split at made
  next => cases made
  next => cases made; rfl

theorem isTrivia_of_token? {n : Node} {t : Token} (made : n.token? = some t) :
    t.isTrivia = n.isTrivia := by
  rw [Token.isTrivia, kind_of_token? made]
  rfl

theorem edge?_of_token? {n : Node} {t : Token} (leaf : n.isLeaf = true)
    (made : n.token? = some t) : t.edge? = n.edge? := by
  unfold token? at made
  dsimp only at made
  split at made
  next => cases made
  next =>
    cases made
    simp only [Token.edge?, edge?, isSymbol, leaf, Token.isTrivia, isTrivia, Token.brace, brace,
      isComment, writtenText]
    by_cases trivia : (n.kind == "comment" || Token.isDirectiveKind n.kind) = true
    · simp only [trivia]
      simp
    · by_cases brace : Text.trimEnd n.text = "\x7b" ∨ Text.trimEnd n.text = "\x7d"
      · rcases brace with text | text <;> simp [trivia, text]
      · rw [not_or] at brace
        simp [trivia, brace]

theorem exists_token?_of_isSymbol {n : Node} {text : String} (bracket : n.isSymbol text = true)
    (visible : text ≠ "") : ∃ t, n.token? = some t := by
  simp only [isSymbol, Bool.and_eq_true, beq_iff_eq] at bracket
  obtain ⟨-, written⟩ := bracket
  unfold token?
  rw [writtenText] at written
  simp [written, visible]

theorem edge?_of_isPlain {n : Node} (plain : n.IsPlain) : n.edge? = none := by
  have parentheses := plain ("(", ")") (by decide)
  have braces := plain ("\x7b", "\x7d") (by decide)
  simp [edge?, parentheses, braces]

theorem isSymbol_unique {n : Node} {text other : String} (bracket : n.isSymbol text = true)
    (different : text ≠ other) : n.isSymbol other = false := by
  simp only [isSymbol, Bool.and_eq_true, beq_iff_eq] at bracket
  obtain ⟨-, written⟩ := bracket
  simp [isSymbol, written, different]

theorem brace_of_siblings {p o c : Node} (sibling : o.parent? = some p)
    (sibling' : c.parent? = some p) : o.brace = c.brace := by
  rw [brace, brace, isInBlock, isInBlock, sibling, sibling']

theorem exists_isSymbol_of_not_isPlain {n : Node} (bracket : ¬n.IsPlain) :
    ∃ text, text ≠ "" ∧ n.isSymbol text = true := by
  have visible : ∀ pair ∈ bracketPairs, pair.1 ≠ "" ∧ pair.2 ≠ "" := by decide
  simp only [IsPlain, not_forall, not_and_or, Bool.not_eq_false] at bracket
  obtain ⟨pair, listed, left | right⟩ := bracket
  · exact ⟨pair.1, (visible pair listed).1, left⟩
  · exact ⟨pair.2, (visible pair listed).2, right⟩

/-- Partners with one parent are the two ends of one bracket. -/
theorem edges_of_pair {p o c : Node} {left right : String} (listed : (left, right) ∈ bracketPairs)
    (opening : o.isSymbol left = true) (closing : c.isSymbol right = true)
    (sibling : o.parent? = some p) (sibling' : c.parent? = some p) :
    ∃ b, o.edge? = some (.opens b) ∧ c.edge? = some (.closes b) := by
  have same := brace_of_siblings sibling sibling'
  have others (text : String) (different : left ≠ text) := isSymbol_unique opening different
  have others' (text : String) (different : right ≠ text) := isSymbol_unique closing different
  simp only [bracketPairs, List.mem_cons, Prod.mk.injEq, List.not_mem_nil, or_false] at listed
  rcases listed with ⟨rfl, rfl⟩ | ⟨rfl, rfl⟩
  · exact ⟨.parenthesis, by simp [edge?, opening], by simp [edge?, closing, others']⟩
  · exact ⟨o.brace, by simp [edge?, opening, others], by simp [edge?, closing, others', same]⟩

/-- The tokens of the leaves of a node, without marks. -/
def leafTokens (n : Node) : List Token := n.leaves.filterMap token?

theorem leafTokens_of_isLeaf {n : Node} (leaf : n.isLeaf = true) :
    n.leafTokens = n.token?.toList := by
  rw [leafTokens, leaves_of_isLeaf leaf]
  cases found : n.token? <;> simp [found]

theorem leafTokens_of_branch {n : Node} (branch : n.isLeaf = false) :
    n.leafTokens = n.children.flatMap leafTokens := by
  rw [leafTokens, leaves_of_branch branch, List.filterMap_flatMap]
  rfl

theorem leafTokens_of_isSymbol {n : Node} {text : String} (bracket : n.isSymbol text = true)
    (visible : text ≠ "") : ∃ t, n.leafTokens = [t] ∧ t.edge? = n.edge? := by
  obtain ⟨t, made⟩ := exists_token?_of_isSymbol bracket visible
  have leaf : n.isLeaf = true := by
    simp only [isSymbol, Bool.and_eq_true] at bracket
    exact bracket.1.1
  rw [leafTokens_of_isLeaf leaf, made]
  exact ⟨t, rfl, edge?_of_token? leaf made⟩

/-- Brackets that match among siblings match among their tokens. -/
theorem Bracketed.balanced {p : Node} {cs : List Node} (bracketed : Bracketed cs)
    (siblings : ∀ c ∈ cs, c.parent? = some p)
    (inside : ∀ c ∈ cs, c.IsPlain → Balanced c.leafTokens) : Balanced (cs.flatMap leafTokens) := by
  induction bracketed with
  | nil => exact .nil
  | plain plain _ ih =>
    obtain ⟨-, others⟩ := List.forall_mem_cons.mp siblings
    obtain ⟨first, rest⟩ := List.forall_mem_cons.mp inside
    exact (first plain).append (ih others rest)
  | @pair o c inner rest left right listed opening closing _ _ ih ih' =>
    simp only [List.forall_mem_cons, List.forall_mem_append] at siblings inside
    obtain ⟨sibling, siblings, sibling', siblings'⟩ := siblings
    obtain ⟨-, within, -, others⟩ := inside
    obtain ⟨b, opens, closes⟩ := edges_of_pair listed opening closing sibling sibling'
    have visible : ∀ pair ∈ bracketPairs, pair.1 ≠ "" ∧ pair.2 ≠ "" := by decide
    obtain ⟨t, first, edge⟩ := leafTokens_of_isSymbol opening (visible _ listed).1
    obtain ⟨t', last, edge'⟩ := leafTokens_of_isSymbol closing (visible _ listed).2
    simp only [List.flatMap_cons, List.flatMap_append, first, last, List.singleton_append]
    exact .pair (edge.trans opens) (edge'.trans closes) (ih siblings within) (ih' siblings' others)

theorem WellBracketed.balanced_leafTokens {n : Node} (bracketed : n.WellBracketed)
    (plain : n.IsPlain) : Balanced n.leafTokens := by
  induction bracketed with
  | @leaf n leaf =>
    rw [leafTokens_of_isLeaf leaf]
    cases made : n.token? with
    | none => exact .nil
    | some t => exact .plain ((edge?_of_token? leaf made).trans (edge?_of_isPlain plain)) .nil
  | @branch n branch siblings _ ih =>
    rw [leafTokens_of_branch branch]
    exact siblings.balanced (fun c child => parent?_of_mem_children child) ih

theorem WellBracketed.balanced {n : Node} (bracketed : n.WellBracketed) (plain : n.IsPlain) :
    Balanced n.tokens :=
  (bracketed.balanced_leafTokens plain).congr (map_tokens Token.edge? Token.edge?_unmarked n)

/-- Around each token of a node certain brackets of the node are open. -/
theorem WellBracketed.strictlyAround {n : Node} (bracketed : n.WellBracketed)
    {before after : List Token} {t : Token} (split : n.tokens = before ++ t :: after) :
    ∃ bs, StrictlyAround before t after bs := by
  by_cases plain : n.IsPlain
  · have balanced := bracketed.balanced plain
    rw [split] at balanced
    exact balanced.strictlyAround
  -- A bracket is a single token, with nothing else around it.
  · obtain ⟨text, visible, bracket⟩ := exists_isSymbol_of_not_isPlain plain
    obtain ⟨_, single, -⟩ := leafTokens_of_isSymbol bracket visible
    have one : n.tokens.length = 1 := by
      have lengths := congrArg List.length (map_unmarked_tokens n)
      rw [List.length_map] at lengths
      rw [lengths]
      exact congrArg List.length single
    rw [split, List.length_append, List.length_cons] at one
    obtain rfl : before = [] := List.length_eq_zero_iff.mp (by omega)
    obtain rfl : after = [] := List.length_eq_zero_iff.mp (by omega)
    exact ⟨[], .lone⟩

/-! ### Reading brackets -/

/-- Reads siblings with the closing brackets that are still expected, the next one first. -/
def bracketsMatch : List String → List Node → Bool
  | expected, [] => expected.isEmpty
  | expected, c :: rest =>
    match bracketPairs.find? fun pair => c.isSymbol pair.1 with
    | some pair => bracketsMatch (pair.2 :: expected) rest
    | none =>
      if bracketPairs.any fun pair => c.isSymbol pair.2 then
        match expected with
        | [] => false
        | right :: outer => c.isSymbol right && bracketsMatch outer rest
      else bracketsMatch expected rest

theorem bracketsMatch_plain {c : Node} (plain : c.IsPlain) (expected : List String)
    (rest : List Node) : bracketsMatch expected (c :: rest) = bracketsMatch expected rest := by
  have opens : (bracketPairs.find? fun pair => c.isSymbol pair.1) = none :=
    List.find?_eq_none.mpr fun pair listed => by simp [(plain pair listed).1]
  have closes : (bracketPairs.any fun pair => c.isSymbol pair.2) = false :=
    List.any_eq_false.mpr fun pair listed => by simp [(plain pair listed).2]
  simp only [bracketsMatch, opens, closes, Bool.false_eq_true, if_false]

theorem bracketsMatch_opening {o : Node} {left right : String}
    (listed : (left, right) ∈ bracketPairs) (opening : o.isSymbol left = true)
    (expected : List String) (rest : List Node) :
    bracketsMatch expected (o :: rest) = bracketsMatch (right :: expected) rest := by
  have found : (bracketPairs.find? fun pair => o.isSymbol pair.1) = some (left, right) := by
    have others (text : String) (different : left ≠ text) := isSymbol_unique opening different
    simp only [bracketPairs, List.mem_cons, Prod.mk.injEq, List.not_mem_nil, or_false] at listed
    rcases listed with ⟨rfl, rfl⟩ | ⟨rfl, rfl⟩
    · simp [bracketPairs, opening]
    · simp [bracketPairs, opening, others]
  simp only [bracketsMatch, found]

theorem bracketsMatch_closing {c : Node} {left right : String}
    (listed : (left, right) ∈ bracketPairs) (closing : c.isSymbol right = true)
    (expected : List String) (rest : List Node) :
    bracketsMatch (right :: expected) (c :: rest) = bracketsMatch expected rest := by
  have distinct : ∀ pair ∈ bracketPairs, ∀ pair' ∈ bracketPairs, pair.2 ≠ pair'.1 := by decide
  have opens : (bracketPairs.find? fun pair => c.isSymbol pair.1) = none := by
    refine List.find?_eq_none.mpr fun pair listed' => ?_
    simp [isSymbol_unique closing (distinct _ listed pair listed')]
  have closes : (bracketPairs.any fun pair => c.isSymbol pair.2) = true :=
    List.any_eq_true.mpr ⟨_, listed, closing⟩
  simp only [bracketsMatch, opens, closes, closing, if_true, Bool.true_and]

theorem Bracketed.bracketsMatch_append {cs : List Node} (bracketed : Bracketed cs)
    (expected : List String) (rest : List Node) :
    bracketsMatch expected (cs ++ rest) = bracketsMatch expected rest := by
  induction bracketed generalizing expected rest with
  | nil => rfl
  | plain plain _ ih => rw [List.cons_append, bracketsMatch_plain plain, ih]
  | pair listed opening closing _ _ ih ih' =>
    rw [List.cons_append, List.append_assoc, bracketsMatch_opening listed opening, ih,
      List.cons_append, bracketsMatch_closing listed closing, ih']

/-- Siblings that are read to their end while brackets are expected stand, one by one, before these
brackets or behind the last of them. -/
inductive Closed : List String → List Node → Prop
  | bracketed {cs : List Node} : Bracketed cs → Closed [] cs
  | expected {inner rest : List Node} {c : Node} {right : String} {outer : List String} :
      Bracketed inner → c.isSymbol right = true → Closed outer rest →
      Closed (right :: outer) (inner ++ c :: rest)

theorem Closed.plain {expected : List String} {cs : List Node} (closed : Closed expected cs)
    {c : Node} (plain : c.IsPlain) : Closed expected (c :: cs) := by
  cases closed with
  | bracketed bracketed => exact .bracketed (.plain plain bracketed)
  | expected inner closing outer =>
    rw [← List.cons_append]
    exact .expected (.plain plain inner) closing outer

theorem Closed.opening {expected : List String} {cs : List Node} {left right : String}
    (closed : Closed (right :: expected) cs) {o : Node} (listed : (left, right) ∈ bracketPairs)
    (opening : o.isSymbol left = true) : Closed expected (o :: cs) := by
  cases closed with
  | @expected inner rest c _ _ inside closing outer =>
    cases outer with
    | bracketed others => exact .bracketed (.pair listed opening closing inside others)
    | @expected inner' rest' c' _ _ inside' closing' outer =>
      have split : o :: (inner ++ c :: (inner' ++ c' :: rest')) =
          (o :: (inner ++ c :: inner')) ++ c' :: rest' := by simp
      rw [split]
      exact .expected (.pair listed opening closing inside inside') closing' outer

theorem closed_of_bracketsMatch {expected : List String} {cs : List Node}
    (found : bracketsMatch expected cs = true) : Closed expected cs := by
  fun_induction bracketsMatch expected cs with
  | case1 expected =>
    rw [List.isEmpty_iff.mp found]
    exact .bracketed .nil
  | case2 expected o rest pair opens ih =>
    have listed := List.mem_of_find?_eq_some opens
    have opening := List.find?_some opens
    exact (ih found).opening listed opening
  | case3 => cases found
  | case4 c rest _ closes right outer ih =>
    obtain ⟨closing, others⟩ := Bool.and_eq_true_iff.mp found
    exact .expected .nil closing (ih others)
  | case5 expected c rest opens closes ih =>
    refine (ih found).plain fun pair listed => ⟨?_, ?_⟩
    · simpa using List.find?_eq_none.mp opens pair listed
    · simpa using List.any_eq_false.mp (Bool.eq_false_iff.mpr closes) pair listed

theorem bracketsMatch_iff {cs : List Node} : bracketsMatch [] cs = true ↔ Bracketed cs := by
  constructor
  · intro found
    cases closed_of_bracketsMatch found with
    | bracketed bracketed => exact bracketed
  · intro bracketed
    simpa [bracketsMatch] using bracketed.bracketsMatch_append [] []

instance (cs : List Node) : Decidable (Bracketed cs) := decidable_of_iff _ bracketsMatch_iff

theorem wellBracketed_of_subtree {n : Node}
    (bracketed : ∀ x ∈ n.subtree, x.isLeaf = true ∨ Bracketed x.children) : n.WellBracketed := by
  induction n using childInduction with
  | step n ih =>
    obtain ⟨self, below⟩ := forall_mem_subtree.mp bracketed
    cases shape : n.isLeaf with
    | true => exact .leaf shape
    | false =>
      refine .branch shape (self.resolve_left ?_) fun c child => ih c child (below c child)
      simp [shape]

end Node

end ClassAtlas
