import ClassAtlas.Proofs.Layout.Leaves
import ClassAtlas.Proofs.Syntax.Ancestry
import Mathlib.Data.List.Forall2

/-!
# Marks of members

A token is marked as the beginning or the end of a member exactly when it comes from the first or
the last leaf of one that is written, however deep in the member that leaf is, and however many
members begin or end with it.
-/
namespace ClassAtlas

namespace Node

/-! ### Written leaves -/

theorem writtenLeaves_of_branch {n : Node} (branch : n.isLeaf = false) :
    n.writtenLeaves = n.children.flatMap writtenLeaves := by
  rw [writtenLeaves, leaves_of_branch branch, List.filter_flatMap]
  rfl

theorem mem_writtenLeaves {n leaf : Node} (member : leaf ∈ n.writtenLeaves) :
    leaf ∈ n.subtree ∧ leaf.isLeaf = true :=
  mem_leaves (List.mem_of_mem_filter member)

theorem leaves_sublist (n : Node) : n.leaves.Sublist n.subtree := by
  induction n using childInduction with
  | step n ih =>
    cases shape : n.isLeaf with
    | true =>
      rw [leaves_of_isLeaf shape]
      exact List.singleton_sublist.mpr n.mem_subtree_self
    | false =>
      rw [leaves_of_branch shape]
      have below : (n.children.flatMap leaves).Sublist (n.children.flatMap subtree) :=
        List.Sublist.flatMap_right n.children ih
      rw [← descendants_eq_flatMap] at below
      exact below.cons n

theorem writtenLeaves_nodup (n : Node) : n.writtenLeaves.Nodup := by
  have distinct : n.subtree.Nodup := n.subtree_pairwise_precedes.imp Precedes.ne
  exact (distinct.sublist n.leaves_sublist).filter _

/-! ### Marks on a list -/

theorem getElem?_markLast (tokens : List Token) (i : Nat) :
    (markLast tokens)[i]? = tokens[i]?.map fun t =>
      { t with endsMember := t.endsMember || i + 1 == tokens.length } := by
  induction tokens generalizing i with
  | nil => rfl
  | cons t rest ih =>
    cases rest with
    | nil => cases i <;> simp [markLast]
    | cons next later =>
      cases i with
      | zero => simp [markLast]
      | succ i => simpa [markLast] using ih i

theorem getElem?_markMember (tokens : List Token) (i : Nat) :
    (markMember tokens)[i]? = tokens[i]?.map fun t =>
      { t with
        startsMember := t.startsMember || i == 0
        endsMember := t.endsMember || i + 1 == tokens.length } := by
  rw [markMember, getElem?_markLast]
  cases tokens with
  | nil => rfl
  | cons t rest => cases i <;> simp

/-! ### Marks and leaves -/

/-- The node is a child of a type body or of the file. -/
def isMember (n : Node) : Bool :=
  n.parent?.any fun parent => Token.memberListParents.contains parent.kind

/-- What is written of one of the given members begins with the leaf. -/
def BeginsMember (among : List Node) (leaf : Node) : Prop :=
  ∃ m ∈ among, m.isMember = true ∧ m.writtenLeaves.head? = some leaf

/-- What is written of one of the given members ends with the leaf. -/
def EndsMember (among : List Node) (leaf : Node) : Prop :=
  ∃ m ∈ among, m.isMember = true ∧ m.writtenLeaves.getLast? = some leaf

/-- The token of a leaf says what the leaf is for the members among the given nodes. Comments are
not members of their own. -/
structure Marks (among : List Node) (leaf : Node) (t : Token) : Prop where
  token : leaf.token? = some t.unmarked
  starts : t.startsMember = true ↔
    ∃ m ∈ among, m.isListedMember = true ∧ m.writtenLeaves.head? = some leaf
  ends : t.endsMember = true ↔
    ∃ m ∈ among, m.isListedMember = true ∧ m.writtenLeaves.getLast? = some leaf

theorem Marks.congr {among among' : List Node} {leaf : Node} {t : Token}
    (marks : Marks among leaf t)
    (same : ∀ m, m.isListedMember = true → leaf ∈ m.writtenLeaves → (m ∈ among' ↔ m ∈ among)) :
    Marks among' leaf t where
  token := marks.token
  starts := by
    rw [marks.starts]
    refine exists_congr fun m => ?_
    constructor
    · rintro ⟨listed, member, first⟩
      exact ⟨(same m member (List.mem_of_head? first)).mpr listed, member, first⟩
    · rintro ⟨listed, member, first⟩
      exact ⟨(same m member (List.mem_of_head? first)).mp listed, member, first⟩
  ends := by
    rw [marks.ends]
    refine exists_congr fun m => ?_
    constructor
    · rintro ⟨listed, member, last⟩
      exact ⟨(same m member (List.mem_of_getLast? last)).mpr listed, member, last⟩
    · rintro ⟨listed, member, last⟩
      exact ⟨(same m member (List.mem_of_getLast? last)).mp listed, member, last⟩

theorem forall₂_imp_of_mem {α β : Type} {R S : α → β → Prop} {left : List α} {right : List β}
    (related : List.Forall₂ R left right) (imp : ∀ a ∈ left, ∀ b ∈ right, R a b → S a b) :
    List.Forall₂ S left right := by
  obtain ⟨lengths, pairs⟩ := List.forall₂_iff_zip.mp related
  refine List.forall₂_iff_zip.mpr ⟨lengths, fun {a b} pair => ?_⟩
  obtain ⟨member, member'⟩ := List.of_mem_zip pair
  exact imp a member b member' (pairs pair)

theorem forall₂_flatMap {α β γ : Type} {R : β → γ → Prop} {f : α → List β} {g : α → List γ}
    {xs : List α} (each : ∀ x ∈ xs, List.Forall₂ R (f x) (g x)) :
    List.Forall₂ R (xs.flatMap f) (xs.flatMap g) := by
  induction xs with
  | nil => exact .nil
  | cons x rest ih =>
    obtain ⟨first, others⟩ := List.forall_mem_cons.mp each
    exact List.rel_append first (ih others)

/-- A leaf is in no member below it. -/
theorem not_mem_writtenLeaves_of_below {n m : Node} (below : m ∈ n.descendants) :
    n ∉ m.writtenLeaves := by
  intro inside
  have down := address_suffix (List.mem_cons_of_mem n below : m ∈ n.subtree)
  have up := address_suffix (mem_writtenLeaves inside).1
  have same := up.eq_of_length (Nat.le_antisymm up.length_le down.length_le)
  exact address_ne_of_mem_descendants below same

theorem marks_leaf {n : Node} (leaf : n.isLeaf = true) :
    List.Forall₂ (Marks n.descendants) n.writtenLeaves n.token?.toList := by
  have bare {t : Token} (made : n.token? = some t) :
      t.unmarked = t ∧ t.startsMember = false ∧ t.endsMember = false ∧ n.writtenLeaves = [n] := by
    unfold token? at made
    dsimp only at made
    split at made
    next => cases made
    next visible =>
      cases made
      simp [writtenLeaves, leaves_of_isLeaf leaf, writtenText, visible, Token.unmarked]
  cases made : n.token? with
  | none =>
    have silent : n.writtenText.isEmpty = true := by
      unfold token? at made
      dsimp only at made
      split at made
      next empty => exact empty
      next => cases made
    rw [writtenLeaves, leaves_of_isLeaf leaf]
    simp [silent]
  | some t =>
    obtain ⟨same, begins, ends, single⟩ := bare made
    rw [single]
    refine .cons ⟨by rw [made, same], ?_, ?_⟩ .nil
    · simp only [begins, Bool.false_eq_true, false_iff, not_exists, not_and]
      exact fun m below _ first => not_mem_writtenLeaves_of_below below (List.mem_of_head? first)
    · simp only [ends, Bool.false_eq_true, false_iff, not_exists, not_and]
      exact fun m below _ last => not_mem_writtenLeaves_of_below below (List.mem_of_getLast? last)

/-- The members that a leaf is in and that are below a node are below one of its children. -/
theorem marks_children {n : Node}
    (each : ∀ c ∈ n.children, List.Forall₂ (Marks c.subtree) c.writtenLeaves c.tokens) :
    List.Forall₂ (Marks n.descendants) (n.children.flatMap writtenLeaves)
      (n.children.flatMap tokens) := by
  refine forall₂_flatMap fun c child => ?_
  refine forall₂_imp_of_mem (each c child) fun leaf written t _ marks => ?_
  refine marks.congr fun m _ inside => ⟨fun below => ?_, fun below => ?_⟩
  · obtain ⟨c', child', below'⟩ := mem_descendants.mp below
    have deep := subtree_subset_of_mem_subtree below' (mem_writtenLeaves inside).1
    obtain rfl := sibling_of_address child child' (mem_writtenLeaves written).1 deep rfl
    exact below'
  · exact mem_descendants.mpr ⟨c, child, below⟩

/-- The marks of a member itself go to its first and its last leaf. -/
theorem marks_member {n : Node} (listed : n.isListedMember = true) {tokens : List Token}
    (marks : List.Forall₂ (Marks n.descendants) n.writtenLeaves tokens) :
    List.Forall₂ (Marks n.subtree) n.writtenLeaves (markMember tokens) := by
  have members (P : Node → Prop) : (∃ m ∈ n.subtree, m.isListedMember = true ∧ P m) ↔
      P n ∨ ∃ m ∈ n.descendants, m.isListedMember = true ∧ P m := by
    simp [subtree, listed]
  have distinct := n.writtenLeaves_nodup
  obtain ⟨lengths, pairs⟩ := List.forall₂_iff_get.mp marks
  have marked : (markMember tokens).length = tokens.length := by
    simpa using congrArg List.length (map_unmarked_markMember tokens)
  refine List.forall₂_iff_get.mpr ⟨lengths.trans marked.symm, fun i known known' => ?_⟩
  have here := pairs i known (lengths ▸ known)
  have same := getElem?_markMember tokens i
  rw [List.getElem?_eq_getElem known', List.getElem?_eq_getElem (lengths ▸ known), Option.map_some,
    Option.some.injEq] at same
  rw [List.get_eq_getElem, List.get_eq_getElem] at here ⊢
  rw [same]
  -- No leaf comes twice, so only the first position has the first leaf, and the last one the last.
  have position (j : Nat) : n.writtenLeaves[j]? = some n.writtenLeaves[i] ↔ j = i := by
    rw [List.getElem?_eq_some_iff]
    constructor
    · rintro ⟨known'', equal⟩
      exact (distinct.getElem_inj_iff).mp equal
    · rintro rfl
      exact ⟨known, rfl⟩
  refine ⟨here.token, ?_, ?_⟩
  · rw [members, ← here.starts, List.head?_eq_getElem?, position, Bool.or_eq_true, beq_iff_eq,
      or_comm, @eq_comm Nat i]
  · have last : n.writtenLeaves.length - 1 = i ↔ i + 1 = tokens.length := by omega
    rw [members, ← here.ends, List.getLast?_eq_getElem?, position, last, Bool.or_eq_true,
      beq_iff_eq, or_comm]

/-- Every token is marked as the leaf that it is made of says. -/
theorem marks_tokens (n : Node) :
    List.Forall₂ (Marks n.subtree) n.writtenLeaves n.tokens := by
  induction n using childInduction with
  | step n ih =>
    -- Marks for the members below come first; then the node may be a member itself.
    have inner : ∃ ts, n.tokens = (if n.isListedMember then markMember ts else ts) ∧
        List.Forall₂ (Marks n.descendants) n.writtenLeaves ts := by
      cases shape : n.isLeaf with
      | true => exact ⟨_, tokens_of_isLeaf shape, marks_leaf shape⟩
      | false =>
        refine ⟨_, tokens_of_branch shape, ?_⟩
        rw [writtenLeaves_of_branch shape]
        exact marks_children ih
    obtain ⟨ts, split, marks⟩ := inner
    rw [split]
    cases listed : n.isListedMember with
    | true => exact marks_member listed marks
    | false =>
      refine marks.imp fun leaf t marks => marks.congr fun m member _ => ?_
      rw [subtree, List.mem_cons]
      refine ⟨fun below => below.resolve_left ?_, .inr⟩
      rintro rfl
      rw [listed] at member
      cases member

/-- Only a comment is the first or the last leaf of a comment. -/
theorem isListedMember_of_mem {m leaf : Node} (code : leaf.isComment = false)
    (inside : leaf ∈ m.writtenLeaves) : m.isListedMember = m.isMember := by
  have plain : m.isComment = false := by
    by_contra comment
    rw [Bool.not_eq_false, isComment, beq_iff_eq] at comment
    have whole : m.isLeaf = true := by simp [isLeaf, isAtomic, Token.atomicKinds, comment]
    have only := List.mem_of_mem_filter inside
    rw [leaves_of_isLeaf whole, List.mem_singleton] at only
    rw [only, isComment, comment] at code
    cases code
  rw [isListedMember, plain]
  rfl

theorem Marks.startsMember_iff {among : List Node} {leaf : Node} {t : Token}
    (marks : Marks among leaf t) (code : leaf.isComment = false) :
    t.startsMember = true ↔ BeginsMember among leaf := by
  rw [marks.starts]
  refine exists_congr fun m => and_congr_right fun _ => and_congr_left fun first => ?_
  rw [isListedMember_of_mem code (List.mem_of_head? first)]

theorem Marks.endsMember_iff {among : List Node} {leaf : Node} {t : Token}
    (marks : Marks among leaf t) (code : leaf.isComment = false) :
    t.endsMember = true ↔ EndsMember among leaf := by
  rw [marks.ends]
  refine exists_congr fun m => and_congr_right fun _ => and_congr_left fun last => ?_
  rw [isListedMember_of_mem code (List.mem_of_getLast? last)]

end Node

end ClassAtlas
