import ClassAtlas.Layout.Token
import ClassAtlas.Proofs.Syntax.Descent
import ClassAtlas.Proofs.Text.Trim
import Mathlib.Data.List.Basic

/-!
# Leaves

What layout writes of a subtree: its topmost atomic nodes and the childless nodes outside them, each
without trailing blanks, where something is left. The tokens of a node are its leaves, one token for
each, in document order; the surroundings only decide which of them begin or end a member.
-/
namespace ClassAtlas

/-- The token without what it says about members. -/
def Token.unmarked (t : Token) : Token := { t with startsMember := false, endsMember := false }

namespace Node

/-- The node is written in one piece. -/
def isLeaf (n : Node) : Bool := n.children.isEmpty || n.isAtomic

/-- The leaves of a subtree in document order. -/
def leaves (n : Node) : List Node :=
  if n.isLeaf then [n] else n.children.attach.flatMap fun ⟨c, _⟩ => c.leaves
termination_by n.size
decreasing_by exact size_lt_of_mem_children ‹_›

/-- What is written of a leaf. -/
def writtenText (n : Node) : String := Text.trimEnd n.text

/-- The leaves of which something is written. -/
def writtenLeaves (n : Node) : List Node := n.leaves.filter fun leaf => !leaf.writtenText.isEmpty

theorem leaves_of_isLeaf {n : Node} (leaf : n.isLeaf = true) : n.leaves = [n] := by
  rw [leaves, if_pos leaf]

theorem leaves_of_branch {n : Node} (branch : n.isLeaf = false) :
    n.leaves = n.children.flatMap leaves := by
  rw [leaves, if_neg (by simp [branch]), List.flatMap_subtype (g := leaves) fun _ _ => rfl,
    List.unattach_attach]

theorem mem_leaves {n leaf : Node} (member : leaf ∈ n.leaves) :
    leaf ∈ n.subtree ∧ leaf.isLeaf = true := by
  induction n using childInduction with
  | step n ih =>
    cases shape : n.isLeaf with
    | true =>
      rw [leaves_of_isLeaf shape, List.mem_singleton] at member
      subst member
      exact ⟨leaf.mem_subtree_self, shape⟩
    | false =>
      rw [leaves_of_branch shape, List.mem_flatMap] at member
      obtain ⟨c, child, inside⟩ := member
      obtain ⟨below, isLeaf⟩ := ih c child inside
      exact ⟨subtree_subset_of_mem_children child below, isLeaf⟩

theorem tokens_of_isLeaf {n : Node} (leaf : n.isLeaf = true) :
    n.tokens = if n.isListedMember then markMember n.token?.toList else n.token?.toList := by
  rw [isLeaf] at leaf
  rw [tokens, if_pos leaf]

theorem tokens_of_branch {n : Node} (branch : n.isLeaf = false) :
    n.tokens = if n.isListedMember then markMember (n.children.flatMap tokens)
      else n.children.flatMap tokens := by
  -- The recursion carries a proof that each child is a child; it plays no part in the result.
  have inner : n.children.attach.flatMap (fun ⟨c, _⟩ => c.tokens) = n.children.flatMap tokens := by
    rw [List.flatMap_subtype (g := tokens) fun _ _ => rfl, List.unattach_attach]
  rw [isLeaf] at branch
  rw [tokens, if_neg (ne_true_of_eq_false branch)]
  exact congrArg (fun list => if n.isListedMember then markMember list else list) inner

/-! ### Marks -/

theorem map_unmarked_markLast (tokens : List Token) :
    (markLast tokens).map Token.unmarked = tokens.map Token.unmarked := by
  induction tokens with
  | nil => rfl
  | cons t rest ih =>
    cases rest with
    | nil => rfl
    | cons next later => simpa [markLast] using ih

theorem map_unmarked_markMember (tokens : List Token) :
    (markMember tokens).map Token.unmarked = tokens.map Token.unmarked := by
  rw [markMember, map_unmarked_markLast]
  cases tokens <;> rfl

theorem map_unmarked_token? (n : Node) : n.token?.toList.map Token.unmarked = n.token?.toList := by
  unfold token?
  dsimp only
  split <;> rfl

/-- The tokens of a node are those of its leaves. -/
theorem map_unmarked_tokens (n : Node) :
    n.tokens.map Token.unmarked = n.leaves.filterMap token? := by
  induction n using childInduction with
  | step n ih =>
    -- A member only adds marks to the tokens it has, so it may be ignored in both cases.
    cases shape : n.isLeaf with
    | true =>
      have single : n.token?.toList.map Token.unmarked = [n].filterMap token? := by
        rw [map_unmarked_token?]
        cases found : n.token? <;> simp [found]
      rw [tokens_of_isLeaf shape, leaves_of_isLeaf shape, ← single]
      split
      · exact map_unmarked_markMember _
      · rfl
    | false =>
      have below : (n.children.flatMap tokens).map Token.unmarked =
          (n.children.flatMap leaves).filterMap token? := by
        rw [List.map_flatMap, List.filterMap_flatMap]
        exact List.flatMap_congr fun c member => ih c member
      rw [tokens_of_branch shape, leaves_of_branch shape, ← below]
      split
      · exact map_unmarked_markMember _
      · rfl

/-- A fact that marks do not touch can be read off the leaves. -/
theorem map_tokens {α : Type} (read : Token → α) (unmarked : ∀ t, read t.unmarked = read t)
    (n : Node) : n.tokens.map read = (n.leaves.filterMap token?).map read := by
  -- Reading goes through the unmarked tokens, which are those of the leaves.
  rw [← map_unmarked_tokens, List.map_map]
  exact List.map_congr_left fun t _ => (unmarked t).symm

end Node

end ClassAtlas
