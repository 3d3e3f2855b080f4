import ClassAtlas.Proofs.Layout.Leaves
import ClassAtlas.Proofs.Syntax.Form
import Mathlib.Data.List.Forall2

/-!
# Tokens on other rows

Two trees of one form that write the same texts at the same leaves have the same tokens, but for
the rows these stand on.
-/
namespace ClassAtlas

namespace Token

/-- The token without its rows. -/
def unplaced (t : Token) : Token := { t with startRow := 0, endRow := 0 }

/-- The rows on which the token begins and ends. -/
def rows (t : Token) : Nat × Nat := (t.startRow, t.endRow)

def onRows (t : Token) (rows : Nat × Nat) : Token :=
  { t with startRow := rows.1, endRow := rows.2 }

theorem eq_onRows {t t' : Token} (same : t'.unplaced = t.unplaced) : t' = t.onRows t'.rows := by
  cases t
  cases t'
  simp only [unplaced, mk.injEq] at same
  simp only [onRows, rows, mk.injEq]
  tauto

theorem head?_onRows {left right : List Token}
    (same : right.map unplaced = left.map unplaced) :
    ∃ rows, right.head? = left.head?.map fun t => t.onRows rows := by
  cases left with
  | nil =>
    rw [List.map_nil, List.map_eq_nil_iff] at same
    exact ⟨(0, 0), congrArg List.head? same⟩
  | cons t rest =>
    obtain ⟨t', rest', rfl, first, -⟩ := List.map_eq_cons_iff.mp same
    exact ⟨t'.rows, congrArg some (eq_onRows first)⟩

end Token

namespace Node

/-- Two nodes are written in one piece at the same places, and there the same is written. -/
inductive SameLeaves : Node → Node → Prop
  | leaf {n n' : Node} : n.isLeaf = true → n'.isLeaf = true → n'.writtenText = n.writtenText →
      SameLeaves n n'
  | branch {n n' : Node} : n.isLeaf = false → n'.isLeaf = false →
      List.Forall₂ SameLeaves n.children n'.children → SameLeaves n n'

theorem map_unplaced_markLast (tokens : List Token) :
    (markLast tokens).map Token.unplaced = markLast (tokens.map Token.unplaced) := by
  induction tokens with
  | nil => rfl
  | cons t rest ih =>
    cases rest with
    | nil => rfl
    | cons next later => simpa [markLast] using ih

theorem map_unplaced_markMember (tokens : List Token) :
    (markMember tokens).map Token.unplaced = markMember (tokens.map Token.unplaced) := by
  rw [markMember, map_unplaced_markLast, markMember]
  cases tokens <;> rfl

/-- A token depends on the form of its surroundings, on what is written and on its rows. -/
theorem map_unplaced_token? {n n' : Node} (same : n'.form = n.form)
    (texts : n'.writtenText = n.writtenText) :
    n'.token?.toList.map Token.unplaced = n.token?.toList.map Token.unplaced := by
  -- All a token knows but its text and its rows is read off the form.
  have kinds := congr_of_view kind kind_form same
  have parents := congr_of_view (fun n => n.parent?.map kind) parentKind_form same
  have grandparents :=
    congr_of_view (fun n => (n.parent?.bind parent?).map kind) grandparentKind_form same
  have firsts := congr_of_view isFirst isFirst_form same
  have lasts := congr_of_view isLast isLast_form same
  have blocks := congr_of_view isInBlock isInBlock_form same
  unfold writtenText at texts
  unfold token?
  simp only [texts, kinds, parents, grandparents, firsts, lasts, blocks]
  split <;> rfl

theorem forall₂_of_views {view : Node → Node} {R S : Node → Node → Prop} {left right : List Node}
    (related : List.Forall₂ R left right) (same : right.map view = left.map view)
    (imp : ∀ c ∈ left, ∀ c' ∈ right, view c' = view c → R c c' → S c c') :
    List.Forall₂ S left right := by
  -- Related lists have one length, so the views split along with the pairs.
  induction related with
  | nil => exact .nil
  | cons pair _ ih =>
    rw [List.map_cons, List.map_cons, List.cons.injEq] at same
    refine .cons (imp _ List.mem_cons_self _ List.mem_cons_self same.1 pair) ?_
    exact ih same.2 fun c member c' member' =>
      imp c (List.mem_cons_of_mem _ member) c' (List.mem_cons_of_mem _ member')

theorem forall₂_of_map_eq {view : Node → Node} {S : Node → Node → Prop} {left right : List Node}
    (same : right.map view = left.map view)
    (imp : ∀ c ∈ left, ∀ c' ∈ right, view c' = view c → S c c') : List.Forall₂ S left right := by
  have lengths : left.length = right.length := by simpa using (congrArg List.length same).symm
  have related : List.Forall₂ (fun _ _ => True) left right :=
    List.forall₂_iff_zip.mpr ⟨lengths, fun _ => trivial⟩
  exact forall₂_of_views related same fun c member c' member' same _ => imp c member c' member' same

theorem flatMap_congr_of_forall₂ {α : Type} {f : Node → List α} {left right : List Node}
    (agree : List.Forall₂ (fun c c' => f c' = f c) left right) :
    right.flatMap f = left.flatMap f := by
  induction agree with
  | nil => rfl
  | cons same _ ih => rw [List.flatMap_cons, List.flatMap_cons, same, ih]

/-- Nodes of one form with the same leaves have the same tokens but for the rows. -/
theorem map_unplaced_tokens_of_form {n n' : Node} (same : n'.form = n.form)
    (leaves : SameLeaves n n') :
    n'.tokens.map Token.unplaced = n.tokens.map Token.unplaced := by
  induction n using childInduction generalizing n' with
  | step n ih =>
    -- The members are the same nodes on both sides, so marks go to the same tokens.
    have listed := congr_of_view isListedMember isListedMember_form same
    cases leaves with
    | leaf leaf leaf' texts =>
      have inner := map_unplaced_token? same texts
      rw [tokens_of_isLeaf leaf, tokens_of_isLeaf leaf', listed]
      split
      · rw [map_unplaced_markMember, map_unplaced_markMember, inner]
      · exact inner
    | branch branch branch' below =>
      have inner : (n'.children.flatMap tokens).map Token.unplaced =
          (n.children.flatMap tokens).map Token.unplaced := by
        rw [List.map_flatMap, List.map_flatMap]
        exact flatMap_congr_of_forall₂ (forall₂_of_views below (map_form_children same)
          fun c member c' _ forms pair => ih c member forms pair)
      rw [tokens_of_branch branch, tokens_of_branch branch', listed]
      split
      · rw [map_unplaced_markMember, map_unplaced_markMember, inner]
      · exact inner

end Node

end ClassAtlas
