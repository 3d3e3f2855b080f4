import ClassAtlas.Proofs.Layout.Resumption
import ClassAtlas.Proofs.Layout.Spaces
import ClassAtlas.Proofs.Syntax.Shape

/-!
# Normalized text is settled

Normalizing text that has been normalized changes nothing: when the tree of a node is read again
from its normalized text, with every token on the rows on which it was written, the normalized text
of the new tree is the old one. Directives on several rows are excepted, since they are not written
in one piece.
-/
namespace ClassAtlas

namespace Node

/-- Rows count the line feeds in the subtree. -/
def RowsCounted (n : Node) : Prop :=
  ∀ c ∈ n.subtree, c.endRow = c.startRow + Text.feedCount c.text

/-- Every directive in the subtree stands on a single row. -/
def DirectivesOnOneRow (n : Node) : Prop :=
  ∀ c ∈ n.subtree, Token.isDirectiveKind c.kind = true → c.startRow = c.endRow

/-- The leaves of a node have become what was written of them. -/
inductive Rewritten : Node → Node → Prop
  | leaf {n n' : Node} : n.isLeaf = true → n'.text = n.writtenText → Rewritten n n'
  | branch {n n' : Node} : n.isLeaf = false → List.Forall₂ Rewritten n.children n'.children →
      Rewritten n n'

/-- The node as it is read again from its normalized text: in the same surroundings, with the texts
that were written and each token where it was written. -/
structure Reread (options : LayoutOptions) (n n' : Node) : Prop where
  shape : n'.shape = n.shape
  texts : Rewritten n n'
  rows : n'.tokens.map Token.rows =
    writtenRows options "" (placeAll .kept .initial n.tokens).1
  counted : n'.RowsCounted

theorem RowsCounted.child {n c : Node} (counted : n.RowsCounted) (child : c ∈ n.children) :
    c.RowsCounted :=
  fun x below => counted x (subtree_subset_of_mem_children child below)

theorem DirectivesOnOneRow.child {n c : Node} (single : n.DirectivesOnOneRow)
    (child : c ∈ n.children) : c.DirectivesOnOneRow :=
  fun x below => single x (subtree_subset_of_mem_children child below)

theorem isLeaf_of_oneRow {n : Node}
    (oneRow : Token.isDirectiveKind n.kind = true → n.startRow = n.endRow) :
    n.isLeaf = (n.children.isEmpty || Token.atomicKinds.contains n.kind ||
      Token.isDirectiveKind n.kind) := by
  unfold isLeaf isAtomic
  cases directive : Token.isDirectiveKind n.kind with
  | false => simp
  | true => simp [oneRow directive]

theorem oneRow_of_written {n n' : Node} (counted : n.RowsCounted) (counted' : n'.RowsCounted)
    (written : n'.text = n.writtenText) (oneRow : n.startRow = n.endRow) :
    n'.startRow = n'.endRow := by
  -- A single row means no line feed in the text, and trimming adds none.
  have rows := counted n n.mem_subtree_self
  have rows' := counted' n' n'.mem_subtree_self
  have fewer := Text.feedCount_trimEnd_le n.text
  rw [written, writtenText] at rows'
  omega

/-- What was written in one piece is read as one leaf again, and nothing else is. -/
theorem Rewritten.sameLeaves {n n' : Node} (texts : Rewritten n n') (same : n'.shape = n.shape)
    (counted : n.RowsCounted) (single : n.DirectivesOnOneRow) (counted' : n'.RowsCounted) :
    SameLeaves n n' := by
  induction n using childInduction generalizing n' with
  | step n ih =>
    have kinds := congr_of_view kind kind_form (form_of_shape same)
    have childless := congr_of_view (fun n => n.children.isEmpty) (by simp) (form_of_shape same)
    -- A leaf is told by its kind and its children, and a directive also by its rows.
    have leaf := isLeaf_of_oneRow (single n n.mem_subtree_self)
    cases texts with
    | leaf isLeaf written =>
      -- The leaf might be a directive, which has to stay on one row to be a leaf again.
      have oneRow : Token.isDirectiveKind n'.kind = true → n'.startRow = n'.endRow := by
        intro directive
        rw [kinds] at directive
        exact oneRow_of_written counted counted' written (single n n.mem_subtree_self directive)
      refine .leaf isLeaf ?_ ?_
      · rw [isLeaf_of_oneRow oneRow, kinds, childless, ← leaf, isLeaf]
      · rw [writtenText, written]
        exact Text.trimEnd_trimEnd n.text
    | branch branch below =>
      have plain : Token.isDirectiveKind n'.kind = false := by
        rw [leaf, Bool.or_eq_false_iff] at branch
        rw [kinds, branch.2]
      have branch' : n'.isLeaf = false := by
        rw [isLeaf_of_oneRow (by simp [plain]), kinds, childless, ← leaf, branch]
      refine .branch branch branch' (forall₂_of_views below (map_shape_children same) ?_)
      intro c member c' member' shapes pair
      exact ih c member pair shapes (counted.child member) (single.child member)
        (counted'.child member')

theorem map_unplaced_tokens {n n' : Node} (same : n'.shape = n.shape) (leaves : SameLeaves n n') :
    n'.tokens.map Token.unplaced = n.tokens.map Token.unplaced :=
  map_unplaced_tokens_of_form (form_of_shape same) leaves

end Node

theorem placedText_congr {options : LayoutOptions} {placed placed' : List Placed}
    (same : placed'.map (fun p => (p.gap, p.token.text)) =
      placed.map (fun p => (p.gap, p.token.text))) :
    placedText options placed' = placedText options placed := by
  have texts (placed : List Placed) : placedText options placed =
      String.join ((placed.map fun p => (p.gap, p.token.text)).map fun p =>
        p.1.text options ++ p.2) := by
    rw [List.map_map]
    rfl
  rw [texts, texts, same]

/-- Normalization is idempotent. -/
theorem normalized_settles (n n' : Node) (options : LayoutOptions)
    (blank_newline : Text.allBlank options.newline = true)
    (feed : '\n' ∈ options.newline.toList) (counted : n.RowsCounted)
    (single : n.DirectivesOnOneRow) (reread : Node.Reread options n n') :
    n'.normalized options = n.normalized options := by
  have leaves : Node.SameLeaves n n' :=
    reread.texts.sameLeaves reread.shape counted single reread.counted
  have tokens := Node.map_unplaced_tokens reread.shape leaves
  -- Both passes begin without a previous token, so its rows do not matter.
  have again := LayoutState.placeAll_again feed tokens
    (@LayoutState.Resumes.same .initial (0, 0) n.tokens) nofun reread.rows
  have normal (n : Node) : n.normalized options =
      placedText options (placeAll .kept .initial n.tokens).1 :=
    layoutLines_eq_placedText blank_newline n.tokens n.tokens_endsVisible
  rw [normal, normal]
  exact placedText_congr again

/-! ### The block with a comment again -/

/-- The block that is read from the normalized text of `commentedBlock`: the comment has moved to a
row of its own. -/
def settledBlock : Node :=
  .root (.node ⟨"block", none, true, false, ⟨0, 14, 0, 2⟩, "\x7b\n    // off\n\x7d"⟩
    [literalTree "\x7b" false "\x7b" 0 0, literalTree "comment" true "// off" 6 1,
      literalTree "\x7d" false "\x7d" 13 2])

theorem Node.tokens_of_flat {n : Node} (branch : n.isLeaf = false)
    (unlisted : n.isListedMember = false)
    (flat : ∀ c ∈ n.children, c.isLeaf = true ∧ c.isListedMember = false) :
    n.tokens = n.children.flatMap fun c => c.token?.toList := by
  rw [tokens_of_branch branch, unlisted, if_neg Bool.false_ne_true]
  refine List.flatMap_congr fun c member => ?_
  obtain ⟨leaf, bare⟩ := flat c member
  rw [tokens_of_isLeaf leaf, bare, if_neg Bool.false_ne_true]

theorem commentedBlock_reread : Node.Reread .standard commentedBlock settledBlock where
  shape := rfl
  texts := by
    refine .branch (by decide) (.cons ?_ (.cons ?_ (.cons ?_ .nil)))
    · exact .leaf (by decide) (by decide)
    · exact .leaf (by decide) (by decide)
    · exact .leaf (by decide) (by decide)
  rows := by
    rw [Node.tokens_of_flat (by decide) (by decide) (by decide),
      @Node.tokens_of_flat commentedBlock (by decide) (by decide) (by decide)]
    decide
  counted := Node.forall_subtree_of_flat (by decide) (by decide)

theorem commentedBlock_settles :
    Text.allBlank LayoutOptions.standard.newline = true ∧
      '\n' ∈ LayoutOptions.standard.newline.toList ∧ commentedBlock.RowsCounted ∧
      commentedBlock.DirectivesOnOneRow ∧ Node.Reread .standard commentedBlock settledBlock ∧
      settledBlock.normalized .standard = commentedBlock.normalized .standard := by
  have blank_newline : Text.allBlank LayoutOptions.standard.newline = true := by decide
  have feed : '\n' ∈ LayoutOptions.standard.newline.toList := by decide
  have counted : commentedBlock.RowsCounted :=
    Node.forall_subtree_of_flat (by decide) (by decide)
  have single : commentedBlock.DirectivesOnOneRow :=
    Node.forall_subtree_of_flat (by decide) (by decide)
  exact ⟨blank_newline, feed, counted, single, commentedBlock_reread,
    normalized_settles commentedBlock settledBlock .standard blank_newline feed counted single
      commentedBlock_reread⟩

end ClassAtlas
