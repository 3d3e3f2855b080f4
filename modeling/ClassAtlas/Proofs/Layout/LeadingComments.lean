import ClassAtlas.Layout.Normal
import ClassAtlas.Proofs.Syntax.Listing
import ClassAtlas.Proofs.Syntax.Ranges
import Mathlib.Data.List.TakeWhile

/-!
# Comments that lead a node

Where siblings come one after the other, the comments that begin on later rows than the one on which
a node ends are the last ones of those behind it. So of the comments directly before a node those
that lead it are again a run without gaps, and they end directly before it; a comment leads no node
but the next one that is no comment.
-/
namespace ClassAtlas

/-- Where a property stays true along a list, filtering drops a first part. -/
theorem filter_eq_dropWhile {α : Type} {keep : α → Bool} {l : List α}
    (stays : l.Pairwise fun a b => keep a = true → keep b = true) :
    l.filter keep = l.dropWhile fun a => !keep a := by
  induction l with
  | nil => rfl
  | cons a rest ih =>
    obtain ⟨onwards, later⟩ := List.pairwise_cons.mp stays
    cases kept : keep a with
    | false => simp [kept, ih later]
    | true => simpa [kept] using fun b member => onwards b member kept

namespace Node

/-! ### Siblings in order -/

/-- By their rows, the children of the node come one after the other. -/
structure RowsInOrder (p : Node) : Prop where
  forward : ∀ c ∈ p.children, c.startRow ≤ c.endRow
  apart : p.children.Pairwise fun c c' => c.endRow ≤ c'.startRow

/-- In the whole subtree, siblings are ordered by their rows and do not overlap. -/
def SiblingsOrdered (root : Node) : Prop := ∀ p ∈ root.subtree, p.RowsInOrder

theorem siblingsFrom_of_siblingsBefore (parent : NodeInfo) (context : List Crumb) (focus : Tree)
    (before after : List Tree) :
    siblingsFrom parent context [] (before.reverse ++ focus :: after) =
      (siblingsBefore parent context focus after before).reverse ++
        siblingsFrom parent context before (focus :: after) := by
  induction before generalizing focus after with
  | nil => rfl
  | cons tree before ih =>
    rw [List.reverse_cons, List.append_assoc, List.singleton_append, ih tree (focus :: after),
      siblingsBefore, List.reverse_cons, List.append_assoc, List.singleton_append]
    rfl

/-- The siblings before a node, the node itself and the later ones are the children of its parent.
-/
theorem children_of_parent? {n p : Node} (parent : n.parent? = some p) :
    ∃ later, p.children = n.previousSiblings.reverse ++ n :: later := by
  obtain ⟨focus, context⟩ := n
  cases context with
  | nil => cases parent
  | cons crumb outer =>
    cases parent
    exact ⟨_, siblingsFrom_of_siblingsBefore crumb.parent outer focus crumb.before crumb.after⟩

theorem leadingComments_of_no_parent {n : Node} (outermost : n.parent? = none) :
    n.leadingComments = [] := by
  obtain ⟨focus, context⟩ := n
  cases context with
  | nil => rfl
  | cons crumb outer => cases outermost

/-- In a tree that is read from a listing, siblings are in order when their byte ranges are. -/
theorem siblingsOrdered_of_listing {source : String} {lines : List ClassAtlas.Listed} {tree : Tree}
    (read : Tree.ofListing? source lines = some tree) (nested : (root tree).RangesNested) :
    (root tree).SiblingsOrdered := by
  let feeds := Text.lineFeeds 0 source.toList
  have rows {c : Node} (below : c ∈ (root tree).subtree) :
      c.startRow = Text.rowAt feeds c.start ∧ c.endRow = Text.rowAt feeds c.stop := by
    obtain ⟨line, _, same⟩ := Tree.infos_of_listing read c.info (info_mem_infos below)
    rw [startRow, endRow, start, stop, same]
    exact ⟨rfl, rfl⟩
  intro p below
  have inside {c : Node} (child : c ∈ p.children) : c ∈ (root tree).subtree :=
    List.mem_cons_of_mem _ (mem_descendants_of_mem_children below child)
  constructor
  case forward =>
    intro c child
    rw [(rows (inside child)).1, (rows (inside child)).2]
    exact Text.rowAt_mono feeds (nested.forward (inside child))
  case apart =>
    refine (nested p below).apart.imp_of_mem fun {c c'} child child' apart => ?_
    rw [(rows (inside child)).2, (rows (inside child')).1]
    exact Text.rowAt_mono feeds apart

/-! ### The run before a node -/

/-- Of the comments directly before a node, those that begin on the row on which the sibling before
them ends do not lead the node, and all others do. -/
def LeadingRun (n p : Node) : Prop :=
  ∃ before trailing later, p.children = before ++ trailing ++ n.leadingComments ++ n :: later ∧
    (∀ c ∈ trailing ++ n.leadingComments, c.isComment = true) ∧
    (before = [] → trailing = []) ∧
    ∀ previous, before.getLast? = some previous → previous.isComment = false ∧
      (∀ c ∈ trailing, c.startRow = previous.endRow) ∧
      ∀ c ∈ n.leadingComments, previous.endRow < c.startRow

/-- The comments directly before a node, in document order. -/
def commentsBefore (n : Node) : List Node := (n.previousSiblings.takeWhile isComment).reverse

theorem isComment_of_mem_commentsBefore {n c : Node} (member : c ∈ n.commentsBefore) :
    c.isComment = true :=
  List.all_eq_true.mp List.all_takeWhile c (List.mem_reverse.mp member)

/-- Backwards from a node come the comments before it, and then nothing or a node that is none. -/
theorem previousSiblings_cases (n : Node) :
    (n.previousSiblings.reverse = n.commentsBefore ∧ n.leadingComments = n.commentsBefore) ∨
      ∃ before previous, previous.isComment = false ∧
        n.previousSiblings.reverse = before ++ previous :: n.commentsBefore ∧
        n.leadingComments = n.commentsBefore.filter fun c => c.startRow != previous.endRow := by
  -- The search goes backwards, so the list is cut at the first sibling that is no comment.
  have cut := congrArg List.reverse
    (n.previousSiblings.takeWhile_append_dropWhile (p := isComment))
  rw [List.reverse_append] at cut
  cases others : n.previousSiblings.dropWhile isComment with
  | nil =>
    refine .inl ⟨?_, by simp [leadingComments, others, commentsBefore]⟩
    rw [← cut, others]
    rfl
  | cons previous rest =>
    have code : previous.isComment = false := by
      have stopped := List.head?_dropWhile_not isComment n.previousSiblings
      simpa [others] using stopped
    refine .inr ⟨rest.reverse, previous, code, ?_, ?_⟩
    · rw [← cut, others, List.reverse_cons, List.append_assoc]
      rfl
    · simp [leadingComments, others, commentsBefore, List.filter_reverse]

theorem RowsInOrder.leadingRun {n p : Node} (ordered : p.RowsInOrder)
    (parent : n.parent? = some p) : n.LeadingRun p := by
  obtain ⟨later, children⟩ := children_of_parent? parent
  rcases n.previousSiblings_cases with ⟨first, all⟩ | ⟨before, previous, code, behind, kept⟩
  · refine ⟨[], [], later, ?_, ?_, fun _ => rfl, nofun⟩
    · rw [children, first, all]
      rfl
    · rw [all]
      exact fun c member => isComment_of_mem_commentsBefore member
  · rw [behind] at children
    have inside {c : Node} (member : c ∈ n.commentsBefore) : c ∈ p.children := by
      rw [children]
      simp [member]
    have apart := ordered.apart
    rw [children, List.append_assoc, List.pairwise_append, List.cons_append,
      List.pairwise_cons, List.pairwise_append] at apart
    obtain ⟨-, ⟨fromPrevious, run, -⟩, -⟩ := apart
    have starts {c : Node} (member : c ∈ n.commentsBefore) : previous.endRow ≤ c.startRow :=
      fromPrevious c (List.mem_append_left _ member)
    -- Once a comment begins on a later row, so do the comments behind it.
    have stays : n.commentsBefore.Pairwise fun c c' =>
        (c.startRow != previous.endRow) = true → (c'.startRow != previous.endRow) = true := by
      refine run.imp_of_mem fun {c c'} member member' follows differs => ?_
      have here := starts member
      have forward := ordered.forward c (inside member)
      rw [bne_iff_ne] at differs ⊢
      omega
    refine ⟨before ++ [previous],
      n.commentsBefore.takeWhile fun c => !(c.startRow != previous.endRow), later, ?_, ?_, ?_, ?_⟩
    · rw [children, kept, filter_eq_dropWhile stays, List.append_assoc (before ++ [previous]),
        List.takeWhile_append_dropWhile]
      simp
    · intro c member
      rw [kept, filter_eq_dropWhile stays, List.takeWhile_append_dropWhile] at member
      exact isComment_of_mem_commentsBefore member
    · exact fun empty => absurd empty (by simp)
    · rintro last found
      obtain rfl : previous = last := by simpa using found
      refine ⟨code, fun c member => ?_, fun c member => ?_⟩
      · simpa using List.mem_takeWhile_imp member
      · rw [kept, List.mem_filter, bne_iff_ne] at member
        have := starts member.1
        omega

/-! ### Owners -/

/-- The node that a comment leads is the next sibling that is no comment. -/
theorem owner_of_leading {n x : Node} (leads : x ∈ n.leadingComments) :
    ∃ p earlier between later, n.parent? = some p ∧
      p.children = earlier ++ x :: (between ++ n :: later) ∧
      ∀ c ∈ between, c.isComment = true := by
  cases parent : n.parent? with
  | none =>
    rw [leadingComments_of_no_parent parent] at leads
    cases leads
  | some p =>
    obtain ⟨later, children⟩ := children_of_parent? parent
    have member : x ∈ n.commentsBefore := by
      rcases n.previousSiblings_cases with ⟨_, all⟩ | ⟨_, _, _, _, kept⟩
      · exact all ▸ leads
      · rw [kept] at leads
        exact List.mem_of_mem_filter leads
    obtain ⟨front, between, run⟩ := List.append_of_mem member
    have comments : ∀ c ∈ between, c.isComment = true := fun c inside =>
      isComment_of_mem_commentsBefore
        (run ▸ List.mem_append_right front (List.mem_cons_of_mem x inside))
    rcases n.previousSiblings_cases with ⟨first, _⟩ | ⟨before, previous, _, behind, _⟩
    · refine ⟨p, front, between, later, rfl, ?_, comments⟩
      rw [children, first, run]
      simp
    · refine ⟨p, before ++ previous :: front, between, later, rfl, ?_, comments⟩
      rw [children, behind, run]
      simp

/-- No comment leads two nodes. -/
theorem eq_of_leading {n n' x : Node} (code : n.isComment = false) (code' : n'.isComment = false)
    (leads : x ∈ n.leadingComments) (leads' : x ∈ n'.leadingComments) : n = n' := by
  obtain ⟨p, earlier, between, later, _, children, comments⟩ := owner_of_leading leads
  obtain ⟨p', earlier', between', later', _, children', comments'⟩ := owner_of_leading leads'
  have child : x ∈ p.children := children ▸ List.mem_append_right _ List.mem_cons_self
  have child' : x ∈ p'.children := children' ▸ List.mem_append_right _ List.mem_cons_self
  obtain rfl : p = p' :=
    Option.some.inj ((parent?_of_mem_children child).symm.trans (parent?_of_mem_children child'))
  have once : (earlier ++ x :: (between ++ n :: later)).Nodup :=
    children ▸ p.children_address_nodup.of_map
  have absent := (List.nodup_cons.mp (List.nodup_middle.mp once)).1
  rw [List.mem_append, not_or] at absent
  obtain ⟨-, -, behind⟩ := (List.append_cons_inj_of_notMem absent.1 absent.2).mp
    (children.symm.trans children')
  -- Both nodes are the first behind the comment that is none.
  have first {n : Node} {between : List Node} (code : n.isComment = false)
      (comments : ∀ c ∈ between, c.isComment = true) (later : List Node) :
      (between ++ n :: later).find? (fun c => !c.isComment) = some n := by
    have none : between.find? (fun c => !c.isComment) = none := by simpa using comments
    simp [List.find?_append, none, code]
  have same := first code' comments' later'
  rw [← behind, first code comments later] at same
  exact Option.some.inj same

/-- Where siblings are in order, the comments that lead a node are the end of the run of comments
directly before it: those that do not begin on the row on which the sibling before the run ends. No
comment leads two nodes. -/
theorem leadingComments_adjoin (tree : Tree) (ordered : (root tree).SiblingsOrdered) (n : Node)
    (below : n ∈ (root tree).subtree) (code : n.isComment = false) :
    (n.parent? = none → n.leadingComments = []) ∧
      (∀ p, n.parent? = some p → n.LeadingRun p) ∧
      ∀ n', n'.isComment = false → n' ≠ n → n.leadingComments.Disjoint n'.leadingComments := by
  refine ⟨leadingComments_of_no_parent, fun p parent => ?_, fun n' code' other x leads leads' => ?_⟩
  · obtain rfl | deeper := List.mem_cons.mp below
    · cases parent
    · obtain ⟨q, inside, child⟩ := exists_parent deeper
      obtain rfl : q = p := Option.some.inj ((parent?_of_mem_children child).symm.trans parent)
      exact (ordered q inside).leadingRun parent
  · exact other (eq_of_leading code code' leads leads').symm

/-! ### Two comments before a field -/

/-- The nodes of a class with two comments between its fields. -/
def commentedFieldsListing : List ClassAtlas.Listed :=
  [⟨"compilation_unit", 0, 52, 1⟩, ⟨"class_declaration", 0, 52, 3⟩, ⟨"", 0, 5, 0⟩,
    ⟨"name:identifier", 6, 7, 0⟩, ⟨"body:declaration_list", 8, 52, 6⟩, ⟨"", 8, 9, 0⟩,
    ⟨"field_declaration", 12, 18, 2⟩, ⟨"variable_declaration", 12, 17, 2⟩,
    ⟨"type:predefined_type", 12, 15, 0⟩, ⟨"variable_declarator", 16, 17, 1⟩,
    ⟨"name:identifier", 16, 17, 0⟩, ⟨"", 17, 18, 0⟩, ⟨"comment", 19, 27, 0⟩,
    ⟨"comment", 30, 43, 0⟩, ⟨"field_declaration", 44, 50, 2⟩, ⟨"variable_declaration", 44, 49, 2⟩,
    ⟨"type:predefined_type", 44, 47, 0⟩, ⟨"variable_declarator", 48, 49, 1⟩,
    ⟨"name:identifier", 48, 49, 0⟩, ⟨"", 49, 50, 0⟩, ⟨"", 51, 52, 0⟩]

def commentedFieldsRead : Option Tree :=
  Tree.ofListing? "class A \x7b\n  int a; // first\n  /* second\n */ int b;\n\x7d"
    commentedFieldsListing

def commentedFields : Tree := commentedFieldsRead.getD default

/-- The field `b`. -/
def secondField : Node :=
  ((root commentedFields).subtree.find? fun n => n.start == 44).getD (root commentedFields)

/-- The first comment begins behind the field before it, so that the second one alone leads a field.
-/
theorem commentedFields_led :
    (root commentedFields).SiblingsOrdered ∧ secondField ∈ (root commentedFields).subtree ∧
      secondField.isComment = false ∧
      secondField.leadingComments.map text = ["/* second\n */"] ∧
      (∃ p, secondField.parent? = some p ∧ secondField.LeadingRun p) ∧
      ∀ n', n'.isComment = false → n' ≠ secondField →
        secondField.leadingComments.Disjoint n'.leadingComments := by
  obtain ⟨tree, read⟩ : ∃ tree, commentedFieldsRead = some tree :=
    Option.isSome_iff_exists.mp (by decide +kernel)
  have same : tree = commentedFields := by rw [commentedFields, read, Option.getD_some]
  subst same
  have ordered : (root commentedFields).SiblingsOrdered :=
    siblingsOrdered_of_listing read (by decide +kernel)
  obtain ⟨n, found⟩ : ∃ n, (root commentedFields).subtree.find? (fun n => n.start == 44) = some n :=
    Option.isSome_iff_exists.mp (by decide +kernel)
  have below : secondField ∈ (root commentedFields).subtree := by
    rw [secondField, found]
    exact List.mem_of_find?_eq_some found
  have code : secondField.isComment = false := by decide +kernel
  obtain ⟨p, parent⟩ : ∃ p, secondField.parent? = some p :=
    Option.isSome_iff_exists.mp (by decide +kernel)
  obtain ⟨-, run, apart⟩ := leadingComments_adjoin commentedFields ordered secondField below code
  exact ⟨ordered, below, code, by decide +kernel, ⟨p, parent, run p parent⟩, apart⟩

end Node

end ClassAtlas
