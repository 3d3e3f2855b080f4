import ClassAtlas.Model.Names
import ClassAtlas.Proofs.Symbols.FullName

/-!
# Namespaces around a place

The namespaces that are searched for a name are those around the innermost one, each once and with
the longest name first. So the type that is found is the one in the longest namespace that has any.
-/
namespace ClassAtlas

/-- The one namespace is the other, or around it: the global one, or a part of its name before a
dot. -/
def IsAround (outer space : String) : Prop :=
  outer = space ∨ outer = "" ∨ ∃ inner, space = dotted outer inner

theorem not_mem_of_cutFirst? {c : Char} {s front back : List Char}
    (cut : Text.cutFirst? c s = some (front, back)) : c ∉ front := by
  induction s generalizing front with
  | nil => cases cut
  | cons x rest ih =>
    rw [Text.cutFirst?] at cut
    split at cut
    · cases cut
      exact List.not_mem_nil
    next other =>
      obtain ⟨⟨before, after⟩, known, made⟩ := Option.map_eq_some_iff.mp cut
      cases made
      rw [List.mem_cons, not_or]
      exact ⟨Ne.symm other, ih known⟩

/-- A dot after the first one is in what follows the first one. -/
theorem split_after_first {c : Char} {front back left right : List Char} (before : c ∉ front)
    (same : front ++ c :: back = left ++ c :: right) :
    back = right ∨ ∃ more, back = more ++ c :: right := by
  -- The other dot is where the first one is, or else one of the two sides reaches beyond it.
  rcases List.append_eq_append_iff.mp same with ⟨more, -, rest⟩ | ⟨more, whole, rest⟩
  · cases more with
    | nil => exact .inl (List.cons.inj rest).2
    | cons x more => exact .inr ⟨more, (List.cons.inj rest).2⟩
  · cases more with
    | nil => exact .inl (List.cons.inj rest).2.symm
    | cons x more =>
      rw [List.cons_append, List.cons.injEq] at rest
      rw [whole, List.mem_append, not_or, ← rest.1] at before
      exact absurd List.mem_cons_self before.2

theorem mem_enclosingSpacesOf {reversed : List Char} {outer : String} :
    outer ∈ enclosingSpacesOf reversed ↔ outer ≠ "" ∧ (outer.toList.reverse = reversed ∨
      ∃ inner, reversed = inner ++ '.' :: outer.toList.reverse) := by
  have whole {reversed : List Char} :
      outer = String.ofList reversed.reverse ↔ outer.toList.reverse = reversed := by
    rw [← String.toList_inj, String.toList_ofList, List.reverse_eq_iff]
  induction reversed using enclosingSpacesOf.induct with
  | case1 reversed empty =>
    rw [List.isEmpty_iff] at empty
    rw [empty, enclosingSpacesOf]
    simp
  | case2 reversed present ih =>
    rw [enclosingSpacesOf, if_neg present, List.mem_cons, whole]
    have named (same : outer.toList.reverse = reversed) : outer ≠ "" := by
      rintro rfl
      exact present (List.isEmpty_iff.mpr same.symm)
    split
    next single =>
      rw [Text.cutFirst?_eq_none_iff] at single
      constructor
      · rintro (same | inside)
        · exact ⟨named same, .inl same⟩
        · exact absurd inside List.not_mem_nil
      · rintro ⟨-, same | ⟨inner, split⟩⟩
        · exact .inl same
        · exact absurd (split ▸ List.mem_append_right _ List.mem_cons_self) single
    next front back cut =>
      have further : outer ∈ enclosingSpacesOf back ↔ _ := ih front back cut
      rw [further]
      have first := Text.cutFirst?_append cut
      constructor
      · rintro (same | ⟨other, same | ⟨inner, split⟩⟩)
        · exact ⟨named same, .inl same⟩
        · exact ⟨other, .inr ⟨front, by rw [first, same]⟩⟩
        · exact ⟨other, .inr ⟨front ++ '.' :: inner, by rw [first, split]; simp⟩⟩
      · rintro ⟨other, same | ⟨inner, split⟩⟩
        · exact .inl same
        -- The dot after the namespace is the first one that is read, or comes later.
        · rcases split_after_first (not_mem_of_cutFirst? cut) (first.symm.trans split) with
            same | later
          · exact .inr ⟨other, .inl same.symm⟩
          · exact .inr ⟨other, .inr later⟩

/-- The namespaces that are searched are those around the innermost one. -/
theorem mem_enclosingSpaces {space? : Option String} {outer : String} :
    outer ∈ enclosingSpaces space? ↔ IsAround outer (space?.getD "") := by
  have whole : outer.toList.reverse = (space?.getD "").toList.reverse ↔ outer = space?.getD "" := by
    rw [List.reverse_inj, String.toList_inj]
  have part : (∃ inner, (space?.getD "").toList.reverse = inner ++ '.' :: outer.toList.reverse) ↔
      ∃ inner, space?.getD "" = dotted outer inner := by
    constructor
    · rintro ⟨inner, split⟩
      refine ⟨String.ofList inner.reverse, ?_⟩
      rw [← String.toList_inj, toList_dotted, String.toList_ofList]
      simpa using congrArg List.reverse split
    · rintro ⟨inner, split⟩
      refine ⟨inner.toList.reverse, ?_⟩
      rw [split, toList_dotted]
      simp
  rw [enclosingSpaces, List.mem_append, List.mem_singleton, mem_enclosingSpacesOf, whole, part,
    IsAround]
  by_cases empty : outer = ""
  · simp [empty]
  · simp [empty]

/-! ### The longest one -/

theorem length_le_of_mem_enclosingSpacesOf {reversed : List Char} {outer : String}
    (inside : outer ∈ enclosingSpacesOf reversed) : outer.length ≤ reversed.length := by
  obtain ⟨-, same | ⟨inner, split⟩⟩ := mem_enclosingSpacesOf.mp inside
  · rw [← same, List.length_reverse, String.length_toList]
  · rw [split, List.length_append, List.length_cons, List.length_reverse, String.length_toList]
    omega

theorem enclosingSpacesOf_decreasing (reversed : List Char) :
    (enclosingSpacesOf reversed).Pairwise fun inner outer => outer.length < inner.length := by
  induction reversed using enclosingSpacesOf.induct with
  | case1 reversed empty =>
    rw [enclosingSpacesOf, if_pos empty]
    exact .nil
  | case2 reversed present ih =>
    rw [enclosingSpacesOf, if_neg present, List.pairwise_cons]
    split
    · exact ⟨List.forall_mem_nil _, .nil⟩
    next front back cut =>
      refine ⟨fun outer inside => ?_, ih front back cut⟩
      have shorter := length_le_of_mem_enclosingSpacesOf inside
      rw [String.length_ofList, List.length_reverse, Text.cutFirst?_append cut, List.length_append,
        List.length_cons]
      omega

theorem enclosingSpaces_decreasing (space? : Option String) :
    (enclosingSpaces space?).Pairwise fun inner outer => outer.length < inner.length := by
  rw [enclosingSpaces, List.pairwise_append]
  refine ⟨enclosingSpacesOf_decreasing _, List.pairwise_singleton _ _, ?_⟩
  intro inner inside outer global
  rw [List.mem_singleton.mp global, String.length_empty]
  have named := (mem_enclosingSpacesOf.mp inside).1
  exact Nat.pos_of_ne_zero fun zero => named (String.length_eq_zero_iff.mp zero)

namespace Model

variable {m : Model} {n : Node} {path : String} {arity : Nat}

/-- The namespace is around the node: the innermost one of the node, or around that one. -/
def HasAround (m : Model) (n : Node) (space : String) : Prop :=
  IsAround space ((m.table.namespaceAt? n.start).getD "")

theorem mem_spacesAt {space : String} : space ∈ m.spacesAt n ↔ m.HasAround n space :=
  mem_enclosingSpaces

theorem hasAround_global (m : Model) (n : Node) : m.HasAround n "" := .inr (.inl rfl)

/-- The type with a path in the longest namespace around the node that has one. -/
def InLongestSpace (m : Model) (n : Node) (path : String) (arity : Nat) (id : TypeId) : Prop :=
  ∃ space, m.HasAround n space ∧ m.table.lookup? (joined space path) arity = some id ∧
    ∀ longer, m.HasAround n longer → space.length < longer.length →
      m.table.lookup? (joined longer path) arity = none

theorem typeIn?_eq_some_iff {id : TypeId} :
    m.typeIn? (m.spacesAt n) path arity = some id ↔ m.InLongestSpace n path arity id := by
  have decreasing : (m.spacesAt n).Pairwise fun inner outer => outer.length < inner.length :=
    enclosingSpaces_decreasing _
  unfold InLongestSpace
  simp only [← mem_spacesAt]
  rw [typeIn?]
  constructor
  · intro found
    obtain ⟨before, space, after, split, found, passed⟩ := List.findSome?_eq_some_iff.mp found
    rw [split] at decreasing ⊢
    refine ⟨space, List.mem_append_right _ List.mem_cons_self, found, ?_⟩
    intro longer around more
    -- What comes after a namespace is shorter.
    obtain ⟨-, rest, -⟩ := List.pairwise_append.mp decreasing
    obtain ⟨shorter, -⟩ := List.pairwise_cons.mp rest
    rcases List.mem_append.mp around with earlier | later
    · exact passed longer earlier
    · rcases List.mem_cons.mp later with rfl | later
      · omega
      · have := shorter longer later
        omega
  · rintro ⟨space, around, found, longest⟩
    obtain ⟨before, after, split⟩ := List.append_of_mem around
    rw [split] at decreasing longest ⊢
    obtain ⟨-, -, earlier⟩ := List.pairwise_append.mp decreasing
    refine List.findSome?_eq_some_iff.mpr ⟨before, space, after, rfl, found, ?_⟩
    intro longer member
    apply longest longer (List.mem_append_left _ member)
    exact earlier longer member space List.mem_cons_self

end Model

end ClassAtlas
