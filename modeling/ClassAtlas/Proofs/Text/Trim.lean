import ClassAtlas.Text.Blank
import Mathlib.Data.List.TakeWhile

/-!
# Trimmed texts

A text that ends in a visible character keeps all of itself when it is trimmed, and blanks written
after it disappear again. Compacting forgets every blank, wherever it stands.
-/
namespace ClassAtlas.Text

theorem dropEndWhile_append {α : Type} {p : α → Bool} (front : List α) {back : List α}
    (dropped : ∀ x ∈ back, p x = true) :
    dropEndWhile p (front ++ back) = dropEndWhile p front := by
  -- Seen from the end, everything in `back` is dropped before `front` begins.
  have gone : back.reverse.dropWhile p = [] := by
    rw [List.dropWhile_eq_nil_iff]
    intro x member
    exact dropped x (List.mem_reverse.mp member)
  simp [dropEndWhile, List.dropWhile_append, gone]

theorem dropEndWhile_of_all {α : Type} {p : α → Bool} {xs : List α}
    (all : ∀ x ∈ xs, p x = true) : dropEndWhile p xs = [] :=
  dropEndWhile_append [] all

theorem dropEndWhile_concat {α : Type} {p : α → Bool} (front : List α) {last : α}
    (kept : p last = false) : dropEndWhile p (front ++ [last]) = front ++ [last] := by
  simp [dropEndWhile, kept]

/-- What follows an element that is kept is dropped for itself. -/
theorem dropEndWhile_append_of_kept {α : Type} {p : α → Bool} (front : List α) {last : α}
    (kept : p last = false) (back : List α) :
    dropEndWhile p (front ++ [last] ++ back) = front ++ [last] ++ dropEndWhile p back := by
  rw [dropEndWhile, List.reverse_append, List.dropWhile_append]
  split
  next gone =>
    have none : dropEndWhile p back = [] := by
      rw [dropEndWhile, List.isEmpty_iff.mp gone, List.reverse_nil]
    rw [none, List.append_nil]
    exact dropEndWhile_concat front kept
  next => rw [List.reverse_append, List.reverse_reverse, dropEndWhile]

/-- Nothing but what `p` holds of is dropped at the end. -/
theorem dropEndWhile_split {α : Type} (p : α → Bool) (xs : List α) :
    ∃ dropped, xs = dropEndWhile p xs ++ dropped ∧ ∀ x ∈ dropped, p x = true := by
  refine ⟨(xs.reverse.takeWhile p).reverse, ?_, fun x member => ?_⟩
  · rw [dropEndWhile, ← List.reverse_append, List.takeWhile_append_dropWhile, List.reverse_reverse]
  · exact List.mem_takeWhile_imp (List.mem_reverse.mp member)

theorem dropEndWhile_prefix {α : Type} (p : α → Bool) (xs : List α) : dropEndWhile p xs <+: xs := by
  obtain ⟨dropped, split, -⟩ := dropEndWhile_split p xs
  exact ⟨dropped, split.symm⟩

/-- What is left of a list ends in an element that is kept. -/
theorem dropEndWhile_eq_nil_or_concat {α : Type} (p : α → Bool) (xs : List α) :
    dropEndWhile p xs = [] ∨
      ∃ front last, dropEndWhile p xs = front ++ [last] ∧ p last = false := by
  unfold dropEndWhile
  cases left : xs.reverse.dropWhile p with
  | nil => exact Or.inl rfl
  | cons last front =>
    right
    refine ⟨front.reverse, last, by simp, ?_⟩
    -- What `dropWhile` stops at is the last element that is left.
    have kept := List.head_dropWhile_not p (l := xs.reverse) (by simp [left])
    simpa [left] using kept

/-- The last character of the text is no blank. -/
def EndsVisible (s : String) : Prop :=
  ∃ front last, s.toList = front ++ [last] ∧ isBlank last = false

theorem endsVisible_append (front : String) {back : String} (visible : EndsVisible back) :
    EndsVisible (front ++ back) := by
  obtain ⟨before, last, split, kept⟩ := visible
  exact ⟨front.toList ++ before, last, by simp [split], kept⟩

theorem endsVisible_trimEnd {s : String} (some_left : trimEnd s ≠ "") :
    EndsVisible (trimEnd s) := by
  rcases dropEndWhile_eq_nil_or_concat isBlank s.toList with gone | ⟨front, last, split, kept⟩
  · exact absurd (by simp [trimEnd, gone]) some_left
  · exact ⟨front, last, by simp [trimEnd, split], kept⟩

theorem trimEnd_of_endsVisible {s : String} (visible : EndsVisible s) : trimEnd s = s := by
  obtain ⟨front, last, split, kept⟩ := visible
  rw [trimEnd, split, dropEndWhile_concat front kept, ← split, String.ofList_toList]

theorem trimEnd_trimEnd (s : String) : trimEnd (trimEnd s) = trimEnd s := by
  by_cases left : trimEnd s = ""
  · rw [left]
    rfl
  · exact trimEnd_of_endsVisible (endsVisible_trimEnd left)

theorem trimEnd_sublist (s : String) : (trimEnd s).toList.Sublist s.toList := by
  rw [trimEnd, String.toList_ofList, dropEndWhile, ← List.reverse_sublist, List.reverse_reverse]
  exact List.dropWhile_sublist isBlank

theorem trimEnd_append (s : String) {blanks : String} (blank : allBlank blanks = true) :
    trimEnd (s ++ blanks) = trimEnd s := by
  have dropped : ∀ c ∈ blanks.toList, isBlank c = true := List.all_eq_true.mp blank
  rw [trimEnd, String.toList_append, dropEndWhile_append s.toList dropped, trimEnd]

@[simp] theorem allBlank_append (left right : String) :
    allBlank (left ++ right) = (allBlank left && allBlank right) := by
  simp [allBlank]

theorem not_mem_of_allBlank {s : String} (blank : allBlank s = true) {c : Char}
    (visible : isBlank c = false) : c ∉ s.toList := fun member => by
  rw [List.all_eq_true.mp blank c member] at visible
  cases visible

theorem allBlank_takeWhile (s : String) :
    allBlank (String.ofList (s.toList.takeWhile isBlank)) = true := by
  simp [allBlank]

theorem trimStart_append {gap s : String} (blank : allBlank gap = true)
    (visible : startsBlank s = false) : trimStart (gap ++ s) = s := by
  rw [trimStart, String.toList_append, List.dropWhile_append_of_pos (List.all_eq_true.mp blank)]
  cases split : s.toList with
  | nil => rw [List.dropWhile_nil, ← split, String.ofList_toList]
  | cons c rest =>
    rw [startsBlank, split] at visible
    rw [List.dropWhile_cons_of_neg (by simpa using visible), ← split, String.ofList_toList]

/-! ### Compacting -/

theorem compact_append (left right : String) :
    compact (left ++ right) = compact left ++ compact right := by
  simp [compact, String.ofList_append]

theorem compact_of_allBlank {s : String} (blank : allBlank s = true) : compact s = "" := by
  have gone : s.toList.filter (fun c => !isBlank c) = [] := by
    rw [List.filter_eq_nil_iff]
    intro c member
    simp [List.all_eq_true.mp blank c member]
  simp [compact, gone]

theorem compact_trimEnd (s : String) : compact (trimEnd s) = compact s := by
  -- Trimming cuts off a run of blanks, and compacting would have dropped these anyway.
  obtain ⟨dropped, split, blank⟩ := dropEndWhile_split isBlank s.toList
  have gone : dropped.filter (fun c => !isBlank c) = [] := by
    rw [List.filter_eq_nil_iff]
    intro c member
    simp [blank c member]
  calc compact (trimEnd s)
      = String.ofList ((dropEndWhile isBlank s.toList).filter fun c => !isBlank c) := by
        simp [compact, trimEnd]
    _ = String.ofList ((dropEndWhile isBlank s.toList ++ dropped).filter fun c => !isBlank c) := by
        rw [List.filter_append, gone, List.append_nil]
    _ = compact s := by rw [← split, compact]

end ClassAtlas.Text
