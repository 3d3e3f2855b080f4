/-!
# Counting what is left

Measures of what a search still has to do. Work on a list of trees ends because the sizes of the
trees have a smaller total after every step, and a search that never visits anything twice ends
because fewer and fewer candidates are left.
-/
namespace ClassAtlas

/-- The total of a measure over a list. -/
def totalOf {α : Type} (measure : α → Nat) : List α → Nat
  | [] => 0
  | x :: rest => measure x + totalOf measure rest

@[simp] theorem totalOf_nil {α : Type} (measure : α → Nat) : totalOf measure [] = 0 := rfl

@[simp] theorem totalOf_cons {α : Type} (measure : α → Nat) (x : α) (rest : List α) :
    totalOf measure (x :: rest) = measure x + totalOf measure rest := rfl

@[simp] theorem totalOf_append {α : Type} (measure : α → Nat) (left right : List α) :
    totalOf measure (left ++ right) = totalOf measure left + totalOf measure right := by
  induction left with
  | nil => simp
  | cons x rest ih => simp only [List.cons_append, totalOf_cons, ih]; omega

@[simp] theorem totalOf_map {α β : Type} (measure : β → Nat) (f : α → β) (xs : List α) :
    totalOf measure (xs.map f) = totalOf (fun x => measure (f x)) xs := by
  induction xs with
  | nil => rfl
  | cons x rest ih => simp [ih]

theorem totalOf_eq_zero_iff {α : Type} {measure : α → Nat} {xs : List α} :
    totalOf measure xs = 0 ↔ ∀ x ∈ xs, measure x = 0 := by
  induction xs with
  | nil => simp
  | cons x rest ih => simp [ih]

theorem totalOf_add {α : Type} (f g : α → Nat) (xs : List α) :
    totalOf (fun x => f x + g x) xs = totalOf f xs + totalOf g xs := by
  induction xs with
  | nil => rfl
  | cons x rest ih =>
    simp only [totalOf_cons, ih]
    omega

/-- No member measures more than the whole list. -/
theorem le_totalOf {α : Type} {measure : α → Nat} {x : α} {xs : List α} (member : x ∈ xs) :
    measure x ≤ totalOf measure xs := by
  induction xs with
  | nil => simp at member
  | cons first rest ih =>
    simp only [totalOf_cons]
    rcases List.mem_cons.1 member with rfl | later
    · exact Nat.le_add_right _ _
    · exact Nat.le_trans (ih later) (Nat.le_add_left _ _)

/-- Leaving members out makes the total no larger. -/
theorem totalOf_filter_le {α : Type} (measure : α → Nat) (p : α → Bool) (xs : List α) :
    totalOf measure (xs.filter p) ≤ totalOf measure xs := by
  induction xs with
  | nil => simp
  | cons first rest ih =>
    simp only [List.filter_cons]
    split <;> simp only [totalOf_cons] <;> omega

/-- When `p` holds of less than `q` does, and not of one member of which `q` holds, it counts less.
-/
theorem countP_lt_countP {α : Type} {p q : α → Bool} {xs : List α} {x : α} (member : x ∈ xs)
    (less : ∀ y, p y = true → q y = true) (lost : p x = false) (kept : q x = true) :
    xs.countP p < xs.countP q := by
  induction xs with
  | nil => simp at member
  | cons first rest ih =>
    have below : rest.countP p ≤ rest.countP q := List.countP_mono_left fun y _ => less y
    simp only [List.countP_cons]
    rcases List.mem_cons.1 member with rfl | later
    · simp [lost, kept]
      omega
    · have strict := ih later
      by_cases holds : p first = true
      · simp [holds, less first holds]
        omega
      · simp only [Bool.not_eq_true] at holds
        simp only [holds, Bool.false_eq_true, ↓reduceIte]
        omega

end ClassAtlas
