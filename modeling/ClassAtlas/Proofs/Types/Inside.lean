import ClassAtlas.Types.TypeRef

/-!
# Inside a type reference

The references that a reference is built from, at any depth. What holds of all of them is decided
part by part, and survives substitution when it holds of what is put in.
-/
namespace ClassAtlas.TypeRef

/-- The references that a reference is built from directly: type arguments, element types, and what
is annotated or pointed to. -/
def parts : TypeRef → List TypeRef
  | declared _ args | core _ args | external _ args => args
  | nullable inner => [inner]
  | array element _ => [element]
  | tuple elements => elements.map TupleElement.type
  | pointer target => [target]
  | param _ | dynamic => []

/-- The first reference is the second one or occurs in it. -/
inductive Inside (u : TypeRef) : TypeRef → Prop
  | whole : Inside u u
  | part {p t : TypeRef} : p ∈ t.parts → Inside u p → Inside u t

/-- The property holds of a reference and of all that occur in it. -/
def Everywhere (P : TypeRef → Prop) (t : TypeRef) : Prop := ∀ u, u.Inside t → P u

theorem size_lt_of_mem_parts {p t : TypeRef} (part : p ∈ t.parts) : p.size < t.size := by
  cases t with
  | declared _ args | core _ args | external _ args =>
    have : p.size ≤ totalOf size args := le_totalOf part
    rw [totalOf_size] at this
    simp only [size]
    exact Nat.lt_succ_of_le this
  | nullable inner | array inner _ | pointer inner =>
    rw [List.mem_singleton.mp part]
    simp only [size]
    exact Nat.lt_succ_self _
  | tuple elements =>
    have : p.size ≤ totalOf size (elements.map TupleElement.type) := le_totalOf part
    rw [totalOf_map, totalOf_size_elements] at this
    simp only [size]
    exact Nat.lt_succ_of_le this
  | param _ | dynamic => exact absurd part List.not_mem_nil

/-- What holds of a reference whenever it holds of all of its parts holds of every reference. -/
theorem partInduction {motive : TypeRef → Prop}
    (step : ∀ t, (∀ p ∈ t.parts, motive p) → motive t) (t : TypeRef) : motive t :=
  step t fun p _ => partInduction step p
termination_by t.size
decreasing_by exact size_lt_of_mem_parts ‹_›

theorem everywhere_iff {P : TypeRef → Prop} {t : TypeRef} :
    t.Everywhere P ↔ P t ∧ ∀ p ∈ t.parts, p.Everywhere P := by
  constructor
  · intro all
    exact ⟨all t .whole, fun p part u inside => all u (.part part inside)⟩
  · rintro ⟨own, deeper⟩ u inside
    cases inside with
    | whole => exact own
    | part member inside => exact deeper _ member u inside

/-! ### One level -/

/-- The reference with its direct parts changed. -/
def mapParts (change : TypeRef → TypeRef) : TypeRef → TypeRef
  | declared id args => declared id (args.map change)
  | core type args => core type (args.map change)
  | external name args => external name (args.map change)
  | param name => param name
  | nullable inner => nullable (change inner)
  | array element rank => array (change element) rank
  | tuple elements => tuple (elements.map fun e => ⟨e.name?, change e.type⟩)
  | pointer target => pointer (change target)
  | dynamic => dynamic

@[simp] theorem parts_mapParts (change : TypeRef → TypeRef) (t : TypeRef) :
    (t.mapParts change).parts = t.parts.map change := by
  cases t <;> simp [mapParts, parts]

@[simp] theorem mapParts_mapParts (first second : TypeRef → TypeRef) (t : TypeRef) :
    (t.mapParts first).mapParts second = t.mapParts fun p => second (first p) := by
  cases t <;> simp [mapParts, Function.comp_def]

theorem mapParts_eq_mapParts_iff {f g : TypeRef → TypeRef} {t : TypeRef} :
    t.mapParts f = t.mapParts g ↔ ∀ p ∈ t.parts, f p = g p := by
  cases t <;> simp [mapParts, parts]

@[simp] theorem mapParts_id (t : TypeRef) : t.mapParts id = t := by
  cases t with
  | tuple elements =>
    have same : (fun e : TupleElement => (⟨e.name?, id e.type⟩ : TupleElement)) = id :=
      funext fun ⟨_, _⟩ => rfl
    rw [mapParts, same, List.map_id]
  | _ => simp [mapParts]

theorem mapParts_ne_param {change : TypeRef → TypeRef} {t : TypeRef}
    (other : ∀ name, t ≠ .param name) (name : String) : t.mapParts change ≠ .param name := by
  cases t with
  | param own => exact absurd rfl (other own)
  | _ => simp [mapParts]

theorem param_or_other (t : TypeRef) : (∃ name, t = .param name) ∨ ∀ name, t ≠ .param name := by
  cases t <;> simp

/-! ### Replacing type parameters -/

theorem replaceAll_eq_map (assign : String → Option TypeRef) (types : List TypeRef) :
    replaceAll assign types = types.map (replace assign) := by
  induction types with
  | nil => simp [replaceAll]
  | cons t rest ih => simp [replaceAll, ih]

theorem replaceElements_eq_map (assign : String → Option TypeRef) (elements : List TupleElement) :
    replaceElements assign elements = elements.map fun e => ⟨e.name?, e.type.replace assign⟩ := by
  induction elements with
  | nil => simp [replaceElements]
  | cons e rest ih =>
    obtain ⟨name, type⟩ := e
    simp [replaceElements, replaceElement, ih]

theorem replace_param (assign : String → Option TypeRef) (name : String) :
    (param name).replace assign = (assign name).getD (.param name) := by
  rw [replace]

/-- A type parameter is replaced as a whole, any other reference part by part. -/
theorem replace_eq_mapParts {assign : String → Option TypeRef} {t : TypeRef}
    (other : ∀ name, t ≠ .param name) : t.replace assign = t.mapParts (replace assign) := by
  cases t with
  | param name => exact absurd rfl (other name)
  | declared | core | external => simp [replace, mapParts, replaceAll_eq_map]
  | nullable | array | pointer | dynamic => simp [replace, mapParts]
  | tuple elements => simp [replace, mapParts, replaceElements_eq_map]

theorem parts_replace {assign : String → Option TypeRef} {t : TypeRef}
    (other : ∀ name, t ≠ .param name) :
    (t.replace assign).parts = t.parts.map (replace assign) := by
  rw [replace_eq_mapParts other, parts_mapParts]

/-- Only type parameters can tell two replacements apart. -/
theorem replace_eq_replace_iff {f g : String → Option TypeRef} {t : TypeRef} :
    t.replace f = t.replace g ↔
      ∀ name, (param name).Inside t → (param name).replace f = (param name).replace g := by
  induction t using partInduction with
  | step t ih =>
    obtain ⟨name, rfl⟩ | other := param_or_other t
    · constructor
      · intro same name' inside
        cases inside with
        | whole => exact same
        | part member _ => exact absurd member List.not_mem_nil
      · exact fun same => same name .whole
    · rw [replace_eq_mapParts other, replace_eq_mapParts other, mapParts_eq_mapParts_iff]
      constructor
      · intro same name inside
        cases inside with
        | whole => exact absurd rfl (other name)
        | part member inside => exact (ih _ member).mp (same _ member) name inside
      · intro same p member
        exact (ih p member).mpr fun name inside => same name (.part member inside)

/-- What replacing type parameters keeps, and what is put in for them has, holds everywhere in the
result. -/
theorem Everywhere.replace {P : TypeRef → Prop} {assign : String → Option TypeRef} {t : TypeRef}
    (all : t.Everywhere P) (keeps : ∀ u, (∀ name, u ≠ .param name) → P u → P (u.replace assign))
    (assigned : ∀ name a, assign name = some a → a.Everywhere P) :
    (t.replace assign).Everywhere P := by
  induction t using partInduction with
  | step t ih =>
    obtain ⟨own, deeper⟩ := everywhere_iff.mp all
    obtain ⟨name, rfl⟩ | other := param_or_other t
    · rw [replace_param]
      cases found : assign name with
      | none => exact all
      | some a => exact assigned name a found
    · rw [everywhere_iff, parts_replace other]
      refine ⟨keeps t other own, ?_⟩
      intro p member
      obtain ⟨q, part, rfl⟩ := List.mem_map.mp member
      exact ih q part (deeper q part)

/-- What is put in for a type parameter is one of the type arguments. -/
theorem mem_of_lookup_zip {params : List String} {args : List TypeRef} {name : String} {a : TypeRef}
    (found : (params.zip args).lookup name = some a) : a ∈ args := by
  obtain ⟨before, after, split, -⟩ := List.lookup_eq_some_iff.mp found
  have member : (name, a) ∈ params.zip args := by simp [split]
  exact (List.of_mem_zip member).2

end ClassAtlas.TypeRef
