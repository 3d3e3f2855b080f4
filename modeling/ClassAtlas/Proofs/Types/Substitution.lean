import ClassAtlas.Proofs.Types.WellFormed

/-!
# Substitution

Type parameters are replaced all at once. A place in the result is one that the reference had
before, or is inside a type argument that was put in, and what is put in is not looked at again: so
a second substitution can be done to the type arguments first.
-/
namespace ClassAtlas

namespace TypeRef

/-! ### Places -/

/-- The reference at a place: the number of a part, then the number of a part of it, and so on. -/
def partAt? : TypeRef → List Nat → Option TypeRef
  | t, [] => some t
  | t, i :: place => t.parts[i]?.bind fun p => p.partAt? place

theorem partAt?_append (t : TypeRef) (outer inner : List Nat) :
    t.partAt? (outer ++ inner) = (t.partAt? outer).bind fun u => u.partAt? inner := by
  induction outer generalizing t with
  | nil => rfl
  | cons i place ih => simp only [List.cons_append, partAt?, ih, Option.bind_assoc]

/-- What is inside a reference is at one of its places. -/
theorem Inside.exists_place {t u : TypeRef} (inside : u.Inside t) :
    ∃ place, t.partAt? place = some u := by
  induction inside with
  | whole => exact ⟨[], rfl⟩
  | part member _ ih =>
    obtain ⟨i, part⟩ := List.mem_iff_getElem?.mp member
    obtain ⟨place, there⟩ := ih
    exact ⟨i :: place, Option.bind_eq_some_iff.mpr ⟨_, part, there⟩⟩

variable {assign : String → Option TypeRef} {t u v : TypeRef} {place : List Nat}

theorem partAt?_replace (there : t.partAt? place = some u) :
    (t.replace assign).partAt? place = some (u.replace assign) := by
  induction place generalizing t with
  | nil =>
    cases there
    rfl
  | cons i place ih =>
    obtain ⟨p, part, deeper⟩ := Option.bind_eq_some_iff.mp there
    obtain ⟨name, rfl⟩ | other := param_or_other t
    · cases part
    · rw [partAt?, parts_replace other, List.getElem?_map, part]
      exact ih deeper

/-- A place of the result is one of the reference, unless it is inside what was put in. -/
theorem partAt?_replace_cases (there : (t.replace assign).partAt? place = some v) :
    (∃ u, t.partAt? place = some u ∧ (∀ name, u = .param name → assign name = none) ∧
        u.replace assign = v) ∨
      ∃ outer inner name a, place = outer ++ inner ∧ t.partAt? outer = some (.param name) ∧
        assign name = some a ∧ a.partAt? inner = some v := by
  -- The induction is on the place. Where it comes to a type parameter, the rest is inside of what
  -- was put in for this one.
  induction place generalizing t with
  | nil =>
    cases there
    obtain ⟨name, rfl⟩ | other := param_or_other t
    · cases found : assign name with
      | none =>
        refine .inl ⟨.param name, rfl, ?_, rfl⟩
        rintro _ ⟨⟩
        exact found
      | some a =>
        rw [replace_param, found, Option.getD_some]
        exact .inr ⟨[], [], name, a, rfl, rfl, found, rfl⟩
    · exact .inl ⟨t, rfl, fun name same => absurd same (other name), rfl⟩
  | cons i place ih =>
    obtain ⟨name, rfl⟩ | other := param_or_other t
    · rw [replace_param] at there
      cases found : assign name with
      | none =>
        rw [found] at there
        cases there
      | some a =>
        rw [found] at there
        exact .inr ⟨[], i :: place, name, a, rfl, rfl, found, there⟩
    · rw [partAt?, parts_replace other, List.getElem?_map] at there
      obtain ⟨p', changed, there⟩ := Option.bind_eq_some_iff.mp there
      obtain ⟨p, part, rfl⟩ := Option.map_eq_some_iff.mp changed
      obtain ⟨u, stood, kept⟩ | ⟨outer, inner, name, a, rfl, stood, found⟩ := ih there
      · exact .inl ⟨u, Option.bind_eq_some_iff.mpr ⟨p, part, stood⟩, kept⟩
      · have stood' : t.partAt? (i :: outer) = some (.param name) :=
          Option.bind_eq_some_iff.mpr ⟨p, part, stood⟩
        exact .inr ⟨i :: outer, inner, name, a, rfl, stood', found⟩

/-- At the places of a replaced type parameter stands what was put in, and at the others what stood
there, with its own type parameters replaced. -/
theorem partAt?_replace_iff : (t.replace assign).partAt? place = some v ↔
    (∃ u, t.partAt? place = some u ∧ (∀ name, u = .param name → assign name = none) ∧
        u.replace assign = v) ∨
      ∃ outer inner name a, place = outer ++ inner ∧ t.partAt? outer = some (.param name) ∧
        assign name = some a ∧ a.partAt? inner = some v := by
  constructor
  · exact partAt?_replace_cases
  · rintro (⟨u, stood, -, rfl⟩ | ⟨outer, inner, name, a, rfl, stood, found, inside⟩)
    · exact partAt?_replace stood
    · rw [partAt?_append, partAt?_replace stood, replace_param, found, Option.getD_some]
      exact inside

/-- The type parameters of the result are those that were left and those in what was put in. -/
theorem partAt?_replace_param_iff {name : String} :
    (t.replace assign).partAt? place = some (.param name) ↔
      assign name = none ∧ t.partAt? place = some (.param name) ∨
        ∃ outer inner replaced a, place = outer ++ inner ∧
          t.partAt? outer = some (.param replaced) ∧ assign replaced = some a ∧
          a.partAt? inner = some (.param name) := by
  rw [partAt?_replace_iff]
  refine or_congr_left ⟨?_, ?_⟩
  · rintro ⟨u, stood, kept, same⟩
    obtain ⟨own, rfl⟩ | other := param_or_other u
    · have left := kept own rfl
      rw [replace_param, left, Option.getD_none] at same
      cases same
      exact ⟨left, stood⟩
    · rw [replace_eq_mapParts other] at same
      exact absurd same (mapParts_ne_param other name)
  · rintro ⟨left, stood⟩
    refine ⟨.param name, stood, ?_, by rw [replace_param, left, Option.getD_none]⟩
    rintro _ ⟨⟩
    exact left

/-! ### Laws of replacing -/

theorem replace_none (t : TypeRef) : t.replace (fun _ => none) = t := by
  induction t using partInduction with
  | step t ih =>
    obtain ⟨name, rfl⟩ | other := param_or_other t
    · rw [replace_param, Option.getD_none]
    · calc t.replace (fun _ => none)
        _ = t.mapParts (replace fun _ => none) := replace_eq_mapParts other
        _ = t.mapParts id := mapParts_eq_mapParts_iff.mpr ih
        _ = t := mapParts_id t

theorem replace_replace (f g : String → Option TypeRef) (t : TypeRef) :
    (t.replace f).replace g = t.replace fun name => some (((param name).replace f).replace g) := by
  induction t using partInduction with
  | step t ih =>
    obtain ⟨name, rfl⟩ | other := param_or_other t
    · exact (replace_param (fun own => some (((param own).replace f).replace g)) name).symm
    · rw [replace_eq_mapParts other, replace_eq_mapParts other,
        replace_eq_mapParts (mapParts_ne_param other), mapParts_mapParts, mapParts_eq_mapParts_iff]
      exact ih

/-! ### Substitution -/

/-- Any substitution replaces type parameters, if only none at all. -/
theorem exists_substitute_eq_replace (params : List String) (args : List TypeRef) :
    ∃ assign, ∀ t : TypeRef, t.substitute params args = t.replace assign := by
  by_cases same : params.length = args.length
  · exact ⟨_, substitute_eq_replace same⟩
  · exact ⟨fun _ => none, fun t => by rw [substitute, if_neg same, replace_none]⟩

theorem substitute_self (t : TypeRef) (params : List String) :
    t.substitute params (params.map .param) = t := by
  have same : params.length = (params.map param).length := (List.length_map param).symm
  have each (name : String) : (params.map param)[params.idxOf name]?.getD (.param name) =
      .param name := by
    rw [List.getElem?_map]
    by_cases own : name ∈ params
    · rw [List.getElem?_idxOf own, Option.map_some, Option.getD_some]
    · have absent : params.length ≤ params.idxOf name :=
        Nat.le_of_not_lt fun known => own (List.idxOf_lt_length_iff.mp known)
      rw [List.getElem?_eq_none absent, Option.map_none, Option.getD_none]
  calc t.substitute params (params.map .param)
    _ = t.replace fun name => (params.zip (params.map param)).lookup name :=
      substitute_eq_replace same t
    _ = t.replace fun _ => none := replace_eq_replace_iff.mpr fun name _ => by
      rw [replace_param, replace_param, lookup_zip same, each, Option.getD_none]
    _ = t := replace_none t

theorem substitute_substitute {params : List String} {args : List TypeRef}
    (same : params.length = args.length)
    (all : ∀ name, (param name).Inside t → name ∈ params) (params' : List String)
    (args' : List TypeRef) :
    (t.substitute params args).substitute params' args' =
      t.substitute params (args.map fun a => a.substitute params' args') := by
  obtain ⟨assign, replaces⟩ := exists_substitute_eq_replace params' args'
  have same' : params.length = (args.map fun a => a.substitute params' args').length := by
    rw [List.length_map, same]
  rw [replaces, substitute_eq_replace same, substitute_eq_replace same', replace_replace,
    replace_eq_replace_iff]
  intro name inside
  -- The type parameter has a type argument in its place, in both lists.
  have known : params.idxOf name < args.length :=
    same ▸ List.idxOf_lt_length_of_mem (all name inside)
  rw [replace_param, replace_param, replace_param, lookup_zip same, lookup_zip same',
    List.getElem?_map, List.getElem?_eq_getElem known]
  exact (replaces _).symm

/-- Substitution replaces all type parameters at once. Replacing them by themselves changes nothing.
At the places of a type parameter that is to be replaced stands the type argument for it, the first
one for a name that is listed more than once, and everywhere else what stood there before. The type
parameters of a result are those that were not to be replaced, in their old places, and those inside
of the type arguments put in. Where all type parameters are replaced, a further substitution is one
in the type arguments. -/
theorem substitute_simultaneous (t : TypeRef) (params : List String) :
    t.substitute params (params.map .param) = t ∧
      ∀ args : List TypeRef, params.length = args.length →
        (∀ place v, (t.substitute params args).partAt? place = some v ↔
          (∃ u, t.partAt? place = some u ∧ (∀ name, u = .param name → name ∉ params) ∧
              u.substitute params args = v) ∨
            ∃ outer inner replaced a, place = outer ++ inner ∧
              t.partAt? outer = some (.param replaced) ∧
              args[params.idxOf replaced]? = some a ∧ a.partAt? inner = some v) ∧
        (∀ place name, (t.substitute params args).partAt? place = some (.param name) ↔
          name ∉ params ∧ t.partAt? place = some (.param name) ∨
            ∃ outer inner replaced a, place = outer ++ inner ∧
              t.partAt? outer = some (.param replaced) ∧
              args[params.idxOf replaced]? = some a ∧ a.partAt? inner = some (.param name)) ∧
        ((∀ place name, t.partAt? place = some (.param name) → name ∈ params) →
          ∀ (params' : List String) (args' : List TypeRef),
            (t.substitute params args).substitute params' args' =
              t.substitute params (args.map fun a => a.substitute params' args')) := by
  refine ⟨substitute_self t params, fun args same => ?_⟩
  have kept (name : String) : args[params.idxOf name]? = none ↔ name ∉ params := by
    rw [List.getElem?_eq_none_iff, ← same, ← List.idxOf_lt_length_iff, Nat.not_lt]
  refine ⟨?_, ?_, ?_⟩
  · intro place v
    simp only [substitute_eq_replace same, partAt?_replace_iff, lookup_zip same, kept]
  · intro place name
    simp only [substitute_eq_replace same, partAt?_replace_param_iff, lookup_zip same, kept]
  · intro all params' args'
    refine substitute_substitute same (fun name inside => ?_) params' args'
    obtain ⟨place, there⟩ := inside.exists_place
    exact all place name there

end TypeRef

/-- `Pair<T, U?>` with `T` and `U` swapped; `T` is listed once more, and the array of `U` is what is
put in for it. -/
theorem swappedParameters_substituted :
    let t : TypeRef := .external "Pair" [.param "T", .nullable (.param "U")]
    let params := ["T", "U", "T"]
    let args : List TypeRef := [.array (.param "U") 1, .param "T", .dynamic]
    params.length = args.length ∧
      (∀ place name, t.partAt? place = some (.param name) → name ∈ params) ∧
      t.substitute params args =
        .external "Pair" [.array (.param "U") 1, .nullable (.param "T")] ∧
      (t.substitute params args).partAt? [0] = some (.array (.param "U") 1) ∧
      (t.substitute params args).partAt? [0, 0] = some (.param "U") ∧
      (t.substitute params args).substitute ["U"] [.dynamic] =
        .external "Pair" [.array .dynamic 1, .nullable (.param "T")] := by
  intro t params args
  have all : ∀ place name, t.partAt? place = some (.param name) → name ∈ params := by
    -- A place is that of the reference, of one of its parts, or of the part of the second one.
    rintro (_ | ⟨_ | _ | i, _ | ⟨_ | j, _ | ⟨k, place⟩⟩⟩) name there
    all_goals simp only [t, TypeRef.partAt?, TypeRef.parts, List.getElem?_cons_zero,
      List.getElem?_cons_succ, List.getElem?_nil, Option.bind_some, Option.bind_none,
      Option.some.injEq, TypeRef.param.injEq, reduceCtorEq] at there
    all_goals
      subst there
      decide
  obtain ⟨stands, remaining, composes⟩ := (TypeRef.substitute_simultaneous t params).2 args rfl
  have whole : (t.substitute params args).partAt? [0] = some (.array (.param "U") 1) :=
    (stands [0] _).mpr (.inr ⟨[0], [], "T", .array (.param "U") 1, rfl, rfl, rfl, rfl⟩)
  have inside : (t.substitute params args).partAt? [0, 0] = some (.param "U") :=
    (remaining [0, 0] "U").mpr (.inr ⟨[0], [0], "T", .array (.param "U") 1, rfl, rfl, rfl, rfl⟩)
  have swapped : t.substitute params args =
      .external "Pair" [.array (.param "U") 1, .nullable (.param "T")] := by decide +kernel
  have composed : t.substitute params (args.map fun a => a.substitute ["U"] [.dynamic]) =
      .external "Pair" [.array .dynamic 1, .nullable (.param "T")] := by decide +kernel
  exact ⟨rfl, all, swapped, whole, inside, (composes all ["U"] [.dynamic]).trans composed⟩

end ClassAtlas
