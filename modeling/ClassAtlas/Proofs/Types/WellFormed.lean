import ClassAtlas.Model.Expression
import ClassAtlas.Proofs.Symbols.Merging
import ClassAtlas.Proofs.Types.Inside

/-!
# Well-formed type references

A reference is well formed if all that occurs in it fits: a source type is in the table and has as
many type arguments as it has type parameters, a core type is found again under its own name with
its type arguments, and an array has a dimension.
-/
namespace ClassAtlas

namespace CoreType

theorem lookup?_again {space name : String} {arity : Nat} {type : CoreType}
    (found : lookup? space name arity = some type) :
    lookup? type.space type.name arity = some type := by
  obtain ⟨⟨full, entry⟩, first, made⟩ := Option.map_eq_some_iff.mp found
  -- The name that was looked up is the full name of the type.
  have same : full = dotted space name := by
    have fits := List.find?_some first
    exact eq_of_beq (Bool.and_eq_true_iff.mp fits).1
  obtain ⟨entry', -, named⟩ := List.mem_map.mp (List.mem_of_find?_eq_some first)
  cases named
  have full : dotted type.space type.name = dotted space name := by
    rw [← made]
    exact same
  rwa [lookup?, full]

theorem lookup?_of_predefined? {keyword : String} {type : CoreType}
    (found : predefined? keyword = some type) : lookup? type.space type.name 0 = some type := by
  have listed : ∀ entry ∈ keywords,
      lookup? "System" entry.2 0 = some ⟨"System", entry.2, some entry.1⟩ := by decide +kernel
  obtain ⟨entry, first, rfl⟩ := Option.map_eq_some_iff.mp found
  exact listed entry (List.mem_of_find?_eq_some first)

end CoreType

namespace TypeRef

/-- The reference fits the table, whatever its parts are. -/
def Fits (table : SymbolTable) : TypeRef → Prop
  | declared id args => ∃ s, table.get? id = some s ∧ args.length = s.arity
  | core type args => CoreType.lookup? type.space type.name args.length = some type
  | array _ rank => 1 ≤ rank
  | external .. | param _ | nullable _ | tuple _ | pointer _ | dynamic => True

/-- Everything in the reference fits the table. -/
def WellFormed (table : SymbolTable) (t : TypeRef) : Prop := t.Everywhere (Fits table)

variable {table : SymbolTable}

theorem wellFormed_iff {t : TypeRef} :
    t.WellFormed table ↔ t.Fits table ∧ ∀ p ∈ t.parts, p.WellFormed table :=
  everywhere_iff

theorem WellFormed.parts {t p : TypeRef} (wf : t.WellFormed table) (part : p ∈ t.parts) :
    p.WellFormed table :=
  (wellFormed_iff.mp wf).2 p part

theorem WellFormed.inside {t u : TypeRef} (wf : t.WellFormed table) (inside : u.Inside t) :
    u.WellFormed table := by
  induction inside with
  | whole => exact wf
  | part member _ ih => exact ih (wf.parts member)

theorem WellFormed.declared {t : TypeRef} {id : TypeId} {args : List TypeRef}
    (wf : t.WellFormed table) (inside : (TypeRef.declared id args).Inside t) :
    ∃ s, table.get? id = some s ∧ args.length = s.arity :=
  wf _ inside

theorem WellFormed.known {t : TypeRef} {id : TypeId} {args : List TypeRef}
    (wf : t.WellFormed table) (inside : (TypeRef.declared id args).Inside t) : id < table.size := by
  obtain ⟨s, there, -⟩ := wf.declared inside
  exact (List.getElem?_eq_some_iff.mp there).1

theorem WellFormed.source {t : TypeRef} {id : TypeId} (wf : t.WellFormed table)
    (source : t.inSource? table = some id) : id < table.size := by
  unfold inSource? at source
  split at source
  · cases source
    exact wf.known .whole
  next inner _ =>
    split at source
    · cases source
      exact wf.known (.part List.mem_cons_self .whole)
    · cases source
  · cases source

theorem wellFormed_external {name : String} {args : List TypeRef}
    (each : ∀ a ∈ args, a.WellFormed table) : (external name args).WellFormed table :=
  wellFormed_iff.mpr ⟨trivial, each⟩

theorem wellFormed_written (name : String) : (written name).WellFormed table :=
  wellFormed_external nofun

theorem wellFormed_param (name : String) : (param name).WellFormed table :=
  wellFormed_iff.mpr ⟨trivial, nofun⟩

theorem wellFormed_nullable {inner : TypeRef} (wf : inner.WellFormed table) :
    (nullable inner).WellFormed table :=
  wellFormed_iff.mpr ⟨trivial, List.forall_mem_singleton.mpr wf⟩

theorem wellFormed_pointer {target : TypeRef} (wf : target.WellFormed table) :
    (pointer target).WellFormed table :=
  wellFormed_iff.mpr ⟨trivial, List.forall_mem_singleton.mpr wf⟩

theorem wellFormed_array {element : TypeRef} {rank : Nat} (wf : element.WellFormed table)
    (dimension : 1 ≤ rank) : (array element rank).WellFormed table :=
  wellFormed_iff.mpr ⟨dimension, List.forall_mem_singleton.mpr wf⟩

theorem wellFormed_tuple {elements : List TupleElement}
    (each : ∀ e ∈ elements, e.type.WellFormed table) : (tuple elements).WellFormed table :=
  wellFormed_iff.mpr ⟨trivial, List.forall_mem_map.mpr each⟩

/-! ### Names that are found -/

theorem wellFormed_of_lookup? {path : String} {id : TypeId} {args : List TypeRef}
    (found : table.lookup? path args.length = some id) (each : ∀ a ∈ args, a.WellFormed table) :
    (TypeRef.declared id args).WellFormed table := by
  obtain ⟨s, there, same⟩ := SymbolTable.lookup?_eq_some found
  have arity : s.arity = args.length := congrArg TypeKey.arity same
  exact wellFormed_iff.mpr ⟨⟨s, there, arity.symm⟩, each⟩

theorem wellFormed_of_nested? {container id : TypeId} {name : String} {args : List TypeRef}
    (found : table.nested? container name args.length = some id)
    (each : ∀ a ∈ args, a.WellFormed table) : (TypeRef.declared id args).WellFormed table := by
  obtain ⟨s, -, found⟩ := Option.bind_eq_some_iff.mp found
  exact wellFormed_of_lookup? found each

theorem wellFormed_core {space name : String} {type : CoreType} {args : List TypeRef}
    (found : CoreType.lookup? space name args.length = some type)
    (each : ∀ a ∈ args, a.WellFormed table) : (core type args).WellFormed table :=
  wellFormed_iff.mpr ⟨CoreType.lookup?_again found, each⟩

theorem wellFormed_predefined {keyword : String} {t : TypeRef}
    (found : predefined? keyword = some t) : t.WellFormed table := by
  obtain ⟨type, known, rfl⟩ := Option.map_eq_some_iff.mp found
  exact wellFormed_core (CoreType.lookup?_of_predefined? known) nofun

theorem wellFormed_ofCore {path : String} {type : CoreType}
    (found : CoreType.lookupQualified? path 0 = some type) : (ofCore type).WellFormed table := by
  obtain ⟨parts, -, found⟩ := Option.bind_eq_some_iff.mp found
  exact wellFormed_core found nofun

/-! ### Parts and type arguments -/

theorem WellFormed.typeArguments {t : TypeRef} (wf : t.WellFormed table) :
    ∀ a ∈ t.typeArguments, a.WellFormed table := by
  intro a member
  cases t with
  | declared | core | external => exact wf.parts member
  | param | nullable | array | tuple | pointer | dynamic => exact absurd member List.not_mem_nil

theorem WellFormed.awaited {t inner : TypeRef} (wf : t.WellFormed table)
    (found : t.awaited? = some inner) : inner.WellFormed table := by
  unfold awaited? at found
  split at found
  next single =>
    split at found
    · cases found
      exact wf.typeArguments inner (single ▸ List.mem_cons_self)
    · cases found
  next => cases found

theorem WellFormed.element {t element : TypeRef} (wf : t.WellFormed table)
    (found : t.element? = some element) : element.WellFormed table := by
  unfold element? at found
  split at found
  · cases found
    exact wf.parts List.mem_cons_self
  · split at found
    · exact wellFormed_predefined found
    -- The elements of a dictionary are pairs, those of another collection its only argument.
    · split at found
      next single =>
        cases found
        exact wf.typeArguments element (single ▸ List.mem_cons_self)
      next pair =>
        split at found
        · obtain ⟨type, known, rfl⟩ := Option.map_eq_some_iff.mp found
          exact wellFormed_core known (pair ▸ wf.typeArguments)
        · cases found
      next => cases found

theorem WellFormed.indexed {t element : TypeRef} (wf : t.WellFormed table)
    (found : t.indexed? = some element) : element.WellFormed table := by
  unfold indexed? at found
  split at found
  · cases found
    exact wf.parts List.mem_cons_self
  · split at found
    next single =>
      cases found
      exact wf.typeArguments element (single ▸ List.mem_cons_self)
    next pair =>
      split at found
      · cases found
        exact wf.typeArguments element (pair ▸ List.mem_cons_of_mem _ List.mem_cons_self)
      · cases found
    next => cases found

/-! ### Substitution -/

theorem Fits.replace {assign : String → Option TypeRef} {t : TypeRef} (fits : t.Fits table)
    (other : ∀ name, t ≠ .param name) : (t.replace assign).Fits table := by
  cases t with
  | param name => exact absurd rfl (other name)
  | declared | core | array => simpa [Fits, TypeRef.replace, replaceAll_eq_map] using fits
  | external | nullable | tuple | pointer | dynamic => simp [Fits, TypeRef.replace]

theorem WellFormed.substitute {t : TypeRef} (wf : t.WellFormed table) (params : List String)
    {args : List TypeRef} (each : ∀ a ∈ args, a.WellFormed table) :
    (t.substitute params args).WellFormed table := by
  unfold TypeRef.substitute
  split
  · apply Everywhere.replace wf
    · exact fun u other fits => fits.replace other
    · exact fun name a found => each a (mem_of_lookup_zip found)
  · exact wf

/-- A type parameter gets the type argument in its first place. -/
theorem lookup_zip {params : List String} {args : List TypeRef}
    (same : params.length = args.length) (name : String) :
    (params.zip args).lookup name = args[params.idxOf name]? := by
  induction params generalizing args with
  | nil =>
    cases args with
    | nil => rfl
    | cons a rest => cases same
  | cons p params ih =>
    cases args with
    | nil => cases same
    | cons a rest =>
      rw [List.zip_cons_cons, List.lookup_cons, List.idxOf_cons]
      by_cases own : p = name
      · simp [own]
      · have other : (name == p) = false := beq_false_of_ne (Ne.symm own)
        have other' : (p == name) = false := beq_false_of_ne own
        simp only [other, other', cond_false, List.getElem?_cons_succ]
        exact ih (Nat.succ.inj same)

theorem exists_lookup_zip {params : List String} {args : List TypeRef}
    (same : params.length = args.length) {name : String} (own : name ∈ params) :
    ∃ a ∈ args, (params.zip args).lookup name = some a := by
  have known : params.idxOf name < args.length := same ▸ List.idxOf_lt_length_of_mem own
  refine ⟨args[params.idxOf name], List.getElem_mem known, ?_⟩
  rw [lookup_zip same, List.getElem?_eq_getElem known]

theorem substitute_eq_replace {params : List String} {args : List TypeRef}
    (same : params.length = args.length) (t : TypeRef) :
    t.substitute params args = t.replace fun name => (params.zip args).lookup name :=
  if_pos same

theorem substitute_param_mem {params : List String} {args : List TypeRef}
    (same : params.length = args.length) {name : String} (own : name ∈ params) :
    (param name).substitute params args ∈ args := by
  obtain ⟨a, member, found⟩ := exists_lookup_zip same own
  rwa [substitute_eq_replace same, replace_param, found, Option.getD_some]

end TypeRef

end ClassAtlas
