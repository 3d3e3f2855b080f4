import ClassAtlas.Proofs.Symbols.Declarations
import ClassAtlas.Symbols.Table
import Mathlib.Data.List.Nodup

/-!
# Merging declarations

What the symbol table is in terms of the declarations of a file. Every key of a declaration has one
type, whose declarations are those with this key in document order. The type around a type has been
declared before it, so paths can be read off the table from the outside in.
-/
namespace ClassAtlas

/-! ### Surrounding types come first -/

/-- Declarations such that the types around each of them are known or come before it. -/
inductive OuterFirst : List TypeKey → List TypeDeclaration → Prop
  | nil (known : List TypeKey) : OuterFirst known []
  | cons {known : List TypeKey} {d : TypeDeclaration} {rest : List TypeDeclaration} :
      d.IsPlaced → (∀ container, d.container? = some container → container ∈ known) →
      OuterFirst (d.key :: known) rest → OuterFirst known (d :: rest)

namespace OuterFirst

theorem mono {known more : List TypeKey} {ds : List TypeDeclaration} (first : OuterFirst known ds)
    (within : known ⊆ more) : OuterFirst more ds := by
  induction first generalizing more with
  | nil => exact .nil more
  | cons placed outer _ ih =>
    refine .cons placed (fun container around => within (outer container around)) ?_
    exact ih (List.cons_subset_cons _ within)

theorem append {known : List TypeKey} {left right : List TypeDeclaration}
    (first : OuterFirst known left) (later : OuterFirst known right) :
    OuterFirst known (left ++ right) := by
  induction first with
  | nil => exact later
  | cons placed outer _ ih =>
    exact .cons placed outer (ih (later.mono (List.subset_cons_self _ _)))

theorem placed {known : List TypeKey} {ds : List TypeDeclaration} (first : OuterFirst known ds) :
    ∀ d ∈ ds, d.IsPlaced := by
  induction first with
  | nil => exact fun _ member => absurd member List.not_mem_nil
  | cons placed _ _ ih => exact List.forall_mem_cons.mpr ⟨placed, ih⟩

end OuterFirst

/-- The outline of nodes in a known type mentions types only after those around them. -/
theorem Node.Outlined.outerFirst {space? : Option String} {container? : Option TypeKey}
    {pending : List Node} {ds : List TypeDeclaration}
    (outlined : Outlined space? container? pending ds) {known : List TypeKey}
    (around : ∀ container, container? = some container → container ∈ known) :
    OuterFirst known ds := by
  induction outlined generalizing known with
  | nil => exact .nil known
  | skip _ _ ih => exact ih around
  | space _ _ _ _ inner later | fileSpace _ _ _ _ inner later =>
    exact (inner nofun).append (later around)
  | type _ found _ _ inner later =>
    obtain ⟨-, -, within, placed, -⟩ := typeDeclaration?_eq_some found
    refine .cons placed (fun container own => around container (within ▸ own)) ?_
    -- The members know this type as well, and so may everything after it.
    refine (inner ?_).append ((later around).mono (List.subset_cons_self _ _))
    intro container own
    cases own
    exact List.mem_cons_self
  | part _ _ _ inner later => exact (inner around).append (later around)

theorem Node.declarations_outerFirst (root : Node) : OuterFirst [] root.declarations :=
  root.declarations_outlined.outerFirst nofun

/-! ### Adding a declaration -/

namespace SymbolTable

/-- What a declaration does to the types, with a search through them in place of the index. -/
def declare (types : List TypeSymbol) (d : TypeDeclaration) : List TypeSymbol :=
  match idOf? types d.key with
  | some id => types.modify id fun s => s.addPart d.node
  | none => types ++ [TypeSymbol.ofDeclaration (d.container?.bind (idOf? types)) d]

theorem types_declare (index : TypeIndex) (d : TypeDeclaration) :
    (index.declare d).types = declare index.types d := by
  have search : (index.byKey.lookup ·) = idOf? index.types := funext index.byKey_lookup
  unfold TypeIndex.declare declare
  split
  · next found =>
    rw [index.byKey_lookup] at found
    rw [found]
    rfl
  · next absent =>
    rw [index.byKey_lookup] at absent
    simp only [absent, search, TypeIndex.addType]

theorem types_foldl_declare (index : TypeIndex) (ds : List TypeDeclaration) :
    (ds.foldl TypeIndex.declare index).types = ds.foldl declare index.types := by
  induction ds generalizing index with
  | nil => rfl
  | cons d ds ih => rw [List.foldl_cons, ih, types_declare, List.foldl_cons]

theorem types_ofRoot (root : Node) : (ofRoot root).types = root.declarations.foldl declare [] :=
  types_foldl_declare .empty root.declarations

variable {types : List TypeSymbol}

theorem idOf?_eq_none_iff {key : TypeKey} :
    idOf? types key = none ↔ key ∉ types.map TypeSymbol.key := by
  simp [idOf?, List.findIdx?_eq_none_iff]

theorem idOf?_eq_some {key : TypeKey} {id : TypeId} (found : idOf? types key = some id) :
    ∃ s, types[id]? = some s ∧ s.key = key := by
  obtain ⟨known, same, _⟩ := List.findIdx?_eq_some_iff_getElem.mp found
  exact ⟨types[id], List.getElem?_eq_getElem known, eq_of_beq same⟩

theorem lookup?_eq_none_iff {table : SymbolTable} {path : String} {arity : Nat} :
    table.lookup? path arity = none ↔ ⟨path, arity⟩ ∉ table.types.map TypeSymbol.key := by
  rw [lookup?_eq_idOf?, idOf?_eq_none_iff]

theorem lookup?_eq_some {table : SymbolTable} {path : String} {arity : Nat} {id : TypeId}
    (found : table.lookup? path arity = some id) :
    ∃ s, table.get? id = some s ∧ s.key = ⟨path, arity⟩ :=
  idOf?_eq_some (table.lookup?_eq_idOf? path arity ▸ found)

theorem idOf?_key (different : (types.map TypeSymbol.key).Nodup) {id : TypeId} {s : TypeSymbol}
    (there : types[id]? = some s) : idOf? types s.key = some id := by
  cases found : idOf? types s.key with
  | none =>
    have absent := idOf?_eq_none_iff.mp found
    exact absurd (List.mem_map_of_mem (List.mem_of_getElem? there)) absent
  | some other =>
    obtain ⟨s', there', same⟩ := idOf?_eq_some found
    have same' : (types.map TypeSymbol.key)[other]? = (types.map TypeSymbol.key)[id]? := by
      rw [List.getElem?_map, List.getElem?_map, there, there', Option.map_some, Option.map_some,
        same]
    have known : other < (types.map TypeSymbol.key).length := by
      rw [List.length_map]
      exact (List.getElem?_eq_some_iff.mp there').1
    rw [(List.getElem?_inj known different).mp same']

/-- A declaration becomes a further part of the type with its key, or else a new type. -/
theorem declare_cases (types : List TypeSymbol) (d : TypeDeclaration) :
    (∃ id s, types[id]? = some s ∧ s.key = d.key ∧
        declare types d = types.set id (s.addPart d.node)) ∨
      (d.key ∉ types.map TypeSymbol.key ∧
        declare types d = types ++ [.ofDeclaration (d.container?.bind (idOf? types)) d]) := by
  unfold declare
  cases found : idOf? types d.key with
  | none => exact .inr ⟨idOf?_eq_none_iff.mp found, rfl⟩
  | some id =>
    obtain ⟨s, there, same⟩ := idOf?_eq_some found
    refine .inl ⟨id, s, there, same, ?_⟩
    dsimp only
    -- Changing a type in place is putting the changed type in its place.
    rw [List.modify_eq_set_getElem?, there]
    rfl

/-- The type at a position continues the path of the type around it, which has a smaller position,
or else that of its namespace. -/
def IsPlaced (types : List TypeSymbol) (id : TypeId) (s : TypeSymbol) : Prop :=
  match s.container? with
  | some outer => outer < id ∧ ∃ o, types[outer]? = some o ∧ s.path = dotted o.path s.name
  | none => s.path = qualified s.space? s.name

/-- The types are those of the declarations. -/
structure Merges (types : List TypeSymbol) (ds : List TypeDeclaration) : Prop where
  different : (types.map TypeSymbol.key).Nodup
  keys : ∀ key, key ∈ types.map TypeSymbol.key ↔ key ∈ ds.map TypeDeclaration.key
  parts : ∀ {id : TypeId} {s : TypeSymbol}, types[id]? = some s →
    s.declarations = (ds.filter fun d => d.key == s.key).map TypeDeclaration.node
  placed : ∀ {id : TypeId} {s : TypeSymbol}, types[id]? = some s → IsPlaced types id s

theorem isPlaced_of_some {id outer : TypeId} {s o : TypeSymbol} (around : s.container? = some outer)
    (earlier : outer < id) (there : types[outer]? = some o)
    (path : s.path = dotted o.path s.name) : IsPlaced types id s := by
  unfold IsPlaced
  rw [around]
  exact ⟨earlier, o, there, path⟩

theorem IsPlaced.of_paths {types' : List TypeSymbol} {id : TypeId} {s : TypeSymbol}
    (placed : IsPlaced types id s)
    (paths : ∀ {id : TypeId} {o : TypeSymbol}, types[id]? = some o →
      ∃ o', types'[id]? = some o' ∧ o'.path = o.path) : IsPlaced types' id s := by
  unfold IsPlaced at placed ⊢
  cases around : s.container? with
  | none => simpa only [around] using placed
  | some outer =>
    simp only [around] at placed ⊢
    obtain ⟨earlier, o, there, path⟩ := placed
    obtain ⟨o', there', same⟩ := paths there
    exact ⟨earlier, o', there', same ▸ path⟩

theorem map_set_of_same {α : Type} {f : TypeSymbol → α} {id : TypeId} {s s' : TypeSymbol}
    (there : types[id]? = some s) (same : f s' = f s) :
    (types.set id s').map f = types.map f := by
  have known : id < types.length := (List.getElem?_eq_some_iff.mp there).1
  rw [List.map_set]
  refine List.ext_getElem? fun other => ?_
  by_cases here : id = other
  · subst here
    rw [List.getElem?_set_self (by simpa using known), List.getElem?_map, there, Option.map_some,
      same]
  · rw [List.getElem?_set_ne here]

theorem Merges.addPart {ds : List TypeDeclaration} (merges : Merges types ds) {id : TypeId}
    {s : TypeSymbol} (there : types[id]? = some s) {d : TypeDeclaration} (same : s.key = d.key) :
    Merges (types.set id (s.addPart d.node)) (ds ++ [d]) := by
  have known : id < types.length := (List.getElem?_eq_some_iff.mp there).1
  -- A further part changes neither the key of a type nor its path.
  have keys : (types.set id (s.addPart d.node)).map TypeSymbol.key = types.map TypeSymbol.key :=
    map_set_of_same there rfl
  have paths {other : TypeId} {o : TypeSymbol} (found : types[other]? = some o) :
      ∃ o', (types.set id (s.addPart d.node))[other]? = some o' ∧ o'.path = o.path := by
    by_cases here : id = other
    · subst here
      cases there.symm.trans found
      exact ⟨s.addPart d.node, List.getElem?_set_self known, rfl⟩
    · exact ⟨o, by rw [List.getElem?_set_ne here, found], rfl⟩
  constructor
  · rw [keys]
    exact merges.different
  · intro key
    have old : d.key ∈ ds.map TypeDeclaration.key :=
      (merges.keys d.key).mp (same ▸ List.mem_map_of_mem (List.mem_of_getElem? there))
    rw [keys, merges.keys key, List.map_append, List.mem_append]
    constructor
    · exact .inl
    · rintro (before | last)
      · exact before
      · rw [List.mem_map] at last
        obtain ⟨_, here, rfl⟩ := last
        rw [List.mem_singleton.mp here]
        exact old
  · intro other s' found
    rw [List.filter_append, List.map_append]
    by_cases here : id = other
    · subst here
      rw [List.getElem?_set_self known, Option.some.injEq] at found
      have before := merges.parts there
      subst found
      have further : (s.addPart d.node).key = d.key := same
      rw [further, ← same, ← before]
      simp [TypeSymbol.declarations, TypeSymbol.addPart, same]
    -- Another type has another key, so the declaration is none of its parts.
    · rw [List.getElem?_set_ne here] at found
      have apart : d.key ≠ s'.key := by
        intro equal
        have first := idOf?_key merges.different there
        have second := idOf?_key merges.different found
        rw [← equal, ← same, first] at second
        exact here (Option.some.inj second)
      simp [merges.parts found, apart]
  · intro other s' found
    by_cases here : id = other
    · subst here
      rw [List.getElem?_set_self known, Option.some.injEq] at found
      have before := (merges.placed there).of_paths paths
      subst found
      exact before
    · rw [List.getElem?_set_ne here] at found
      exact (merges.placed found).of_paths paths

theorem getElem?_concat {new s : TypeSymbol} {id : TypeId}
    (found : (types ++ [new])[id]? = some s) :
    types[id]? = some s ∨ id = types.length ∧ s = new := by
  by_cases known : id < types.length
  · rw [List.getElem?_append_left known] at found
    exact .inl found
  · rw [List.getElem?_append_right (Nat.le_of_not_lt known), List.getElem?_singleton] at found
    split at found
    · next last =>
      cases found
      exact .inr ⟨Nat.le_antisymm (Nat.sub_eq_zero_iff_le.mp last) (Nat.le_of_not_lt known), rfl⟩
    · cases found

theorem Merges.addType {ds : List TypeDeclaration} (merges : Merges types ds)
    {d : TypeDeclaration} (new : d.key ∉ types.map TypeSymbol.key) (placed : d.IsPlaced)
    (outer : ∀ container, d.container? = some container → container ∈ ds.map TypeDeclaration.key) :
    Merges (types ++ [.ofDeclaration (d.container?.bind (idOf? types)) d]) (ds ++ [d]) := by
  have paths {other : TypeId} {o : TypeSymbol} (found : types[other]? = some o) :
      ∃ o', (types ++ [TypeSymbol.ofDeclaration (d.container?.bind (idOf? types)) d])[other]? =
        some o' ∧
        o'.path = o.path := by
    have known : other < types.length := (List.getElem?_eq_some_iff.mp found).1
    exact ⟨o, by rw [List.getElem?_append_left known, found], rfl⟩
  have keys : (types ++ [TypeSymbol.ofDeclaration (d.container?.bind (idOf? types)) d]).map
      TypeSymbol.key = types.map TypeSymbol.key ++ [d.key] := List.map_append
  have unused : d.key ∉ ds.map TypeDeclaration.key := fun used => new ((merges.keys _).mpr used)
  constructor
  · rw [keys]
    exact List.nodup_append.mpr ⟨merges.different, List.nodup_singleton _, by simpa using new⟩
  · intro key
    rw [keys, List.map_append, List.mem_append, List.mem_append, merges.keys key]
    rfl
  · intro id s found
    rw [List.filter_append, List.map_append]
    obtain old | ⟨-, rfl⟩ := getElem?_concat found
    · have apart : d.key ≠ s.key := fun equal =>
        new (equal ▸ List.mem_map_of_mem (List.mem_of_getElem? old))
      simp [merges.parts old, apart]
    -- The key is new, so no declaration so far has it.
    · have none_before : (ds.filter fun e => e.key == d.key) = [] := by
        rw [List.filter_eq_nil_iff]
        intro e member same
        exact unused (eq_of_beq same ▸ List.mem_map_of_mem member)
      have single :
          (TypeSymbol.ofDeclaration (d.container?.bind (idOf? types)) d).key = d.key := rfl
      rw [single, none_before]
      simp [TypeSymbol.declarations, TypeSymbol.ofDeclaration]
  · intro id s found
    obtain old | ⟨rfl, rfl⟩ := getElem?_concat found
    · exact (merges.placed old).of_paths paths
    · unfold TypeDeclaration.IsPlaced at placed
      obtain around | ⟨container, around⟩ := Option.eq_none_or_eq_some d.container?
      · simpa [IsPlaced, TypeSymbol.ofDeclaration, around] using placed
      -- The type around has been declared before and so is found at an earlier position.
      · have declared := (merges.keys container).mpr (outer container around)
        obtain absent | ⟨position, found⟩ := Option.eq_none_or_eq_some (idOf? types container)
        · exact absurd declared (idOf?_eq_none_iff.mp absent)
        · obtain ⟨o, there, same⟩ := idOf?_eq_some found
          obtain ⟨o', there', path⟩ := paths there
          have earlier : position < types.length := (List.getElem?_eq_some_iff.mp there).1
          have within : d.container?.bind (idOf? types) = some position := by
            rw [around]
            exact found
          have continued : d.path = dotted o'.path d.name := by
            rw [path, placed, around, ← same]
            rfl
          exact isPlaced_of_some within earlier there' continued

theorem Merges.declare {ds : List TypeDeclaration} (merges : Merges types ds)
    {d : TypeDeclaration} (placed : d.IsPlaced)
    (outer : ∀ container, d.container? = some container → container ∈ ds.map TypeDeclaration.key) :
    Merges (declare types d) (ds ++ [d]) := by
  obtain ⟨id, s, there, same, step⟩ | ⟨new, step⟩ := declare_cases types d
  · rw [step]
    exact merges.addPart there same
  · rw [step]
    exact merges.addType new placed outer

theorem Merges.foldl {done todo : List TypeDeclaration} (merges : Merges types done)
    (first : OuterFirst (done.map TypeDeclaration.key) todo) :
    Merges (todo.foldl SymbolTable.declare types) (done ++ todo) := by
  -- The declarations done so far are those whose types are in the table.
  induction todo generalizing types done with
  | nil => simpa using merges
  | cons d rest ih =>
    cases first with
    | cons placed outer later =>
      rw [List.foldl_cons, List.append_cons]
      refine ih (merges.declare placed outer) (later.mono ?_)
      simp

theorem merges_ofRoot (root : Node) : Merges (ofRoot root).types root.declarations := by
  have empty : Merges [] [] := ⟨List.nodup_nil, by simp, by simp, by simp⟩
  rw [types_ofRoot]
  exact List.nil_append root.declarations ▸ empty.foldl root.declarations_outerFirst

end SymbolTable

end ClassAtlas
