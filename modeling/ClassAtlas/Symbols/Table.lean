import ClassAtlas.Lookup
import ClassAtlas.Symbols.Outline

/-!
# Symbol table

The types that a file declares, in the order of their first declarations, with partial declarations
merged: a declaration whose key is already in the table becomes a further part of that type. A type
is known by its position, so the type around another one has the smaller position. Types are found
by two indexes, which agree with the types at every step.
-/
namespace ClassAtlas

/-- The position of a type in the table. -/
abbrev TypeId := Nat

/-- A type declared in the source. What its declarations may disagree on is taken from the first. -/
structure TypeSymbol where
  name : String
  typeParameters : List String
  space? : Option String
  container? : Option TypeId
  kind : TypeKind
  isStatic : Bool
  isAbstract : Bool
  path : String
  /-- The first declaration. -/
  primary : Node
  /-- The further declarations in source order. -/
  others : List Node
  deriving Repr

namespace TypeSymbol

def arity (s : TypeSymbol) : Nat := s.typeParameters.length

def key (s : TypeSymbol) : TypeKey := ⟨s.path, s.arity⟩

/-- Every declaration of the type in source order. -/
def declarations (s : TypeSymbol) : List Node := s.primary :: s.others

/-- The name with the declared type parameters, such as `Box<T>`. -/
def ownName (s : TypeSymbol) : String :=
  if s.typeParameters.isEmpty then s.name
  else s.name ++ "<" ++ String.intercalate ", " s.typeParameters ++ ">"

/-- The type after its first declaration. -/
def ofDeclaration (container? : Option TypeId) (d : TypeDeclaration) : TypeSymbol :=
  { name := d.name
    typeParameters := d.typeParameters
    space? := d.space?
    container? := container?
    kind := d.kind
    isStatic := d.node.hasModifier "static"
    isAbstract := d.node.hasModifier "abstract"
    path := d.path
    primary := d.node
    others := [] }

/-- The type with one more declaration. -/
def addPart (s : TypeSymbol) (part : Node) : TypeSymbol :=
  { s with
    isStatic := s.isStatic || part.hasModifier "static"
    isAbstract := s.isAbstract || part.hasModifier "abstract"
    others := s.others ++ [part] }

@[simp] theorem key_addPart (s : TypeSymbol) (part : Node) : (s.addPart part).key = s.key := rfl

theorem mem_declarations_addPart {s : TypeSymbol} {part d : Node} :
    d ∈ (s.addPart part).declarations ↔ d ∈ s.declarations ∨ d = part := by
  simp [declarations, addPart, or_assoc]

end TypeSymbol

namespace SymbolTable

/-- The position of the first type with a given key. -/
def idOf? (types : List TypeSymbol) (key : TypeKey) : Option TypeId :=
  types.findIdx? fun s => s.key == key

theorem keys_modify_addPart (types : List TypeSymbol) (id : TypeId) (part : Node) :
    (types.modify id fun s => s.addPart part).map TypeSymbol.key = types.map TypeSymbol.key := by
  induction types generalizing id with
  | nil => cases id <;> rfl
  | cons s types ih =>
    cases id with
    | zero => simp
    | succ id => simp only [List.modify_succ_cons, List.map_cons, ih]

theorem idOf?_modify_addPart (types : List TypeSymbol) (id : TypeId) (part : Node)
    (key : TypeKey) : idOf? (types.modify id fun s => s.addPart part) key = idOf? types key := by
  have search (types : List TypeSymbol) :
      idOf? types key = (types.map TypeSymbol.key).findIdx? (· == key) := by
    rw [List.findIdx?_map]
    rfl
  rw [search, keys_modify_addPart, search]

theorem idOf?_concat {types : List TypeSymbol} {s : TypeSymbol} (absent : idOf? types s.key = none)
    (key : TypeKey) : idOf? (types ++ [s]) key =
      if key = s.key then some types.length else idOf? types key := by
  unfold idOf? at absent ⊢
  by_cases same : key = s.key
  · simp [List.findIdx?_append, List.findIdx?_cons, same, absent]
  · simp [List.findIdx?_append, List.findIdx?_cons, same, Ne.symm same]

end SymbolTable

/-- Types in the order of their first declarations, with an index of them by key and one by the
addresses of their declarations. In an index, an entry hides those behind it for the same key or
address. -/
structure TypeIndex where
  types : List TypeSymbol
  byKey : List (TypeKey × TypeId)
  byAddress : List (List Nat × TypeId)
  byKey_lookup : ∀ key, byKey.lookup key = SymbolTable.idOf? types key
  /-- A type that is found for an address has a declaration there. -/
  byAddress_sound : ∀ address (id : TypeId), byAddress.lookup address = some id →
    ∃ s, types[id]? = some s ∧ ∃ d ∈ s.declarations, d.address = address
  /-- A type is found for the address of every declaration. -/
  byAddress_total : ∀ (id : TypeId) s, types[id]? = some s → ∀ d ∈ s.declarations,
    byAddress.lookup d.address ≠ none
  deriving Repr

namespace TypeIndex

/-- No types. -/
def empty : TypeIndex where
  types := []
  byKey := []
  byAddress := []
  byKey_lookup _ := rfl
  byAddress_sound _ _ found := nomatch found
  byAddress_total _ _ there := nomatch there

/-- Adds a declaration to the type at a position. -/
def addPart (index : TypeIndex) (id : TypeId) (part : Node)
    (known : id < index.types.length) : TypeIndex where
  types := index.types.modify id fun s => s.addPart part
  byKey := index.byKey
  byAddress := (part.address, id) :: index.byAddress
  byKey_lookup key := by rw [index.byKey_lookup, SymbolTable.idOf?_modify_addPart]
  byAddress_sound address found declared := by
    rw [lookup_entry] at declared
    split at declared
    -- The new entry is for the new part; an older one is for a declaration that is still there.
    · obtain rfl := Option.some.inj declared
      refine ⟨_, by rw [List.getElem?_modify, List.getElem?_eq_getElem known]; rfl, part, ?_, ?_⟩
      · simpa using TypeSymbol.mem_declarations_addPart.mpr (.inr rfl)
      · exact Eq.symm ‹_›
    · obtain ⟨s, there, d, member, here⟩ := index.byAddress_sound address found declared
      refine ⟨_, by rw [List.getElem?_modify, there]; rfl, d, ?_, here⟩
      split
      · exact TypeSymbol.mem_declarations_addPart.mpr (.inl member)
      · exact member
  byAddress_total other s there d member := by
    rw [lookup_entry]
    split
    · simp
    -- A declaration at another address than the part's is an older one.
    · rename_i elsewhere
      rw [List.getElem?_modify] at there
      obtain ⟨before, found, rfl⟩ := Option.map_eq_some_iff.mp there
      refine index.byAddress_total other before found d ?_
      split at member
      · rcases TypeSymbol.mem_declarations_addPart.mp member with member | rfl
        · exact member
        · exact absurd rfl elsewhere
      · exact member

/-- Adds a type with its first declaration. -/
def addType (index : TypeIndex) (s : TypeSymbol) (single : s.declarations = [s.primary])
    (absent : SymbolTable.idOf? index.types s.key = none) : TypeIndex where
  types := index.types ++ [s]
  byKey := (s.key, index.types.length) :: index.byKey
  byAddress := (s.primary.address, index.types.length) :: index.byAddress
  byKey_lookup key := by
    rw [SymbolTable.idOf?_concat absent, lookup_entry, index.byKey_lookup]
  byAddress_sound address found declared := by
    rw [lookup_entry] at declared
    split at declared
    · obtain rfl := Option.some.inj declared
      exact ⟨s, List.getElem?_concat_length, s.primary, List.mem_cons_self, Eq.symm ‹_›⟩
    · obtain ⟨before, there, member⟩ := index.byAddress_sound address found declared
      have inside := (List.getElem?_eq_some_iff.mp there).1
      exact ⟨before, by rw [List.getElem?_append_left inside, there], member⟩
  byAddress_total id before there d member := by
    rw [lookup_entry]
    split
    · simp
    · rename_i elsewhere
      rw [List.getElem?_append] at there
      split at there
      · exact index.byAddress_total id before there d member
      · obtain rfl := List.mem_singleton.mp (List.mem_of_getElem? there)
        rw [single] at member
        exact absurd (congrArg Node.address (List.mem_singleton.mp member)) elsewhere

/-- Adds a declaration: to its type, or as a new type at the end. -/
def declare (index : TypeIndex) (d : TypeDeclaration) : TypeIndex :=
  match found : index.byKey.lookup d.key with
  | some id => index.addPart id d.node (by
      rw [index.byKey_lookup] at found
      exact (List.findIdx?_eq_some_iff_getElem.mp found).1)
  | none => index.addType (.ofDeclaration (d.container?.bind (index.byKey.lookup ·)) d) rfl
      ((index.byKey_lookup d.key).symm.trans found)

end TypeIndex

/-- The types and the namespace scopes of a file. -/
structure SymbolTable extends TypeIndex where
  scopes : List NamespaceScope
  deriving Repr

namespace SymbolTable

/-- The table of an outline. -/
def ofOutline (entries : List OutlineEntry) : SymbolTable :=
  { toTypeIndex := (entries.filterMap fun
      | .type declaration => some declaration
      | .scope _ => none).foldl TypeIndex.declare .empty
    scopes := entries.filterMap fun
      | .scope scope => some scope
      | .type _ => none }

/-- The table of a file, given its root. -/
def ofRoot (root : Node) : SymbolTable := ofOutline root.fileOutline

def size (table : SymbolTable) : Nat := table.types.length

def get? (table : SymbolTable) (id : TypeId) : Option TypeSymbol := table.types[id]?

/-- The type that a node declares. -/
def declaredBy? (table : SymbolTable) (n : Node) : Option TypeId :=
  table.byAddress.lookup n.address

/-- The type with a dotted path, written without type parameters, and a number of these. -/
def lookup? (table : SymbolTable) (path : String) (arity : Nat) : Option TypeId :=
  table.byKey.lookup ⟨path, arity⟩

theorem lookup?_eq_idOf? (table : SymbolTable) (path : String) (arity : Nat) :
    table.lookup? path arity = idOf? table.types ⟨path, arity⟩ := table.byKey_lookup ⟨path, arity⟩

/-- The type declared directly inside another one. -/
def nested? (table : SymbolTable) (container : TypeId) (name : String) (arity : Nat) :
    Option TypeId :=
  (table.get? container).bind fun s => table.lookup? (dotted s.path name) arity

/-- The types around a type and its namespace as written before its name, final dot included. -/
def displayPrefix (table : SymbolTable) (id : TypeId) : String :=
  match table.get? id with
  | none => ""
  | some s =>
    match s.container? with
    | some outer =>
      if outer < id then
        table.displayPrefix outer ++ ((table.get? outer).map TypeSymbol.ownName).getD "" ++ "."
      else ""
    | none => if (s.space?.getD "").isEmpty then "" else s.space?.getD "" ++ "."
termination_by id

/-- The full name of a type with its declared type parameters, such as `Shop.Box<T>`. -/
def displayName (table : SymbolTable) (id : TypeId) : String :=
  table.displayPrefix id ++ ((table.get? id).map TypeSymbol.ownName).getD ""

/-- The scopes that enclose a byte offset, outermost first; a scope also encloses its end. -/
def scopesAt (table : SymbolTable) (offset : Nat) : List NamespaceScope :=
  (table.scopes.filter fun s => decide (s.start ≤ offset) && decide (offset ≤ s.stop)).mergeSort
    fun left right => decide (right.stop - right.start ≤ left.stop - left.start)

/-- The innermost namespace at a byte offset. -/
def namespaceAt? (table : SymbolTable) (offset : Nat) : Option String :=
  (table.scopesAt offset).reverse.findSome? NamespaceScope.name?

end SymbolTable

end ClassAtlas
