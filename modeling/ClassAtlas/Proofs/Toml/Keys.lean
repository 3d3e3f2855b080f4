import ClassAtlas.Lookup
import ClassAtlas.Toml.Read
import Mathlib.Data.List.Nodup

/-!
# Keys of a document

In a document that has been read, and in every table inside of it, no key stands twice. So what is
found under a key is all that the document says under it.
-/
namespace ClassAtlas.Toml

/-- No table in the value has a key twice. -/
inductive Value.KeysOnce : Value → Prop
  | string (text : String) : KeysOnce (.string text)
  | bool (value : Bool) : KeysOnce (.bool value)
  | scalar : KeysOnce .scalar
  | array {items : List Value} : (∀ item ∈ items, KeysOnce item) → KeysOnce (.array items)
  | table {origin : Origin} {entries : Entries} : (entries.map Prod.fst).Nodup →
      (∀ entry ∈ entries, KeysOnce entry.2) → KeysOnce (.table origin entries)
  | tables {elements : List Entries} : (∀ entries ∈ elements, (entries.map Prod.fst).Nodup) →
      (∀ entries ∈ elements, ∀ entry ∈ entries, KeysOnce entry.2) → KeysOnce (.tables elements)

/-- No key stands twice, neither here nor in a table inside. -/
structure KeysOnce (entries : Entries) : Prop where
  once : (entries.map Prod.fst).Nodup
  inside : ∀ entry ∈ entries, entry.2.KeysOnce

theorem keysOnce_table_iff {origin : Origin} {entries : Entries} :
    (Value.table origin entries).KeysOnce ↔ KeysOnce entries := by
  constructor
  · intro keysOnce
    cases keysOnce with
    | table once inside => exact ⟨once, inside⟩
  · rintro ⟨once, inside⟩
    exact .table once inside

theorem keysOnce_tables_iff {elements : List Entries} :
    (Value.tables elements).KeysOnce ↔ ∀ entries ∈ elements, KeysOnce entries := by
  constructor
  · intro keysOnce entries member
    cases keysOnce with
    | tables once inside => exact ⟨once entries member, inside entries member⟩
  · intro all
    exact .tables (fun entries member => (all entries member).once)
      fun entries member => (all entries member).inside

/-! ### Changes -/

section

variable {entries result : Entries} {key : String} {value : Value}

theorem KeysOnce.nil : KeysOnce [] := ⟨List.nodup_nil, nofun⟩

theorem KeysOnce.concat (keysOnce : KeysOnce entries) (new : entries.lookup key = none)
    (valueOnce : value.KeysOnce) : KeysOnce (entries ++ [(key, value)]) := by
  have absent : key ∉ entries.map Prod.fst := by
    intro listed
    obtain ⟨entry, member, rfl⟩ := List.mem_map.mp listed
    exact absurd rfl (bne_iff_ne.mp (List.lookup_eq_none_iff.mp new entry member))
  constructor
  · rw [List.map_append, List.map_singleton]
    exact List.nodup_append.mpr ⟨keysOnce.once, List.nodup_singleton _, by grind⟩
  · intro entry member
    rcases List.mem_append.mp member with before | last
    · exact keysOnce.inside entry before
    · rw [List.mem_singleton.mp last]
      exact valueOnce

theorem KeysOnce.replaceEntry (keysOnce : KeysOnce entries) (valueOnce : value.KeysOnce) :
    KeysOnce (replaceEntry entries key value) := by
  constructor
  · have same : (Toml.replaceEntry entries key value).map Prod.fst = entries.map Prod.fst := by
      rw [Toml.replaceEntry, List.map_map]
      refine List.map_congr_left fun entry _ => ?_
      by_cases here : entry.1 = key <;> simp [here]
    rw [same]
    exact keysOnce.once
  · intro entry member
    obtain ⟨old, listed, rfl⟩ := List.mem_map.mp member
    split
    · exact valueOnce
    · exact keysOnce.inside old listed

/-- A change that keeps keys apart does so at the end of any path. -/
theorem KeysOnce.changeAt {byDottedKey : Bool} {change : Origin → Entries → Option Entries}
    (keeps : ∀ {origin entries result}, KeysOnce entries → change origin entries = some result →
      KeysOnce result) {path : List String} {origin : Origin} (keysOnce : KeysOnce entries)
    (changed : changeAt byDottedKey change path origin entries = some result) :
    KeysOnce result := by
  -- On its way a path adds a table at the end, or changes one that is there under its key.
  induction path generalizing origin entries result with
  | nil => exact keeps keysOnce changed
  | cons key path ih =>
    rw [Toml.changeAt.eq_def] at changed
    dsimp only at changed
    split at changed
    · next new =>
      obtain ⟨inner, made, rfl⟩ := Option.map_eq_some_iff.mp changed
      exact keysOnce.concat new (keysOnce_table_iff.mpr (ih .nil made))
    · next origin inner found =>
      split at changed
      · cases changed
      · obtain ⟨inner', made, rfl⟩ := Option.map_eq_some_iff.mp changed
        have before := keysOnce.inside _ (mem_of_lookup_eq_some found)
        exact keysOnce.replaceEntry
          (keysOnce_table_iff.mpr (ih (keysOnce_table_iff.mp before) made))
    · next elements found =>
      split at changed
      · cases changed
      · next last ending =>
        obtain ⟨last', made, rfl⟩ := Option.map_eq_some_iff.mp changed
        have before := keysOnce_tables_iff.mp (keysOnce.inside _ (mem_of_lookup_eq_some found))
        refine keysOnce.replaceEntry (keysOnce_tables_iff.mpr fun entries member => ?_)
        rcases List.mem_append.mp member with kept | new
        · exact before entries (List.dropLast_subset _ kept)
        · rw [List.mem_singleton.mp new]
          exact ih (before last (List.mem_of_getLast? ending)) made
    · cases changed

theorem KeysOnce.addEntry {path : Path} {origin : Origin} (keysOnce : KeysOnce entries)
    (valueOnce : value.KeysOnce) (added : addEntry path value origin entries = some result) :
    KeysOnce result := by
  refine keysOnce.changeAt (fun {origin entries result} keysOnce added => ?_) added
  split at added
  · cases added
  · split at added
    · cases added
    · next new =>
      cases added
      exact keysOnce.concat (Option.not_isSome_iff_eq_none.mp new) valueOnce

theorem KeysOnce.openTable (keysOnce : KeysOnce entries)
    (opened : openTable key entries = some result) : KeysOnce result := by
  unfold Toml.openTable at opened
  split at opened
  · next new =>
    cases opened
    exact keysOnce.concat new (keysOnce_table_iff.mpr .nil)
  · next inner found =>
    cases opened
    have before := keysOnce.inside _ (mem_of_lookup_eq_some found)
    exact keysOnce.replaceEntry (keysOnce_table_iff.mpr (keysOnce_table_iff.mp before))
  · cases opened

theorem KeysOnce.openElement (keysOnce : KeysOnce entries)
    (opened : openElement key entries = some result) : KeysOnce result := by
  unfold Toml.openElement at opened
  split at opened
  · next new =>
    cases opened
    refine keysOnce.concat new (keysOnce_tables_iff.mpr fun entries member => ?_)
    exact List.mem_singleton.mp member ▸ .nil
  · next elements found =>
    cases opened
    have before := keysOnce_tables_iff.mp (keysOnce.inside _ (mem_of_lookup_eq_some found))
    refine keysOnce.replaceEntry (keysOnce_tables_iff.mpr fun entries member => ?_)
    rcases List.mem_append.mp member with kept | new
    · exact before entries kept
    · exact List.mem_singleton.mp new ▸ .nil
  · cases opened

end

/-! ### Reading -/

/-- All values that are read have each key once. -/
def ReadsKeysOnce (read : ValueReader) : Prop :=
  ∀ s value rest, read s = some (value, rest) → value.KeysOnce

theorem keysOnce_of_readItems {read : ValueReader} (reads : ReadsKeysOnce read) {fuel : Nat}
    {s rest : List Char} {items : List Value} (found : readItems read fuel s = some (items, rest)) :
    ∀ item ∈ items, item.KeysOnce := by
  induction fuel generalizing s items with
  | zero => cases found
  | succ fuel ih =>
    rw [readItems.eq_def] at found
    dsimp only at found
    split at found
    · cases found
    · cases found
      exact fun item member => absurd member List.not_mem_nil
    · split at found
      · cases found
      · next item _ here =>
        split at found
        · cases found
          exact List.forall_mem_singleton.mpr (reads _ item _ here)
        · obtain ⟨⟨later, _⟩, more, same⟩ := Option.map_eq_some_iff.mp found
          cases same
          exact List.forall_mem_cons.mpr ⟨reads _ item _ here, ih more⟩
        · cases found

theorem keysOnce_of_readMembers {read : ValueReader} (reads : ReadsKeysOnce read) {fuel : Nat}
    {s rest : List Char} {members : List (Path × Value)}
    (found : readMembers read fuel s = some (members, rest)) :
    ∀ member ∈ members, member.2.KeysOnce := by
  induction fuel generalizing s members with
  | zero => cases found
  | succ fuel ih =>
    rw [readMembers.eq_def] at found
    dsimp only at found
    split at found
    · split at found
      · cases found
      · next value _ here =>
        split at found
        · cases found
          exact List.forall_mem_singleton.mpr (reads _ value _ here)
        · obtain ⟨⟨later, _⟩, more, same⟩ := Option.map_eq_some_iff.mp found
          cases same
          exact List.forall_mem_cons.mpr ⟨reads _ value _ here, ih more⟩
        · cases found
    · cases found

/-- What every step keeps holds at the end. -/
theorem holds_of_foldlM {σ α : Type} {Holds : σ → Prop} {step : σ → α → Option σ} {xs : List α}
    (keeps : ∀ x ∈ xs, ∀ {s s'}, Holds s → step s x = some s' → Holds s') {s s' : σ}
    (start : Holds s) (folded : xs.foldlM step s = some s') : Holds s' := by
  induction xs generalizing s with
  | nil =>
    cases folded
    exact start
  | cons x xs ih =>
    obtain ⟨next, made, folded⟩ := Option.bind_eq_some_iff.mp folded
    exact ih (fun x member => keeps x (List.mem_cons_of_mem _ member))
      (keeps x List.mem_cons_self start made) folded

theorem readsKeysOnce_readArray {read : ValueReader} (reads : ReadsKeysOnce read) :
    ReadsKeysOnce (readArray read) := by
  intro s value rest found
  obtain ⟨⟨items, _⟩, listed, same⟩ := Option.map_eq_some_iff.mp found
  cases same
  exact .array (keysOnce_of_readItems reads listed)

theorem readsKeysOnce_readInlineTable {read : ValueReader} (reads : ReadsKeysOnce read) :
    ReadsKeysOnce (readInlineTable read) := by
  intro s value rest found
  unfold readInlineTable at found
  split at found
  · cases found
    exact keysOnce_table_iff.mpr .nil
  · split at found
    · cases found
    · next members _ listed =>
      obtain ⟨entries, assembled, same⟩ := Option.map_eq_some_iff.mp found
      cases same
      refine keysOnce_table_iff.mpr (holds_of_foldlM ?_ .nil assembled)
      exact fun member inside {_ _} keysOnce added =>
        keysOnce.addEntry (keysOnce_of_readMembers reads listed member inside) added

theorem readsKeysOnce_readPlain : ReadsKeysOnce readPlain := by
  intro s value rest found
  unfold readPlain at found
  split at found
  · cases found
  · split at found
    · obtain ⟨_, _, same⟩ := Option.map_eq_some_iff.mp found
      cases same
      exact .string _
    · obtain ⟨value', word, same⟩ := Option.map_eq_some_iff.mp found
      cases same
      unfold wordValue? at word
      split at word
      · cases word
        exact .bool true
      · split at word
        · cases word
          exact .bool false
        · split at word
          · cases word
            exact .scalar
          · cases word

theorem readsKeysOnce_readNested (depth : Nat) : ReadsKeysOnce (readNested depth) := by
  -- The induction is on the depth that is left: only brackets and braces go deeper.
  induction depth with
  | zero =>
    intro s value rest found
    unfold readNested at found
    split at found
    · cases found
    · cases found
    · next deeper => cases deeper
    · next deeper => cases deeper
    · exact readsKeysOnce_readPlain _ value rest found
  | succ depth ih =>
    intro s value rest found
    unfold readNested at found
    split at found
    · cases found
    · cases found
    · next same =>
      cases same
      exact readsKeysOnce_readArray ih _ value rest found
    · next same =>
      cases same
      exact readsKeysOnce_readInlineTable ih _ value rest found
    · exact readsKeysOnce_readPlain _ value rest found

/-! ### Documents -/

/-- The value of an entry has each key once. -/
def Statement.KeysOnce : Statement → Prop
  | .entry _ value => value.KeysOnce
  | .table _ | .element _ => True

theorem keysOnce_of_readStatement {s rest : List Char} {statement : Statement}
    (found : readStatement s = some (statement, rest)) : statement.KeysOnce := by
  unfold readStatement at found
  split at found
  · split at found
    · obtain ⟨_, _, same⟩ := Option.map_eq_some_iff.mp found
      cases same
      trivial
    · cases found
  · split at found
    · obtain ⟨_, _, same⟩ := Option.map_eq_some_iff.mp found
      cases same
      trivial
    · cases found
  · split at found
    · split at found
      · cases found
      · next value _ here =>
        obtain ⟨_, _, same⟩ := Option.map_eq_some_iff.mp found
        cases same
        exact readsKeysOnce_readNested maxDepth _ value _ here
    · cases found

theorem keysOnce_of_readStatements {fuel : Nat} {s : List Char} {statements : List Statement}
    (found : readStatements fuel s = some statements) :
    ∀ statement ∈ statements, statement.KeysOnce := by
  induction fuel generalizing s statements with
  | zero => cases found
  | succ fuel ih =>
    rw [readStatements] at found
    split at found
    · cases found
    · cases found
      exact fun statement member => absurd member List.not_mem_nil
    · split at found
      · cases found
      · next here =>
        obtain ⟨later, more, rfl⟩ := Option.map_eq_some_iff.mp found
        exact List.forall_mem_cons.mpr ⟨keysOnce_of_readStatement here, ih more⟩

theorem KeysOnce.add {p p' : Progress} {statement : Statement} (values : statement.KeysOnce)
    (keysOnce : KeysOnce p.root) (added : p.add statement = some p') : KeysOnce p'.root := by
  cases statement with
  | table path =>
    obtain ⟨root, changed, rfl⟩ := Option.map_eq_some_iff.mp added
    exact keysOnce.changeAt (fun keysOnce opened => keysOnce.openTable opened) changed
  | element path =>
    obtain ⟨root, changed, rfl⟩ := Option.map_eq_some_iff.mp added
    exact keysOnce.changeAt (fun keysOnce opened => keysOnce.openElement opened) changed
  | entry path value =>
    obtain ⟨root, changed, rfl⟩ := Option.map_eq_some_iff.mp added
    exact keysOnce.changeAt (fun keysOnce added => keysOnce.addEntry values added) changed

/-- In a document that has been read no key stands twice, however deep. -/
theorem keysOnce_of_read {text : String} {entries : Entries} (found : read text = some entries) :
    KeysOnce entries := by
  obtain ⟨statements, listed, assembled⟩ := Option.bind_eq_some_iff.mp found
  obtain ⟨progress, folded, rfl⟩ := Option.map_eq_some_iff.mp assembled
  have values := keysOnce_of_readStatements listed
  have keeps : ∀ statement ∈ statements, ∀ {p p' : Progress}, KeysOnce p.root →
      p.add statement = some p' → KeysOnce p'.root :=
    fun statement member => KeysOnce.add (values statement member)
  exact holds_of_foldlM keeps .nil folded

end ClassAtlas.Toml
