import ClassAtlas.Model.References
import ClassAtlas.Proofs.Symbols.FullName

/-!
# Referenced types are the reachable ones

The search for referenced types finds all source types that can be reached from what is visited, and
nothing else, each once. A type leads on to what the types of its members and its base types hand
over, and a reference hands over what is met on the way through it.
-/
namespace ClassAtlas

/-- The source types that a reference hands over: the one it stands for, and those of its parts when
type arguments are followed. -/
inductive TypeRef.Hands (table : SymbolTable) (follow : Bool) : TypeRef → TypeId → Prop
  | whole {t : TypeRef} {id : TypeId} : t.inSource? table = some id → Hands table follow t id
  | part {t part : TypeRef} {id : TypeId} : follow = true → part ∈ t.components table →
      Hands table follow part id → Hands table follow t id

/-- The source types that a step of the search hands over. -/
def Visit.Hands (table : SymbolTable) (follow : Bool) : Visit → TypeId → Prop
  | .type id, found => found = id
  | .reference t, found => t.Hands table follow found

namespace Model

/-- The types of the members of a type, or its base types, hand over another type. -/
def LeadsTo (m : Model) (follow : Bool) (id found : TypeId) : Prop :=
  ∃ s, m.table.get? id = some s ∧ Node.memberContainerKinds.contains s.primary.kind = true ∧
    ∃ t ∈ m.memberTypes s.primary ++ m.baseTypes id, t.Hands m.table follow found

/-- The types of the table that can be reached from what is visited. -/
inductive Reachable (m : Model) (follow : Bool) (visits : List Visit) : TypeId → Prop
  | visited {v : Visit} {id : TypeId} : v ∈ visits → v.Hands m.table follow id →
      id < m.table.size → Reachable m follow visits id
  | next {id found : TypeId} : Reachable m follow visits id → m.LeadsTo follow id found →
      found < m.table.size → Reachable m follow visits found

/-- The full name of a type and its normalized first declaration. -/
def entry (m : Model) (options : LayoutOptions) (id : TypeId) : String × String :=
  (m.table.displayName id,
    ((m.table.get? id).map fun s => s.primary.normalizedWithComments options).getD "")

/-- The definitions after visiting one after the other. -/
def collectAll (m : Model) (options : LayoutOptions) (follow : Bool) (visits : List Visit)
    (definitions : Definitions) : Definitions :=
  visits.foldl (fun definitions v => m.collect options follow [v] definitions) definitions

variable {m : Model} {options : LayoutOptions} {follow : Bool}

theorem hands_visits {t : TypeRef} {id : TypeId} :
    t.Hands m.table follow id ↔ ∃ v ∈ t.visits m.table follow, v.Hands m.table follow id := by
  constructor
  · intro hands
    cases hands with
    | whole found => exact ⟨.type id, by simp [TypeRef.visits, found], rfl⟩
    | @part _ part _ followed member inner =>
      exact ⟨.reference part, by simp [TypeRef.visits, followed, member], inner⟩
  · rintro ⟨v, member, hands⟩
    rw [TypeRef.visits, List.mem_append] at member
    -- The step is the type that the reference stands for, or one of its parts.
    rcases member with own | parts
    · simp only [List.mem_map, Option.mem_toList] at own
      obtain ⟨found, whole, rfl⟩ := own
      cases hands
      exact .whole whole
    · split at parts
      · next followed =>
        obtain ⟨part, inside, rfl⟩ := List.mem_map.mp parts
        exact .part followed inside hands
      · exact absurd parts List.not_mem_nil

theorem leadsTo_iff {id found : TypeId} {s : TypeSymbol} (there : m.table.get? id = some s) :
    m.LeadsTo follow id found ↔
      ∃ t ∈ m.referencesOf id s, t.Hands m.table follow found := by
  unfold LeadsTo referencesOf
  constructor
  · rintro ⟨s', there', container, t, member, hands⟩
    cases there.symm.trans there'
    rw [if_pos container]
    exact ⟨t, member, hands⟩
  · rintro ⟨t, member, hands⟩
    split at member
    · next container => exact ⟨s, there, container, t, member, hands⟩
    · exact absurd member List.not_mem_nil

theorem Reachable.known {visits : List Visit} {id : TypeId}
    (reachable : m.Reachable follow visits id) : id < m.table.size := by
  cases reachable with
  | visited _ _ known | next _ _ known => exact known

/-- Visiting what leads to reachable types reaches no further. -/
theorem Reachable.of_visits {visits more : List Visit} {id : TypeId}
    (reachable : m.Reachable follow visits id)
    (within : ∀ v ∈ visits, ∀ id, v.Hands m.table follow id → id < m.table.size →
      m.Reachable follow more id) : m.Reachable follow more id := by
  induction reachable with
  | visited member hands known => exact within _ member _ hands known
  | next _ leads known ih => exact .next ih leads known

/-! ### One visit -/

/-- What a call makes of the definitions: it adds those of some types, each of them reached, and in
the end everything that is handed over, and everything that added types lead to, is recorded. -/
structure Adds (m : Model) (options : LayoutOptions) (follow : Bool) (visits : List Visit)
    (before after : Definitions) (new : List TypeId) : Prop where
  entries : after = before ++ new.map (m.entry options)
  once : (before.map Prod.fst).Nodup → (after.map Prod.fst).Nodup
  visited : ∀ v ∈ visits, ∀ id, v.Hands m.table follow id → id < m.table.size →
    isRecorded after (m.table.displayName id) = true
  closed : ∀ id ∈ new, ∀ found, m.LeadsTo follow id found → found < m.table.size →
    isRecorded after (m.table.displayName found) = true
  reachable : ∀ id ∈ new, m.Reachable follow visits id

theorem isRecorded_append {definitions more : Definitions} {name : String} :
    isRecorded (definitions ++ more) name = true ↔
      isRecorded definitions name = true ∨ isRecorded more name = true := by
  simp only [isRecorded, List.contains_iff_mem, List.map_append, List.mem_append]

theorem entry_of_get? {id : TypeId} {s : TypeSymbol} (there : m.table.get? id = some s) :
    m.entry options id = (m.table.displayName id, s.primary.normalizedWithComments options) := by
  rw [entry, there]
  rfl

theorem Adds.nothing (definitions : Definitions) :
    Adds m options follow [] definitions definitions [] where
  entries := by simp
  once := id
  visited := nofun
  closed := nofun
  reachable := nofun

/-- Visits may be replaced by others that hand over the same types, up to what is recorded. -/
theorem Adds.of_visits {visits more : List Visit} {before after : Definitions} {new : List TypeId}
    (adds : Adds m options follow more before after new)
    (covered : ∀ v ∈ visits, ∀ id, v.Hands m.table follow id → id < m.table.size →
      isRecorded before (m.table.displayName id) = true ∨
        ∃ w ∈ more, w.Hands m.table follow id)
    (within : ∀ w ∈ more, ∀ id, w.Hands m.table follow id →
      ∃ v ∈ visits, v.Hands m.table follow id) :
    Adds m options follow visits before after new where
  entries := adds.entries
  once := adds.once
  -- What is handed over is recorded already, or one of the other visits hands it over.
  visited := by
    intro v member id hands known
    obtain old | ⟨w, member', hands'⟩ := covered v member id hands known
    · rw [adds.entries, isRecorded_append]
      exact .inl old
    · exact adds.visited w member' id hands' known
  closed := adds.closed
  reachable := by
    intro id member
    refine (adds.reachable id member).of_visits fun w member' found hands known => ?_
    obtain ⟨v, member, hands'⟩ := within w member' found hands
    exact .visited member hands' known

theorem Adds.of_rest {v : Visit} {rest : List Visit} {before after : Definitions}
    {new : List TypeId} (adds : Adds m options follow rest before after new)
    (old : ∀ id, v.Hands m.table follow id → id < m.table.size →
      isRecorded before (m.table.displayName id) = true) :
    Adds m options follow (v :: rest) before after new := by
  refine adds.of_visits ?_ fun w later id hands => ⟨w, List.mem_cons_of_mem _ later, hands⟩
  intro w member id hands known
  rcases List.mem_cons.mp member with rfl | later
  · exact .inl (old id hands known)
  · exact .inr ⟨w, later, hands⟩

/-- A new type is recorded, and what its members and base types hand over is visited first. -/
theorem Adds.of_new {id : TypeId} {s : TypeSymbol} (there : m.table.get? id = some s)
    {rest : List Visit} {before after : Definitions} {new : List TypeId}
    (adds : Adds m options follow ((m.referencesOf id s).map .reference ++ rest)
      (before ++ [(m.table.displayName id, s.primary.normalizedWithComments options)]) after new)
    (fresh : isRecorded before (m.table.displayName id) = false) :
    Adds m options follow (.type id :: rest) before after (id :: new) := by
  have known : id < m.table.size := (List.getElem?_eq_some_iff.mp there).1
  have self : m.Reachable follow (.type id :: rest) id :=
    .visited List.mem_cons_self rfl known
  -- The new type is recorded first and so is still recorded in the end.
  have own : isRecorded after (m.table.displayName id) = true := by
    rw [adds.entries, isRecorded_append, isRecorded_append]
    exact .inl (.inr (by simp [isRecorded]))
  constructor
  · rw [adds.entries, List.append_assoc, List.map_cons, entry_of_get? there]
    rfl
  · intro different
    refine adds.once ?_
    rw [List.map_append, List.nodup_append]
    refine ⟨different, List.nodup_singleton _, ?_⟩
    intro name old last single same
    subst same
    rw [List.mem_singleton.mp single] at old
    exact Bool.false_ne_true (fresh.symm.trans (List.contains_iff_mem.mpr old))
  · intro v member found hands known'
    rcases List.mem_cons.mp member with rfl | later
    · exact hands ▸ own
    · exact adds.visited v (List.mem_append_right _ later) found hands known'
  · intro other member found leads known'
    -- What the new type leads to was visited; the types added after it are closed already.
    rcases List.mem_cons.mp member with rfl | later
    · obtain ⟨t, listed, hands⟩ := (leadsTo_iff there).mp leads
      have pending : Visit.reference t ∈ (m.referencesOf other s).map Visit.reference ++ rest :=
        List.mem_append_left _ (List.mem_map_of_mem listed)
      exact adds.visited _ pending found hands known'
    · exact adds.closed other later found leads known'
  · intro other member
    rcases List.mem_cons.mp member with rfl | later
    · exact self
    -- What is reached from the pending visits is reached through the new type or from the rest.
    · refine (adds.reachable other later).of_visits fun v pending found hands known' => ?_
      rcases List.mem_append.mp pending with inner | after
      · obtain ⟨t, listed, rfl⟩ := List.mem_map.mp inner
        exact .next self ((leadsTo_iff there).mpr ⟨t, listed, hands⟩) known'
      · exact .visited (List.mem_cons_of_mem _ after) hands known'

/-- The search adds definitions for what the pending steps lead to, whatever is recorded before. -/
theorem collect_adds (m : Model) (options : LayoutOptions) (follow : Bool) (pending : List Visit)
    (definitions : Definitions) :
    ∃ new, Adds m options follow pending definitions
      (m.collect options follow pending definitions) new := by
  -- The cases are those of the search: nothing pending, a reference, an unknown type, a recorded
  -- type, and a new type.
  fun_induction m.collect options follow pending definitions
  case case1 => exact ⟨[], .nothing _⟩
  case case2 t rest ih =>
    obtain ⟨new, adds⟩ := ih
    refine ⟨new, adds.of_visits ?_ ?_⟩
    · intro v member id hands _
      rcases List.mem_cons.mp member with rfl | later
      · obtain ⟨w, inner, hands'⟩ := hands_visits.mp hands
        exact .inr ⟨w, List.mem_append_left _ inner, hands'⟩
      · exact .inr ⟨v, List.mem_append_right _ later, hands⟩
    · intro w member id hands
      rcases List.mem_append.mp member with inner | later
      · exact ⟨.reference t, List.mem_cons_self, hands_visits.mpr ⟨w, inner, hands⟩⟩
      · exact ⟨w, List.mem_cons_of_mem _ later, hands⟩
  case case3 id rest unknown ih =>
    obtain ⟨new, adds⟩ := ih
    refine ⟨new, adds.of_rest fun found hands known => ?_⟩
    have absent : m.table.size ≤ id := List.getElem?_eq_none_iff.mp unknown
    exact absurd (hands ▸ known) (Nat.not_lt.mpr absent)
  case case4 id rest s there old ih =>
    obtain ⟨new, adds⟩ := ih
    refine ⟨new, adds.of_rest fun found hands _ => ?_⟩
    obtain rfl : found = id := hands
    exact old
  case case5 id rest s there fresh ih =>
    obtain ⟨new, adds⟩ := ih
    exact ⟨id :: new, .of_new there adds (Bool.eq_false_iff.mpr fresh)⟩

/-! ### Types instead of names -/

/-- The definitions are those of different types. -/
structure Records (m : Model) (options : LayoutOptions) (ids : List TypeId)
    (definitions : Definitions) : Prop where
  entries : definitions = ids.map (m.entry options)
  once : ids.Nodup
  known : ∀ id ∈ ids, id < m.table.size

/-- A visit adds types: those that are handed over and those to which new types lead, but only such
as are reachable. -/
structure Extends (m : Model) (follow : Bool) (visits : List Visit) (ids all : List TypeId) :
    Prop where
  kept : ids <+: all
  visited : ∀ v ∈ visits, ∀ id, v.Hands m.table follow id → id < m.table.size → id ∈ all
  closed : ∀ id ∈ all, id ∉ ids → ∀ found, m.LeadsTo follow id found → found < m.table.size →
    found ∈ all
  reachable : ∀ id ∈ all, id ∈ ids ∨ m.Reachable follow visits id

theorem map_fst_entry (ids : List TypeId) :
    (ids.map (m.entry options)).map Prod.fst = ids.map m.table.displayName := by
  rw [List.map_map]
  rfl

section

variable (named : ∀ {id id' : TypeId}, id < m.table.size → id' < m.table.size →
  m.table.displayName id = m.table.displayName id' → id = id')
include named

theorem Records.names_nodup {ids : List TypeId} {definitions : Definitions}
    (records : Records m options ids definitions) : (definitions.map Prod.fst).Nodup := by
  rw [records.entries, map_fst_entry]
  refine List.Nodup.map_on ?_ records.once
  intro id member id' member' same
  exact named (records.known id member) (records.known id' member') same

theorem Records.isRecorded_iff {ids : List TypeId} {definitions : Definitions}
    (records : Records m options ids definitions) {id : TypeId} (known : id < m.table.size) :
    isRecorded definitions (m.table.displayName id) = true ↔ id ∈ ids := by
  rw [isRecorded, List.contains_iff_mem, records.entries, map_fst_entry, List.mem_map]
  constructor
  · rintro ⟨other, member, same⟩
    exact named (records.known other member) known same ▸ member
  · intro member
    exact ⟨id, member, rfl⟩

/-- What a call adds extends what is recorded by what the visits lead to. -/
theorem Adds.extends {visits : List Visit} {before after : Definitions} {ids new : List TypeId}
    (adds : Adds m options follow visits before after new)
    (records : Records m options ids before) :
    Records m options (ids ++ new) after ∧ Extends m follow visits ids (ids ++ new) := by
  -- Names tell types apart, so what is known of recorded names is known of the types.
  have entries := adds.entries
  rw [records.entries, ← List.map_append] at entries
  have recorded : Records m options (ids ++ new) after := by
    refine ⟨entries, ?_, ?_⟩
    · have different := adds.once (records.names_nodup named)
      rw [entries, map_fst_entry] at different
      exact different.of_map
    · intro id member
      rcases List.mem_append.mp member with old | added
      · exact records.known id old
      · exact (adds.reachable id added).known
  refine ⟨recorded, List.prefix_append ids new, ?_, ?_, ?_⟩
  · intro v member id hands known
    exact (recorded.isRecorded_iff named known).mp (adds.visited v member id hands known)
  · intro id member fresh found leads known
    have added := (List.mem_append.mp member).resolve_left fresh
    exact (recorded.isRecorded_iff named known).mp (adds.closed id added found leads known)
  · intro id member
    exact (List.mem_append.mp member).imp_right (adds.reachable id)

end

/-! ### All visits -/

theorem Adds.trans {v : Visit} {rest : List Visit} {before between after : Definitions}
    {new more : List TypeId} (adds : Adds m options follow [v] before between new)
    (adds' : Adds m options follow rest between after more) :
    Adds m options follow (v :: rest) before after (new ++ more) := by
  -- What is recorded by the first visit stays recorded.
  have kept {name : String} (recorded : isRecorded between name = true) :
      isRecorded after name = true := by
    rw [adds'.entries, isRecorded_append]
    exact .inl recorded
  constructor
  · rw [adds'.entries, adds.entries, List.map_append, List.append_assoc]
  · exact fun different => adds'.once (adds.once different)
  · intro w member id hands known
    rcases List.mem_cons.mp member with rfl | later
    · exact kept (adds.visited w List.mem_cons_self id hands known)
    · exact adds'.visited w later id hands known
  · intro id member found leads known
    rcases List.mem_append.mp member with first | second
    · exact kept (adds.closed id first found leads known)
    · exact adds'.closed id second found leads known
  · intro id member
    rcases List.mem_append.mp member with first | second
    · refine (adds.reachable id first).of_visits fun w single found hands known => ?_
      rw [List.mem_singleton.mp single] at hands
      exact .visited List.mem_cons_self hands known
    · refine (adds'.reachable id second).of_visits fun w later found hands known => ?_
      exact .visited (List.mem_cons_of_mem v later) hands known

theorem collectAll_adds (m : Model) (options : LayoutOptions) (follow : Bool) (visits : List Visit)
    (definitions : Definitions) :
    ∃ new, Adds m options follow visits definitions
      (m.collectAll options follow visits definitions) new := by
  induction visits generalizing definitions with
  | nil => exact ⟨[], .nothing definitions⟩
  | cons v rest ih =>
    obtain ⟨new, adds⟩ := collect_adds m options follow [v] definitions
    obtain ⟨more, adds'⟩ := ih (m.collect options follow [v] definitions)
    exact ⟨new ++ more, adds.trans adds'⟩

/-- What is recorded after some visits. -/
structure Complete (m : Model) (follow : Bool) (visits : List Visit) (ids : List TypeId) :
    Prop where
  visited : ∀ v ∈ visits, ∀ id, v.Hands m.table follow id → id < m.table.size → id ∈ ids
  closed : ∀ id ∈ ids, ∀ found, m.LeadsTo follow id found → found < m.table.size → found ∈ ids
  reachable : ∀ id ∈ ids, m.Reachable follow visits id

theorem Complete.mem_iff {visits : List Visit} {ids : List TypeId}
    (complete : Complete m follow visits ids) {id : TypeId} :
    id ∈ ids ↔ m.Reachable follow visits id := by
  constructor
  · exact complete.reachable id
  · intro reached
    -- Closed under what types lead to, the recorded types hold everything on the way.
    induction reached with
    | visited member hands known => exact complete.visited _ member _ hands known
    | next _ leads known ih => exact complete.closed _ ih _ leads known

theorem Complete.extend {done visits : List Visit} {ids all : List TypeId}
    (complete : Complete m follow done ids) (extension : Extends m follow visits ids all) :
    Complete m follow (done ++ visits) all := by
  constructor
  · intro v member id hands known
    rcases List.mem_append.mp member with before | now
    · exact extension.kept.subset (complete.visited v before id hands known)
    · exact extension.visited v now id hands known
  · intro id member found leads known
    -- Old types were closed already, new ones are closed by this visit.
    by_cases old : id ∈ ids
    · exact extension.kept.subset (complete.closed id old found leads known)
    · exact extension.closed id member old found leads known
  · intro id member
    obtain old | reached := extension.reachable id member
    · exact (complete.reachable id old).of_visits fun v before found hands known =>
        .visited (List.mem_append_left _ before) hands known
    · exact reached.of_visits fun v now found hands known =>
        .visited (List.mem_append_right _ now) hands known

/-- Visit after visit, exactly the reachable types are recorded. -/
theorem collectAll_complete (named : ∀ {id id' : TypeId}, id < m.table.size → id' < m.table.size →
      m.table.displayName id = m.table.displayName id' → id = id')
    {done : List Visit} {ids : List TypeId} {definitions : Definitions}
    (complete : Complete m follow done ids) (records : Records m options ids definitions)
    (visits : List Visit) :
    ∃ all, Records m options all (m.collectAll options follow visits definitions) ∧
      Complete m follow (done ++ visits) all := by
  obtain ⟨new, adds⟩ := collectAll_adds m options follow visits definitions
  obtain ⟨recorded, extension⟩ := adds.extends named records
  exact ⟨ids ++ new, recorded, complete.extend extension⟩

theorem definitions_prefix_collect (pending : List Visit) (definitions : Definitions) :
    definitions <+: m.collect options follow pending definitions := by
  fun_induction m.collect options follow pending definitions
  case case1 => exact List.prefix_rfl
  case case2 ih | case3 ih | case4 ih => exact ih
  case case5 ih => exact (List.prefix_append _ _).trans ih

theorem definitions_prefix_collectAll (visits : List Visit) (definitions : Definitions) :
    definitions <+: m.collectAll options follow visits definitions := by
  induction visits generalizing definitions with
  | nil => exact List.prefix_rfl
  | cons v rest ih => exact (definitions_prefix_collect [v] definitions).trans (ih _)

/-! ### Files with plain names -/

/-- In a file with plain names, visiting one after the other records exactly the reachable types,
each once, under its full name and with its first declaration; further visits only add to it. -/
theorem collectAll_records_reachable (tree : Tree) (options : LayoutOptions) (follow : Bool)
    (visits : List Visit) (plain : PlainlyNamed (ofTree tree).table.types) :
    ∃ ids : List TypeId, ids.Nodup ∧
      (∀ id, id ∈ ids ↔ (ofTree tree).Reachable follow visits id) ∧
      (ofTree tree).collectAll options follow visits [] = ids.map ((ofTree tree).entry options) ∧
      (((ofTree tree).collectAll options follow visits []).map Prod.fst).Nodup ∧
      ∀ later, (ofTree tree).collectAll options follow visits [] <+:
        (ofTree tree).collectAll options follow (visits ++ later) [] := by
  have merges := SymbolTable.merges_ofRoot (.root tree)
  -- Plain names make full names as good as positions.
  have named : ∀ {id id' : TypeId}, id < (ofTree tree).table.size → id' < (ofTree tree).table.size →
      (ofTree tree).table.displayName id = (ofTree tree).table.displayName id' → id = id' :=
    SymbolTable.displayName_injective plain merges.placed merges.different
  have nothing : Records (ofTree tree) options [] [] := ⟨rfl, List.nodup_nil, nofun⟩
  have start : Complete (ofTree tree) follow [] [] := ⟨nofun, nofun, nofun⟩
  obtain ⟨ids, records, complete⟩ := collectAll_complete named start nothing visits
  refine ⟨ids, records.once, fun id => complete.mem_iff, records.entries, ?_, ?_⟩
  · rw [records.entries, List.map_map]
    refine List.Nodup.map_on ?_ records.once
    intro id member id' member' same
    exact named (records.known id member) (records.known id' member') same
  · intro later
    rw [collectAll, collectAll, List.foldl_append]
    exact definitions_prefix_collectAll later _

end Model

/-! ### Classes with fields of each other's types -/

/-- A class with one field, such as `class Page { Order to; }`. -/
def fieldClass (start : Nat) (name type : String) : Tree :=
  let body := start + 7 + name.utf8ByteSize
  let field := type ++ " to"
  firstRowTree "class_declaration" none start ("class " ++ name ++ " \x7b " ++ field ++ "; \x7d")
    [firstRowTree "identifier" (some "name") (start + 6) name [],
      firstRowTree "declaration_list" (some "body") body ("\x7b " ++ field ++ "; \x7d")
        [firstRowTree "field_declaration" none (body + 2) (field ++ ";")
          [firstRowTree "variable_declaration" none (body + 2) field
            [firstRowTree "identifier" (some "type") (body + 2) type [],
              firstRowTree "variable_declarator" none (body + 3 + type.utf8ByteSize) "to"
                [firstRowTree "identifier" (some "name") (body + 3 + type.utf8ByteSize) "to" []]]]]]

/-- `class Box<T> { }` -/
def boxClass : Tree :=
  firstRowTree "class_declaration" none 0 "class Box<T> \x7b \x7d"
    [firstRowTree "identifier" (some "name") 6 "Box" [],
      firstRowTree "type_parameter_list" none 9 "<T>"
        [firstRowTree "type_parameter" none 10 "T"
          [firstRowTree "identifier" (some "name") 10 "T" []]],
      firstRowTree "declaration_list" (some "body") 13 "\x7b \x7d" []]

/-- `class Box<T> { } class Order { Page to; } class Page { Order to; } class Lid { Order to; }` -/
def linkedClasses : Tree :=
  let classes := [boxClass, fieldClass 17 "Order" "Page", fieldClass 42 "Page" "Order",
    fieldClass 67 "Lid" "Order"]
  firstRowTree "compilation_unit" none 0 (" ".intercalate (classes.map fun c => c.info.text))
    classes

theorem linkedClasses_plainlyNamed : PlainlyNamed (Model.ofTree linkedClasses).table.types :=
  .of_undotted (by decide +kernel)

/-- `Box<Order>` -/
def boxOfOrder : TypeRef := .declared 0 [.declared 1 []]

theorem hands_declared_iff {table : SymbolTable} {follow : Bool} {id found : TypeId}
    {args : List TypeRef} : (TypeRef.declared id args).Hands table follow found ↔
      found = id ∨ follow = true ∧ ∃ a ∈ args, a.Hands table follow found := by
  constructor
  · rintro (whole | ⟨followed, member, inner⟩)
    · exact .inl (Option.some.inj whole).symm
    · exact .inr ⟨followed, _, member, inner⟩
  · rintro (rfl | ⟨followed, a, member, inner⟩)
    · exact .whole rfl
    · exact .part followed member inner

/-- The generic class leads nowhere, and each of the other types to one type. -/
theorem linkedClasses_leadsTo {follow : Bool} {id found : TypeId} (known : id < 4) :
    (Model.ofTree linkedClasses).LeadsTo follow id found ↔
      id ≠ 0 ∧ found = if id = 1 then 2 else 1 := by
  have links : ∀ id < 4, ((Model.ofTree linkedClasses).table.get? id).map
      ((Model.ofTree linkedClasses).referencesOf id) =
        some (if id = 0 then [] else [.declared (if id = 1 then 2 else 1) []]) := by
    decide +kernel
  obtain ⟨s, there, link⟩ := Option.map_eq_some_iff.mp (links id known)
  rw [Model.leadsTo_iff there, link]
  by_cases generic : id = 0 <;> simp [generic, hands_declared_iff]

theorem linkedClasses_reachable {follow : Bool} {id : TypeId} :
    (Model.ofTree linkedClasses).Reachable follow [.reference boxOfOrder] id ↔
      id = 0 ∨ follow = true ∧ id < 3 := by
  have size : (Model.ofTree linkedClasses).table.size = 4 := by decide +kernel
  have visited (found : TypeId) : (Visit.reference boxOfOrder).Hands
      (Model.ofTree linkedClasses).table follow found ↔ found = 0 ∨ follow = true ∧ found = 1 := by
    simp [Visit.Hands, boxOfOrder, hands_declared_iff]
  constructor
  · intro reached
    induction reached with
    | visited member hands _ =>
      rw [List.mem_singleton.mp member] at hands
      rcases (visited _).mp hands with rfl | ⟨followed, rfl⟩
      · exact .inl rfl
      · exact .inr ⟨followed, by decide⟩
    | @next id found before leads _ ih =>
      obtain ⟨linked, rfl⟩ := (linkedClasses_leadsTo (size ▸ before.known)).mp leads
      have followed : follow = true := by
        rcases ih with generic | ⟨followed, -⟩
        · exact absurd generic linked
        · exact followed
      refine .inr ⟨followed, ?_⟩
      split <;> decide
  · intro within
    have order (followed : follow = true) :
        (Model.ofTree linkedClasses).Reachable follow [.reference boxOfOrder] 1 :=
      .visited List.mem_cons_self ((visited 1).mpr (.inr ⟨followed, rfl⟩)) (by rw [size]; decide)
    have box : (Model.ofTree linkedClasses).Reachable follow [.reference boxOfOrder] 0 :=
      .visited List.mem_cons_self ((visited 0).mpr (.inl rfl)) (by rw [size]; decide)
    rcases within with rfl | ⟨followed, within⟩
    · exact box
    · match id, within with
      | 0, _ => exact box
      | 1, _ => exact order followed
      | 2, _ =>
        exact .next (order followed) ((linkedClasses_leadsTo (by decide)).mpr ⟨by decide, rfl⟩)
          (by rw [size]; decide)

/-- A visit of `Box<Order>` reaches what the type argument leads to, round the circle, and nothing
else; without type arguments it reaches the generic class alone. -/
theorem linkedClasses_collected :
    let m := Model.ofTree linkedClasses
    PlainlyNamed m.table.types ∧
      ((m.collectAll .standard true [.reference boxOfOrder] []).map Prod.fst).Perm
        ["Box<T>", "Order", "Page"] ∧
      (m.collectAll .standard false [.reference boxOfOrder] []).map Prod.fst = ["Box<T>"] := by
  intro m
  have plain := linkedClasses_plainlyNamed
  have names : [0, 1, 2].map m.table.displayName = ["Box<T>", "Order", "Page"] := by decide +kernel
  refine ⟨plain, ?_, ?_⟩
  · obtain ⟨ids, once, reachable, collected, -, -⟩ :=
      Model.collectAll_records_reachable linkedClasses .standard true [.reference boxOfOrder] plain
    -- The list of the recorded types has no duplicates, so its members settle it.
    have all : ids.Perm [0, 1, 2] := by
      refine (List.perm_ext_iff_of_nodup once (by decide)).mpr fun id => ?_
      rw [reachable id, linkedClasses_reachable]
      match id with
      | 0 | 1 | 2 => simp
      | _ + 3 => simp
    rw [collected, List.map_map, ← names]
    exact all.map _
  · obtain ⟨ids, once, reachable, collected, -, -⟩ :=
      Model.collectAll_records_reachable linkedClasses .standard false [.reference boxOfOrder] plain
    have single : ids = [0] := by
      refine List.perm_singleton.mp ?_
      refine (List.perm_ext_iff_of_nodup once (List.nodup_singleton 0)).mpr fun id => ?_
      rw [reachable id, linkedClasses_reachable]
      simp
    rw [collected, single, List.map_singleton, List.map_singleton]
    exact congrArg (· :: []) (List.cons.inj names).1

end ClassAtlas
