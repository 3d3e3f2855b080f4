import ClassAtlas.Proofs.References.Reachable
import ClassAtlas.Proofs.Symbols.Identity

/-!
# References in partial types

The search follows the members of the first declaration of a type and the base types of all of its
declarations. What the members of a further declaration hand over is recorded only if it can be
reached in another way.
-/
namespace ClassAtlas

namespace Model

/-- The types of the members of any declaration of a type, or its base types, hand over another
type. -/
def FullyLeadsTo (m : Model) (follow : Bool) (id found : TypeId) : Prop :=
  ∃ s, m.table.get? id = some s ∧ Node.memberContainerKinds.contains s.primary.kind = true ∧
    ∃ t ∈ s.declarations.flatMap m.memberTypes ++ m.baseTypes id, t.Hands m.table follow found

/-- The types of the table that can be reached when every declaration is followed. -/
inductive FullyReachable (m : Model) (follow : Bool) (visits : List Visit) : TypeId → Prop
  | visited {v : Visit} {id : TypeId} : v ∈ visits → v.Hands m.table follow id →
      id < m.table.size → FullyReachable m follow visits id
  | next {id found : TypeId} : FullyReachable m follow visits id → m.FullyLeadsTo follow id found →
      found < m.table.size → FullyReachable m follow visits found

variable {m : Model} {options : LayoutOptions} {follow : Bool} {visits : List Visit}

theorem LeadsTo.fully {id found : TypeId} (leads : m.LeadsTo follow id found) :
    m.FullyLeadsTo follow id found := by
  obtain ⟨s, there, container, t, listed, hands⟩ := leads
  refine ⟨s, there, container, t, ?_, hands⟩
  rw [TypeSymbol.declarations, List.flatMap_cons, List.append_assoc]
  rcases List.mem_append.mp listed with member | base
  · exact List.mem_append_left _ member
  · exact List.mem_append_right _ (List.mem_append_right _ base)

/-- A type with one declaration leads to nothing else. -/
theorem FullyLeadsTo.of_single {id found : TypeId} {s : TypeSymbol}
    (leads : m.FullyLeadsTo follow id found) (there : m.table.get? id = some s)
    (single : s.others = []) : m.LeadsTo follow id found := by
  obtain ⟨s', there', container, t, listed, hands⟩ := leads
  cases there.symm.trans there'
  rw [TypeSymbol.declarations, single, List.flatMap_singleton] at listed
  exact ⟨s, there, container, t, listed, hands⟩

theorem Reachable.fully {id : TypeId} (reachable : m.Reachable follow visits id) :
    m.FullyReachable follow visits id := by
  induction reachable with
  | visited member hands known => exact .visited member hands known
  | next _ leads known ih => exact .next ih leads.fully known

/-- Further declarations lead no further exactly when nothing more is reachable by them. -/
theorem fully_closed_iff :
    (∀ id, m.Reachable follow visits id → ∀ found, m.FullyLeadsTo follow id found →
        found < m.table.size → m.Reachable follow visits found) ↔
      ∀ id, m.FullyReachable follow visits id → m.Reachable follow visits id := by
  constructor
  · intro closed id reachable
    induction reachable with
    | visited member hands known => exact .visited member hands known
    | next _ leads known ih => exact closed _ ih _ leads known
  · intro within id reachable found leads known
    exact within found (.next reachable.fully leads known)

/-- Every recorded type is followed through the members of its first declaration and through the
base types of all of its declarations, so completely if it has only one. Where names tell types
apart, all declarations of the recorded types are followed exactly when none of the further ones
leads to a type that cannot be reached without it. -/
theorem collectAll_follows_first_declarations (tree : Tree) (options : LayoutOptions)
    (follow : Bool) (visits : List Visit) :
    ∃ ids : List TypeId,
      (ofTree tree).collectAll options follow visits [] = ids.map ((ofTree tree).entry options) ∧
      (∀ id ∈ ids, (ofTree tree).Reachable follow visits id) ∧
      (∀ v ∈ visits, ∀ id, v.Hands (ofTree tree).table follow id → id < (ofTree tree).table.size →
        isRecorded ((ofTree tree).collectAll options follow visits [])
          ((ofTree tree).table.displayName id) = true) ∧
      (∀ id ∈ ids, ∀ found, (ofTree tree).LeadsTo follow id found →
        found < (ofTree tree).table.size →
        isRecorded ((ofTree tree).collectAll options follow visits [])
          ((ofTree tree).table.displayName found) = true) ∧
      (∀ id ∈ ids, ∀ s, (ofTree tree).table.get? id = some s → s.others = [] →
        ∀ found, (ofTree tree).FullyLeadsTo follow id found → found < (ofTree tree).table.size →
        isRecorded ((ofTree tree).collectAll options follow visits [])
          ((ofTree tree).table.displayName found) = true) ∧
      (PlainlyNamed (ofTree tree).table.types →
        ((∀ id ∈ ids, ∀ found, (ofTree tree).FullyLeadsTo follow id found →
            found < (ofTree tree).table.size →
            isRecorded ((ofTree tree).collectAll options follow visits [])
              ((ofTree tree).table.displayName found) = true) ↔
          ∀ id, (ofTree tree).FullyReachable follow visits id →
            (ofTree tree).Reachable follow visits id)) := by
  obtain ⟨ids, adds⟩ := collectAll_adds (ofTree tree) options follow visits []
  refine ⟨ids, by simpa using adds.entries, adds.reachable, adds.visited, adds.closed, ?_, ?_⟩
  · intro id member s there single found leads known
    exact adds.closed id member found (leads.of_single there single) known
  · intro plain
    have merges := SymbolTable.merges_ofRoot (.root tree)
    have named : ∀ {id id' : TypeId}, id < (ofTree tree).table.size →
        id' < (ofTree tree).table.size →
        (ofTree tree).table.displayName id = (ofTree tree).table.displayName id' → id = id' :=
      SymbolTable.displayName_injective plain merges.placed merges.different
    have nothing : Records (ofTree tree) options [] [] := ⟨rfl, List.nodup_nil, nofun⟩
    have start : Complete (ofTree tree) follow [] [] := ⟨nofun, nofun, nofun⟩
    obtain ⟨records, extension⟩ := adds.extends named nothing
    have complete : Complete (ofTree tree) follow visits ids := start.extend extension
    have recorded {id : TypeId} (known : id < (ofTree tree).table.size) :
        isRecorded ((ofTree tree).collectAll options follow visits [])
          ((ofTree tree).table.displayName id) = true ↔ id ∈ ids :=
      records.isRecorded_iff named known
    rw [← fully_closed_iff]
    constructor
    · intro followed id reachable found leads known
      have member := complete.mem_iff.mpr reachable
      exact complete.mem_iff.mp ((recorded known).mp (followed id member found leads known))
    · intro closed id member found leads known
      have reachable := closed id (complete.mem_iff.mp member) found leads known
      exact (recorded known).mpr (complete.mem_iff.mpr reachable)

end Model

/-! ### A field in the second part of a class -/

/-- `partial class P { } partial class P { Q a; } class Q { }` -/
def splitClass : Tree :=
  firstRowTree "compilation_unit" none 0
    "partial class P \x7b \x7d partial class P \x7b Q a; \x7d class Q \x7b \x7d"
    [firstRowTree "class_declaration" none 0 "partial class P \x7b \x7d"
      [firstRowTree "modifier" none 0 "partial" [],
        firstRowTree "identifier" (some "name") 14 "P" [],
        firstRowTree "declaration_list" (some "body") 16 "\x7b \x7d" []],
    firstRowTree "class_declaration" none 20 "partial class P \x7b Q a; \x7d"
      [firstRowTree "modifier" none 20 "partial" [],
        firstRowTree "identifier" (some "name") 34 "P" [],
        firstRowTree "declaration_list" (some "body") 36 "\x7b Q a; \x7d"
          [firstRowTree "field_declaration" none 38 "Q a;"
            [firstRowTree "variable_declaration" none 38 "Q a"
              [firstRowTree "identifier" (some "type") 38 "Q" [],
                firstRowTree "variable_declarator" none 40 "a"
                  [firstRowTree "identifier" (some "name") 40 "a" []]]]]],
    firstRowTree "class_declaration" none 45 "class Q \x7b \x7d"
      [firstRowTree "identifier" (some "name") 51 "Q" [],
        firstRowTree "declaration_list" (some "body") 53 "\x7b \x7d" []]]

theorem splitClass_plainlyNamed : PlainlyNamed (Model.ofTree splitClass).table.types :=
  .of_undotted (by decide +kernel)

/-- The field is of the second class and is found only in the second part of the first one. -/
theorem splitClass_fullyLeadsTo : (Model.ofTree splitClass).FullyLeadsTo true 0 1 ∧
    ∀ found, ¬(Model.ofTree splitClass).LeadsTo true 0 found := by
  constructor
  · have parts : ((Model.ofTree splitClass).table.get? 0).any (fun s =>
        Node.memberContainerKinds.contains s.primary.kind && decide
          (TypeRef.declared 1 [] ∈ s.declarations.flatMap (Model.ofTree splitClass).memberTypes)) =
        true := by decide +kernel
    obtain ⟨s, there, found⟩ := (Option.any_eq_true _ _).mp parts
    obtain ⟨container, listed⟩ := Bool.and_eq_true_iff.mp found
    refine ⟨s, there, container, .declared 1 [], ?_, .whole rfl⟩
    exact List.mem_append_left _ (of_decide_eq_true listed)
  · rintro found ⟨s, there, -, t, listed, -⟩
    have nothing : ((Model.ofTree splitClass).table.get? 0).all (fun s =>
        (Model.ofTree splitClass).memberTypes s.primary == []) = true := by decide +kernel
    have bases : (Model.ofTree splitClass).baseTypes 0 = [] := by decide +kernel
    rw [there] at nothing
    rw [bases, eq_of_beq nothing] at listed
    exact absurd listed List.not_mem_nil

theorem splitClass_reachable {id : TypeId}
    (reachable : (Model.ofTree splitClass).Reachable true [.type 0] id) : id = 0 := by
  induction reachable with
  | visited member hands _ =>
    rw [List.mem_singleton.mp member] at hands
    exact hands
  | next _ leads _ ih =>
    subst ih
    exact absurd leads (splitClass_fullyLeadsTo.2 _)

/-- The class that the second part leads to is not recorded. -/
theorem splitClass_loses_field :
    PlainlyNamed (Model.ofTree splitClass).table.types ∧
      (Model.ofTree splitClass).FullyLeadsTo true 0 1 ∧
      (Model.ofTree splitClass).table.displayName 1 = "Q" ∧
      Model.isRecorded ((Model.ofTree splitClass).collectAll .standard true [.type 0] [])
        "P" = true ∧
      Model.isRecorded ((Model.ofTree splitClass).collectAll .standard true [.type 0] [])
        "Q" = false := by
  have plain := splitClass_plainlyNamed
  have full := splitClass_fullyLeadsTo.1
  have size : (Model.ofTree splitClass).table.size = 2 := by decide +kernel
  have first : (Model.ofTree splitClass).table.displayName 0 = "P" := by decide +kernel
  have second : (Model.ofTree splitClass).table.displayName 1 = "Q" := by decide +kernel
  obtain ⟨ids, -, reachable, visited, -, -, law⟩ :=
    Model.collectAll_follows_first_declarations splitClass .standard true [.type 0]
  have recorded := visited (.type 0) List.mem_cons_self 0 rfl (by rw [size]; decide)
  rw [first] at recorded
  refine ⟨plain, full, second, recorded, Bool.eq_false_iff.mpr fun lost => ?_⟩
  -- Were the second class recorded, every declaration would be followed, so it would be reachable.
  have followed := (law plain).mp fun id member found leads known => by
    rw [size] at known
    obtain rfl | rfl := Nat.le_one_iff_eq_zero_or_eq_one.mp (Nat.le_of_lt_succ known)
    · rwa [first]
    · rwa [second]
  have start : (Model.ofTree splitClass).FullyReachable true [.type 0] 0 :=
    .visited List.mem_cons_self rfl (by rw [size]; decide)
  have reached := followed 1 (.next start full (by rw [size]; decide))
  exact absurd (splitClass_reachable reached) (by decide)

end ClassAtlas
