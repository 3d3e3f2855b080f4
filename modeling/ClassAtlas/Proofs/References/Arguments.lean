import ClassAtlas.Proofs.References.Reachable
import ClassAtlas.Proofs.Types.Inside
import ClassAtlas.Proofs.Symbols.Identity

/-!
# Following type arguments

When type arguments are followed, a visit records every source type inside a reference, except for
the type arguments of a source reference type with a nullable annotation: the annotated type is
recorded in place of its whole construction, and its arguments are not looked at.
-/
namespace ClassAtlas

namespace TypeRef

/-- The reference is a source reference type with a nullable annotation. -/
def IsAnnotated (table : SymbolTable) : TypeRef → Prop
  | nullable (declared id _) => ∃ s, table.get? id = some s ∧ s.kind.isReference = true
  | _ => False

/-- The reference is a source reference type with type arguments and a nullable annotation. -/
def HidesArguments (table : SymbolTable) (t : TypeRef) : Prop :=
  t.IsAnnotated table ∧ ∃ id args, t = .nullable (.declared id args) ∧ args ≠ []

/-- An annotation that hides no arguments is on a type without arguments. -/
theorem bare_of_not_hidesArguments {table : SymbolTable} {id : TypeId} {args : List TypeRef}
    (annotated : (nullable (declared id args)).IsAnnotated table)
    (shown : ¬(nullable (declared id args)).HidesArguments table) : args = [] := by
  by_contra some
  exact shown ⟨annotated, id, args, rfl, some⟩

/-- The first reference is the second one or occurs in it, but not in the type arguments of an
annotated source type. -/
inductive Exposed (table : SymbolTable) (u : TypeRef) : TypeRef → Prop
  | whole : Exposed table u u
  | annotated : Exposed table u (.nullable u)
  | part {p t : TypeRef} : ¬t.IsAnnotated table → p ∈ t.parts → Exposed table u p →
      Exposed table u t

variable {table : SymbolTable}

theorem inSource?_of_isAnnotated {t : TypeRef} (annotated : t.IsAnnotated table) :
    ∃ id args, t = .nullable (.declared id args) ∧ t.inSource? table = some id := by
  match t with
  | .nullable (.declared id args) =>
    obtain ⟨s, there, reference⟩ := annotated
    exact ⟨id, args, rfl, by simp [inSource?, there, reference]⟩

theorem components_of_isAnnotated {t : TypeRef} (annotated : t.IsAnnotated table) :
    t.components table = [] := by
  obtain ⟨id, args, rfl, whole⟩ := inSource?_of_isAnnotated annotated
  simp [components, whole]

theorem inSource?_nullable {t : TypeRef} (plain : ¬(nullable t).IsAnnotated table) :
    (nullable t).inSource? table = none := by
  unfold inSource?
  split
  · next other => cases other
  · next id args other =>
    cases other
    rw [if_neg]
    intro reference
    obtain ⟨s, there, kind⟩ := (Option.any_eq_true _ _).mp reference
    exact plain ⟨s, there, kind⟩
  · rfl

/-- Only an annotation keeps the search from the parts of a reference. -/
theorem components_eq_parts {t : TypeRef} (plain : ¬t.IsAnnotated table) :
    t.components table = t.parts := by
  cases t with
  | nullable inner => simp [components, parts, inSource?_nullable plain]
  | _ => rfl

/-- A visit is handed exactly the exposed source types. -/
theorem hands_iff_exposed {t : TypeRef} {id : TypeId} :
    t.Hands table true id ↔ ∃ args, Exposed table (.declared id args) t := by
  constructor
  · intro hands
    induction hands with
    | @whole t _ found =>
      match t with
      | .declared _ args =>
        cases found
        exact ⟨args, .whole⟩
      | .nullable (.declared other args) =>
        rw [inSource?] at found
        split at found
        · cases found
          exact ⟨args, .annotated⟩
        · cases found
    | @part t p _ _ member _ ih =>
      obtain ⟨args, exposed⟩ := ih
      by_cases annotated : t.IsAnnotated table
      · rw [components_of_isAnnotated annotated] at member
        exact absurd member List.not_mem_nil
      · rw [components_eq_parts annotated] at member
        exact ⟨args, .part annotated member exposed⟩
  · rintro ⟨args, exposed⟩
    induction exposed with
    | whole => exact .whole rfl
    | annotated =>
      by_cases annotated : (nullable (.declared id args)).IsAnnotated table
      · obtain ⟨_, _, same, whole⟩ := inSource?_of_isAnnotated annotated
        cases same
        exact .whole whole
      · have part : declared id args ∈ (nullable (.declared id args)).components table := by
          rw [components_eq_parts annotated]
          exact List.mem_cons_self
        exact .part rfl part (.whole rfl)
    | part plain member _ ih =>
      rw [← components_eq_parts plain] at member
      exact .part rfl member ih

/-- Nothing is hidden where no annotated source type has type arguments. -/
theorem Inside.exposed {u t : TypeRef} (inside : u.Inside t)
    (shown : ∀ v : TypeRef, v.Inside t → ¬v.HidesArguments table) : Exposed table u t := by
  induction inside with
  | whole => exact .whole
  | @part p t member inner ih =>
    have exposed := ih fun v deeper => shown v (.part member deeper)
    by_cases annotated : t.IsAnnotated table
    -- An annotated type without type arguments has nothing inside but itself.
    · obtain ⟨id, args, rfl, -⟩ := inSource?_of_isAnnotated annotated
      have bare := bare_of_not_hidesArguments annotated (shown _ .whole)
      obtain rfl := List.mem_singleton.mp member
      subst bare
      cases inner with
      | whole => exact .annotated
      | part deeper _ => exact absurd deeper List.not_mem_nil
    · exact .part annotated member exposed

end TypeRef

namespace Model

variable {m : Model} {options : LayoutOptions} {follow : Bool}

theorem visit_eq_collect_visits (t : TypeRef) (definitions : Definitions) :
    m.visit options follow t definitions =
      m.collect options follow (t.visits m.table follow) definitions := by
  rw [visit, collect, List.append_nil]

/-- What a visit is handed is recorded when it returns. -/
theorem isRecorded_visit {t : TypeRef} {id : TypeId} (hands : t.Hands m.table follow id)
    (known : id < m.table.size) (definitions : Definitions) :
    isRecorded (m.visit options follow t definitions) (m.table.displayName id) = true := by
  obtain ⟨new, adds⟩ := collect_adds m options follow [.reference t] definitions
  exact adds.visited _ List.mem_cons_self id hands known

/-- Only types are added that can be reached from what a visit is handed. -/
theorem isRecorded_visit_cases {t : TypeRef} {definitions : Definitions} {name : String}
    (recorded : isRecorded (m.visit options follow t definitions) name = true) :
    isRecorded definitions name = true ∨
      ∃ id, m.Reachable follow [.reference t] id ∧ m.table.displayName id = name := by
  obtain ⟨new, adds⟩ := collect_adds m options follow [.reference t] definitions
  rw [visit, adds.entries, isRecorded_append] at recorded
  refine recorded.imp_right fun added => ?_
  rw [isRecorded, List.contains_iff_mem, map_fst_entry] at added
  obtain ⟨id, member, shown⟩ := List.mem_map.mp added
  exact ⟨id, adds.reachable id member, shown⟩

/-- Visiting an annotated source type is visiting the type without its arguments. -/
theorem visit_of_isAnnotated {id : TypeId} {args : List TypeRef}
    (annotated : (TypeRef.nullable (.declared id args)).IsAnnotated m.table)
    (definitions : Definitions) :
    m.visit options follow (.nullable (.declared id args)) definitions =
      m.visit options follow (.declared id []) definitions := by
  have parts := TypeRef.components_of_isAnnotated annotated
  obtain ⟨_, _, same, whole⟩ := TypeRef.inSource?_of_isAnnotated annotated
  cases same
  have visits : (TypeRef.nullable (.declared id args)).visits m.table follow =
      (TypeRef.declared id []).visits m.table follow := by
    rw [TypeRef.visits, TypeRef.visits, parts, whole]
    rfl
  rw [visit_eq_collect_visits, visit_eq_collect_visits, visits]

/-- An annotation that hides nothing makes no difference to a visit. -/
theorem visit_nullable {t : TypeRef} (shown : ¬(TypeRef.nullable t).HidesArguments m.table)
    (definitions : Definitions) :
    m.visit options true (.nullable t) definitions = m.visit options true t definitions := by
  by_cases annotated : (TypeRef.nullable t).IsAnnotated m.table
  · obtain ⟨id, args, same, -⟩ := TypeRef.inSource?_of_isAnnotated annotated
    cases same
    rw [visit_of_isAnnotated annotated, TypeRef.bare_of_not_hidesArguments annotated shown]
  -- The annotated reference is visited as the only part of the whole.
  · have visits : (TypeRef.nullable t).visits m.table true = [.reference t] := by
      rw [TypeRef.visits, TypeRef.inSource?_nullable annotated,
        TypeRef.components_eq_parts annotated]
      rfl
    rw [visit_eq_collect_visits, visits, visit]

/-- A visit that follows type arguments records every source type inside a reference that is not
hidden, in whatever state it starts, and besides only types that can be reached from these; so it
records all types inside where no annotated source type has type arguments. An annotation makes no
difference, unless it hides type arguments: these are then ignored. -/
theorem visit_records_exposed (m : Model) (options : LayoutOptions) (t : TypeRef)
    (definitions : Definitions) :
    (∀ id args, id < m.table.size → TypeRef.Exposed m.table (.declared id args) t →
      isRecorded (m.visit options true t definitions) (m.table.displayName id) = true) ∧
    (∀ name, isRecorded (m.visit options true t definitions) name = true →
      isRecorded definitions name = true ∨
        ∃ id, m.Reachable true [.reference t] id ∧ m.table.displayName id = name) ∧
    ((∀ u : TypeRef, u.Inside t → ¬u.HidesArguments m.table) →
      ∀ id args, id < m.table.size → (TypeRef.declared id args).Inside t →
        isRecorded (m.visit options true t definitions) (m.table.displayName id) = true) ∧
    (¬(TypeRef.nullable t).HidesArguments m.table →
      m.visit options true (.nullable t) definitions = m.visit options true t definitions) ∧
    (∀ id args, t = .declared id args → (TypeRef.nullable t).HidesArguments m.table →
      m.visit options true (.nullable t) definitions =
        m.visit options true (.declared id []) definitions) := by
  have recorded {id : TypeId} {args : List TypeRef} (known : id < m.table.size)
      (exposed : TypeRef.Exposed m.table (.declared id args) t) :
      isRecorded (m.visit options true t definitions) (m.table.displayName id) = true :=
    isRecorded_visit (TypeRef.hands_iff_exposed.mpr ⟨args, exposed⟩) known definitions
  refine ⟨fun id args => recorded, fun name => isRecorded_visit_cases, ?_,
    fun shown => visit_nullable shown definitions, ?_⟩
  · intro shown id args known inside
    exact recorded known (inside.exposed shown)
  · rintro id args rfl hidden
    exact visit_of_isAnnotated hidden.1 definitions

end Model

/-! ### An annotated generic class -/

/-- `class Box<T> { } class Order { }` -/
def boxAndOrder : Tree :=
  firstRowTree "compilation_unit" none 0 "class Box<T> \x7b \x7d class Order \x7b \x7d"
    [boxClass, firstRowTree "class_declaration" none 17 "class Order \x7b \x7d"
      [firstRowTree "identifier" (some "name") 23 "Order" [],
        firstRowTree "declaration_list" (some "body") 29 "\x7b \x7d" []]]

/-- The classes lead nowhere. -/
theorem boxAndOrder_leadsTo (id found : TypeId) :
    ¬(Model.ofTree boxAndOrder).LeadsTo true id found := by
  rintro ⟨s, there, -, t, listed, -⟩
  have nothing : ∀ s ∈ (Model.ofTree boxAndOrder).table.types,
      (Model.ofTree boxAndOrder).memberTypes s.primary = [] := by decide +kernel
  have bases : ∀ id < 2, (Model.ofTree boxAndOrder).baseTypes id = [] := by decide +kernel
  have size : (Model.ofTree boxAndOrder).table.types.length = 2 := by decide +kernel
  have known : id < 2 := size ▸ (List.getElem?_eq_some_iff.mp there).1
  rw [nothing s (List.mem_of_getElem? there), bases id known] at listed
  exact absurd listed List.not_mem_nil

/-- From `Box<Order>` both classes are recorded, from `Box<Order>?` only the generic one. -/
theorem annotatedBox_loses_order :
    (TypeRef.nullable boxOfOrder).HidesArguments (Model.ofTree boxAndOrder).table ∧
      (TypeRef.declared 1 []).Inside (.nullable boxOfOrder) ∧
      (Model.ofTree boxAndOrder).table.displayName 1 = "Order" ∧
      Model.isRecorded ((Model.ofTree boxAndOrder).visit .standard true boxOfOrder [])
        "Order" = true ∧
      Model.isRecorded ((Model.ofTree boxAndOrder).visit .standard true (.nullable boxOfOrder) [])
        "Order" = false := by
  have hides : (TypeRef.nullable boxOfOrder).HidesArguments (Model.ofTree boxAndOrder).table := by
    refine ⟨?_, 0, [.declared 1 []], rfl, List.cons_ne_nil _ _⟩
    have first : ((Model.ofTree boxAndOrder).table.get? 0).any
        (fun s => s.kind.isReference) = true := by decide +kernel
    exact (Option.any_eq_true _ _).mp first
  have size : (Model.ofTree boxAndOrder).table.types.length = 2 := by decide +kernel
  have box : (Model.ofTree boxAndOrder).table.displayName 0 = "Box<T>" := by decide +kernel
  have order : (Model.ofTree boxAndOrder).table.displayName 1 = "Order" := by decide +kernel
  have inside : (TypeRef.declared 1 []).Inside boxOfOrder := .part List.mem_cons_self .whole
  have law := Model.visit_records_exposed (.ofTree boxAndOrder) .standard
  refine ⟨hides, .part List.mem_cons_self inside, order, ?_, ?_⟩
  · have exposed : TypeRef.Exposed (Model.ofTree boxAndOrder).table (.declared 1 []) boxOfOrder :=
      .part id List.mem_cons_self .whole
    have recorded := (law boxOfOrder []).1 1 [] (by rw [SymbolTable.size, size]; decide) exposed
    rwa [order] at recorded
  -- What is reached from the annotated type is that type alone.
  · rw [(law boxOfOrder []).2.2.2.2 0 _ rfl hides]
    refine Bool.eq_false_iff.mpr fun recorded => ?_
    obtain before | ⟨found, reached, name⟩ := (law (.declared 0 []) []).2.1 "Order" recorded
    · exact absurd before (by decide)
    · cases reached with
      | next _ leads _ => exact boxAndOrder_leadsTo _ _ leads
      | visited member hands _ =>
        rw [List.mem_singleton.mp member] at hands
        cases hands with
        | whole same =>
          cases same
          rw [box] at name
          exact absurd name (by decide)
        | part _ part _ => exact absurd part List.not_mem_nil

end ClassAtlas
