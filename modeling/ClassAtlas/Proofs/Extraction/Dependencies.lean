import ClassAtlas.Proofs.Extraction.Comparison
import ClassAtlas.Proofs.Types.Inference

/-!
# Dependencies of methods

The dependency types of a method are the source types of its local variables, each once, in the
order in which they first occur. Whatever they are displayed as, the types themselves are among the
referenced types of the class.
-/
namespace ClassAtlas

/-- The second list has what occurs in the first one, in the order of the first occurrences. -/
structure FirstOccurrences {α : Type} [BEq α] (xs ys : List α) : Prop where
  members : ∀ a, a ∈ ys ↔ a ∈ xs
  ordered : ys.Pairwise fun a b => xs.idxOf a < xs.idxOf b

/-- The source type that a reference stands for, with its type arguments: a source type itself, or
the source reference type that a nullable annotation is attached to. -/
def TypeRef.sourceType? (table : SymbolTable) : TypeRef → Option TypeRef
  | .declared id args => some (.declared id args)
  | .nullable (.declared id args) =>
    if (table.get? id).any fun s => s.kind.isReference then some (.declared id args) else none
  | _ => none

/-- The source types of the local variables of a method, in the order of the variables. -/
def Model.sourceLocals (m : Model) (method : Node) : List TypeRef :=
  (m.localTypes method).filterMap (TypeRef.sourceType? m.table)

/-! ### First occurrences -/

theorem FirstOccurrences.nodup {α : Type} [BEq α] {xs ys : List α} (first : FirstOccurrences xs ys) :
    ys.Nodup := by
  refine List.nodup_iff_pairwise_ne.mpr (first.ordered.imp ?_)
  rintro a _ before rfl
  exact Nat.lt_irrefl _ before

section

variable {α : Type} [BEq α] [LawfulBEq α]

/-- What is left out does not change the order of what is kept. -/
theorem idxOf_lt_of_filter {p : α → Bool} {a b : α} (kept : p b = true) {xs : List α}
    (before : (xs.filter p).idxOf a < (xs.filter p).idxOf b) : xs.idxOf a < xs.idxOf b := by
  induction xs with
  | nil => exact before
  | cons x rest ih =>
    -- The second one is not first among what is kept, so it is not first at all.
    have behind : x ≠ b := by
      rintro rfl
      rw [List.filter_cons_of_pos kept, List.idxOf_cons_self] at before
      exact absurd before (Nat.not_lt_zero _)
    by_cases first : x = a
    · rw [first, List.idxOf_cons_self, List.idxOf_cons_ne rest (first ▸ behind)]
      exact Nat.succ_pos _
    · rw [List.idxOf_cons_ne rest first, List.idxOf_cons_ne rest behind]
      refine Nat.succ_lt_succ (ih ?_)
      by_cases present : p x = true
      · rw [List.filter_cons_of_pos present, List.idxOf_cons_ne _ first,
          List.idxOf_cons_ne _ behind] at before
        exact Nat.lt_of_succ_lt_succ before
      · rwa [List.filter_cons_of_neg present] at before

theorem eraseDups_ordered (xs : List α) :
    xs.eraseDups.Pairwise fun a b => xs.idxOf a < xs.idxOf b := by
  match xs with
  | [] => exact .nil
  | x :: rest =>
    have later := eraseDups_ordered (rest.filter fun y => !y == x)
    -- What follows is not the first element, so its place is one behind that in the rest.
    have place : ∀ {a}, a ∈ (rest.filter fun y => !y == x).eraseDups →
        (!a == x) = true ∧ (x :: rest).idxOf a = rest.idxOf a + 1 := by
      intro a listed
      have other := (List.mem_filter.mp (List.mem_eraseDups.mp listed)).2
      exact ⟨other, List.idxOf_cons_ne rest fun same => by simp [same] at other⟩
    rw [List.eraseDups_cons, List.pairwise_cons]
    constructor
    · intro a listed
      rw [List.idxOf_cons_self, (place listed).2]
      exact Nat.succ_pos _
    · refine later.imp_of_mem fun {a b} listed listed' before => ?_
      obtain ⟨kept, second⟩ := place listed'
      rw [(place listed).2, second]
      exact Nat.succ_lt_succ (idxOf_lt_of_filter (p := fun y => !y == x) kept before)
termination_by xs.length
decreasing_by exact Nat.lt_succ_of_le (List.length_filter_le _ _)

/-- Leaving out what has occurred before keeps exactly the first occurrences. -/
theorem firstOccurrences_eraseDups (xs : List α) : FirstOccurrences xs xs.eraseDups where
  members _ := List.mem_eraseDups
  ordered := eraseDups_ordered xs

end

namespace TypeRef

variable {table : SymbolTable}

theorem sourceType?_eq (t : TypeRef) :
    t.sourceType? table =
      if (t.inSource? table).isSome then some (Model.unannotated t) else none := by
  cases t with
  | nullable inner =>
    cases inner with
    | declared id args =>
      simp only [sourceType?, inSource?, Model.unannotated]
      split <;> rfl
    | _ => rfl
  | _ => rfl

theorem sourceType?_eq_some {t u : TypeRef} (found : t.sourceType? table = some u) :
    ∃ id args, u = .declared id args ∧ t.inSource? table = some id := by
  unfold sourceType? at found
  split at found
  · next id args =>
    cases found
    exact ⟨id, args, rfl, rfl⟩
  · next id args =>
    split at found
    · next reference =>
      cases found
      exact ⟨id, args, rfl, if_pos reference⟩
    · cases found
  · cases found

end TypeRef

namespace Model

variable {settings : Settings} {path : String}

theorem dependencyTypes_eq (m : Model) (method : Node) :
    m.dependencyTypes method =
      ((m.sourceLocals method).map fun t => t.display m.table).eraseDups := by
  have kept : m.sourceLocals method =
      ((m.localTypes method).filter fun t => (t.inSource? m.table).isSome).map unannotated := by
    rw [sourceLocals, ← List.filterMap_eq_map, List.filterMap_filter]
    exact List.filterMap_congr fun t _ => t.sourceType?_eq
  rw [dependencyTypes, kept, List.map_map]
  rfl

/-- The types of the variables of a method that is described are recorded for its class. -/
theorem isRecorded_of_sourceLocals {tree : Tree} {c : ClassDeclaration} {s : TypeSymbol}
    {method : Node} {u : TypeRef} (included : method ∈ includedMethods settings c)
    (described : ((ofTree tree).methodSymbol? method).isSome)
    (listed : u ∈ (ofTree tree).sourceLocals method) :
    ∃ id args, u = .declared id args ∧
      isRecorded ((ofTree tree).describe settings path c s).1.referencedTypes
        ((ofTree tree).table.displayName id) = true := by
  obtain ⟨t, known, found⟩ := List.mem_filterMap.mp listed
  obtain ⟨id, args, rfl, whole⟩ := TypeRef.sourceType?_eq_some found
  refine ⟨id, args, rfl, ?_⟩
  have inside : id < (ofTree tree).table.size := by
    obtain ⟨v, declared, typed⟩ := List.mem_filterMap.mp known
    exact (wellFormed_declaredLocals method v declared t typed).source whole
  have followed : Visit.reference t ∈ (ofTree tree).mentions settings c := by
    rw [mentions_eq]
    refine List.mem_append_left _ (List.mem_flatMap.mpr ⟨method, included, ?_⟩)
    rw [methodMentions, if_pos described]
    exact List.mem_map_of_mem known
  -- What is recorded when the variable is visited is still recorded in the end.
  obtain ⟨new, adds⟩ := collectAll_adds (ofTree tree) settings.layout settings.followTypeArguments
    ((ofTree tree).mentions settings c) []
  rw [referencedTypes_describe]
  exact adds.visited _ followed id (.whole whole) inside

end Model

open Model in
/-- A method depends on the source types of its local variables, each once, in the order in which
they first occur, and each of these types is recorded for the class under its full name. -/
theorem dependencies_recorded (file : ParsedFile) (settings : Settings) (path : String)
    (valid : settings.flaw? = none) :
    ∃ e, file.extract settings path = .ok e ∧ ∀ d ∈ e.classes,
      ∃ c ∈ (ofTree file.tree).classDeclarations,
        (ofTree file.tree).descriptor? settings path c = some d ∧
        ∀ md ∈ d.methods, ∃ method ∈ c.node.membersOfKind "method_declaration",
          (ofTree file.tree).methodDescriptor? settings method = some md ∧
          md.dependencyTypes.Nodup ∧
          FirstOccurrences (((ofTree file.tree).sourceLocals method).map fun t =>
            t.display (ofTree file.tree).table) md.dependencyTypes ∧
          ∀ u ∈ (ofTree file.tree).sourceLocals method, ∃ id args, u = .declared id args ∧
            isRecorded d.referencedTypes ((ofTree file.tree).table.displayName id) = true := by
  refine ⟨_, file.extract_of_valid path valid, fun d listed => ?_⟩
  rw [file.classes_describe] at listed
  obtain ⟨c, declared, described⟩ := List.mem_filterMap.mp listed
  refine ⟨c, declared, described, fun md own => ?_⟩
  obtain ⟨s, -, rfl⟩ := Option.map_eq_some_iff.mp described
  have own : md ∈ (ofTree file.tree).methods settings c.node := own
  rw [methods_eq] at own
  obtain ⟨method, included, made⟩ := List.mem_filterMap.mp own
  refine ⟨method, (List.mem_filter.mp included).1, made, ?_⟩
  -- Only methods with a name have descriptors, and the variables of these are followed.
  obtain ⟨symbol, found, rfl⟩ := Option.map_eq_some_iff.mp made
  have first := firstOccurrences_eraseDups
    (((ofTree file.tree).sourceLocals method).map fun t => t.display (ofTree file.tree).table)
  rw [← dependencyTypes_eq] at first
  refine ⟨first.nodup, first, fun u listed => ?_⟩
  exact isRecorded_of_sourceLocals included (Option.isSome_of_eq_some found) listed

/-- The hidden method of the page depends on the constructed type of its variable, the other one on
nothing. -/
theorem orderPage_depends :
    Settings.standard.flaw? = none ∧ ∃ e : Extraction,
      (∀ d ∈ e.classes, ∀ md ∈ d.methods, md.dependencyTypes.Nodup) ∧
      (e.classes.flatMap ClassDescriptor.methods).map MethodDescriptor.dependencyTypes =
        [[], ["Box<Order>"]] := by
  have valid : Settings.standard.flaw? = none := by decide +kernel
  obtain ⟨e, extracted, agrees⟩ :=
    dependencies_recorded ⟨orderPage, false⟩ .standard "In.cs" valid
  refine ⟨valid, e, fun d listed md own => ?_, ?_⟩
  · obtain ⟨_, -, -, described⟩ := agrees d listed
    obtain ⟨_, -, -, once, -⟩ := described md own
    exact once
  · cases (ParsedFile.extract_of_valid _ _ valid).symm.trans extracted
    decide +kernel

end ClassAtlas
