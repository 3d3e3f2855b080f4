import ClassAtlas.Guard
import ClassAtlas.Proofs.Symbols.FullName
import ClassAtlas.Proofs.Syntax.Ancestry
import Mathlib.Data.Set.Card

/-!
# Guarded throws

The guards of a member are its pairs of an `if` statement and a `throw` in the consequence of it,
once each in document order. A `throw` has a guard for every `if` around it that it is in the
consequence of, and none for an `if` whose alternative it is in.
-/
namespace ClassAtlas

namespace Node

/-! ### The rule -/

/-- Inside a member, an `if` statement has a condition and a consequence, and the consequence is the
`throw` statement or has it inside. -/
structure Guards (member branching throwing : Node) : Prop where
  inside : member ∈ branching.ancestors
  branches : branching.kind = "if_statement"
  conditional : ∃ condition, branching.child? "condition" = some condition
  guarded : ∃ consequence, branching.child? "consequence" = some consequence ∧
    (throwing = consequence ∨ consequence ∈ throwing.ancestors)
  throws : throwing.kind = "throw_statement"

/-- The statement throws what it creates by an object creation with the given type: this is the
first of its nodes that is no comment. -/
def Creates (throwing type : Node) : Prop :=
  ∃ comments created rest, throwing.namedChildren = comments ++ created :: rest ∧
    (∀ c ∈ comments, c.kind = "comment") ∧ created.kind = "object_creation_expression" ∧
    created.child? "type" = some type

/-- The entry for an `if` statement and a `throw` has the text of the condition and that of the
created type, or else the fallback. -/
structure Reports (fallback : String) (branching throwing : Node) (e : ExceptionCondition) :
    Prop where
  condition : ∃ c, branching.child? "condition" = some c ∧ e.condition = Text.trim c.text
  created : ∀ type, throwing.Creates type → e.exceptionType = Text.trim type.text
  other : (∀ type, ¬throwing.Creates type) → e.exceptionType = fallback

/-! ### Entries -/

theorem thrownType?_eq_some_iff {throwing : Node} {s : String} :
    throwing.thrownType? = some s ↔ ∃ type, throwing.Creates type ∧ Text.trim type.text = s := by
  unfold thrownType?
  constructor
  · intro thrown
    obtain ⟨created, first, written⟩ := Option.bind_eq_some_iff.mp thrown
    split at written
    next kind =>
      obtain ⟨type, own, rfl⟩ := Option.map_eq_some_iff.mp written
      obtain ⟨-, comments, rest, split, before⟩ := List.find?_eq_some_iff_append.mp first
      refine ⟨type, ⟨comments, created, rest, split, ?_, eq_of_beq kind, own⟩, rfl⟩
      intro c member
      have comment := before c member
      simpa [isComment] using comment
    next => cases written
  · rintro ⟨type, ⟨comments, created, rest, split, before, kind, own⟩, rfl⟩
    have first : (throwing.namedChildren.find? fun c => !c.isComment) = some created := by
      rw [List.find?_eq_some_iff_append]
      refine ⟨by simp [isComment, kind], comments, rest, split, fun c member => ?_⟩
      simp [isComment, before c member]
    rw [first, Option.bind_some, if_pos (beq_iff_eq.mpr kind), writtenType?, own]
    rfl

/-- The throws that an `if` statement guards. -/
def guardedThrows (branching : Node) : List Node :=
  match branching.child? "condition", branching.child? "consequence" with
  | some _, some consequence => consequence.subtree.filter fun d => d.kind == "throw_statement"
  | _, _ => []

/-- The `if` statements of a member, each with the throws that it guards. -/
def guardPairs (member : Node) : List (Node × Node) :=
  (member.descendants.filter fun n => n.kind == "if_statement").flatMap fun branching =>
    branching.guardedThrows.map fun throwing => (branching, throwing)

theorem mem_guardedThrows {branching throwing : Node} :
    throwing ∈ branching.guardedThrows ↔
      (∃ condition, branching.child? "condition" = some condition) ∧
        (∃ consequence, branching.child? "consequence" = some consequence ∧
          (throwing = consequence ∨ consequence ∈ throwing.ancestors)) ∧
        throwing.kind = "throw_statement" := by
  unfold guardedThrows
  constructor
  · intro member
    split at member
    next condition consequence conditional consequent =>
      obtain ⟨inside, throws⟩ := List.mem_filter.mp member
      exact ⟨⟨condition, conditional⟩, ⟨consequence, consequent, mem_subtree_iff.mp inside⟩,
        eq_of_beq throws⟩
    next => cases member
  · rintro ⟨⟨condition, conditional⟩, ⟨consequence, consequent, inside⟩, throws⟩
    rw [conditional, consequent]
    exact List.mem_filter.mpr ⟨mem_subtree_iff.mpr inside, beq_iff_eq.mpr throws⟩

theorem guardedThrows_pairwise (branching : Node) :
    branching.guardedThrows.Pairwise Precedes := by
  unfold guardedThrows
  split
  next consequence _ _ => exact consequence.subtree_pairwise_precedes.filter _
  next => exact .nil

theorem mem_guardPairs {member branching throwing : Node} :
    (branching, throwing) ∈ member.guardPairs ↔ Guards member branching throwing := by
  simp only [guardPairs, List.mem_flatMap, List.mem_filter, List.mem_map, Prod.mk.injEq,
    beq_iff_eq]
  constructor
  · rintro ⟨b, ⟨below, branches⟩, t, guarded, rfl, rfl⟩
    obtain ⟨conditional, consequent, throws⟩ := mem_guardedThrows.mp guarded
    exact ⟨mem_ancestors_iff.mpr below, branches, conditional, consequent, throws⟩
  · intro guards
    exact ⟨branching, ⟨mem_ancestors_iff.mp guards.inside, guards.branches⟩, throwing,
      mem_guardedThrows.mpr ⟨guards.conditional, guards.guarded, guards.throws⟩, rfl, rfl⟩

theorem guardPairs_pairwise (member : Node) :
    member.guardPairs.Pairwise (Prod.Lex Precedes Precedes) := by
  rw [guardPairs, List.pairwise_flatMap]
  -- The pairs of one `if` statement are in the order of their throws, those of different ones in
  -- that of the `if` statements.
  constructor
  · intro branching _
    exact List.pairwise_map.mpr (branching.guardedThrows_pairwise.imp fun before => .right _ before)
  · refine (member.descendants_pairwise_precedes.filter _).imp fun before p inside q inside' => ?_
    obtain ⟨throwing, -, rfl⟩ := List.mem_map.mp inside
    obtain ⟨throwing', -, rfl⟩ := List.mem_map.mp inside'
    exact .left _ _ before

theorem guardPairs_nodup (member : Node) : member.guardPairs.Nodup := by
  refine member.guardPairs_pairwise.imp ?_
  intro p q before same
  obtain first | ⟨-, second⟩ := Prod.lex_def.mp before
  · exact first.ne (congrArg Prod.fst same)
  · exact second.ne (congrArg Prod.snd same)

theorem reports_entry {branching condition throwing : Node} {fallback : String}
    (conditional : branching.child? "condition" = some condition) :
    Reports fallback branching throwing
      ⟨condition.trimmedText, throwing.thrownType?.getD fallback⟩ where
  condition := ⟨condition, conditional, rfl⟩
  created := by
    intro type creates
    rw [thrownType?_eq_some_iff.mpr ⟨type, creates, rfl⟩, Option.getD_some]
  other := by
    intro none
    have unknown : throwing.thrownType? = .none := by
      refine Option.eq_none_iff_forall_ne_some.mpr fun s thrown => ?_
      obtain ⟨type, creates, -⟩ := thrownType?_eq_some_iff.mp thrown
      exact none type creates
    rw [unknown, Option.getD_none]

theorem guardsOfIf_forall₂ (fallback : String) (branching : Node) :
    List.Forall₂ (Reports fallback branching) branching.guardedThrows
      (branching.guardsOfIf fallback) := by
  cases conditional : branching.child? "condition" with
  | none =>
    simp only [guardedThrows, guardsOfIf, conditional]
    exact .nil
  | some condition =>
    cases consequent : branching.child? "consequence" with
    | none =>
      simp only [guardedThrows, guardsOfIf, conditional, consequent]
      exact .nil
    | some consequence =>
      simp only [guardedThrows, guardsOfIf, conditional, consequent]
      exact List.forall₂_map_right_iff.mpr
        (List.forall₂_same.mpr fun throwing _ => reports_entry conditional)

theorem exceptionConditions_forall₂ (member : Node) (fallback : String) :
    List.Forall₂ (fun p => Reports fallback p.1 p.2) member.guardPairs
      (member.exceptionConditions fallback) := by
  unfold guardPairs exceptionConditions
  -- The induction is on the `if` statements, which have their throws and entries next to each other.
  induction member.descendants.filter fun n => n.kind == "if_statement" with
  | nil => exact .nil
  | cons branching rest ih =>
    rw [List.flatMap_cons, List.flatMap_cons]
    refine List.rel_append ?_ ih
    exact List.forall₂_map_left_iff.mpr (guardsOfIf_forall₂ fallback branching)

/-! ### Branches -/

theorem Guards.child?_consequence {member branching throwing other : Node}
    (guards : Guards member branching throwing) (child : other ∈ branching.children)
    (inside : throwing = other ∨ other ∈ throwing.ancestors) :
    branching.child? "consequence" = some other := by
  obtain ⟨consequence, consequent, guarded⟩ := guards.guarded
  -- No node is inside of two children, so this child is the consequence.
  have same : other = consequence :=
    sibling_of_address child (mem_children_of_child? consequent) (mem_subtree_iff.mpr inside)
      (mem_subtree_iff.mpr guarded) rfl
  rw [same, consequent]

theorem Guards.not_alternative {member branching throwing other : Node}
    (guards : Guards member branching throwing) (child : other ∈ branching.children)
    (alternative : other.field? = some "alternative") :
    ¬(throwing = other ∨ other ∈ throwing.ancestors) := by
  intro inside
  have consequent := List.find?_some (guards.child?_consequence child inside)
  rw [beq_iff_eq, alternative] at consequent
  exact absurd consequent (by decide)

/-! ### The correspondence -/

/-- Where every pair is listed once, a `throw` is listed as often as it has an `if` statement. -/
theorem ncard_guards {member : Node} {pairs : List (Node × Node)} (once : pairs.Nodup)
    (all : ∀ b t, (b, t) ∈ pairs ↔ Guards member b t) (throwing : Node) :
    Set.ncard {i : Fin pairs.length | (pairs.get i).2 = throwing} =
      Set.ncard {branching | Guards member branching throwing} := by
  refine Set.ncard_congr (fun i _ => (pairs.get i).1) ?_ ?_ ?_
  · rintro i rfl
    exact (all _ _).mp (pairs.get_mem i)
  · intro i j second second' first
    exact List.nodup_iff_injective_get.mp once (Prod.ext first (second.trans second'.symm))
  · intro branching guards
    obtain ⟨i, found⟩ := List.mem_iff_get.mp ((all branching throwing).mpr guards)
    exact ⟨i, congrArg Prod.snd found, congrArg Prod.fst found⟩

/-- The entries of a member stand for the pairs of an `if` statement and a `throw` that it guards:
each pair has one entry, and the entries are in document order, first of the `if` statements and then
of the throws. So a `throw` has as many entries as `if` statements that guard it, and it has none
for an `if` statement in whose alternative it is. -/
theorem exceptionConditions_guarded (member : Node) (fallback : String) :
    ∃ pairs : List (Node × Node),
      (∀ b t, (b, t) ∈ pairs ↔ Guards member b t) ∧
      pairs.Pairwise (Prod.Lex Precedes Precedes) ∧
      List.Forall₂ (fun p => Reports fallback p.1 p.2) pairs
        (member.exceptionConditions fallback) ∧
      (∀ throwing, Set.ncard {i : Fin pairs.length | (pairs.get i).2 = throwing} =
        Set.ncard {branching | Guards member branching throwing}) ∧
      ∀ b t, ∀ other ∈ b.children, other.field? = some "alternative" →
        (t = other ∨ other ∈ t.ancestors) → (b, t) ∉ pairs := by
  refine ⟨member.guardPairs, fun b t => mem_guardPairs, member.guardPairs_pairwise,
    exceptionConditions_forall₂ member fallback, ?_, ?_⟩
  · exact ncard_guards member.guardPairs_nodup fun b t => mem_guardPairs
  · intro b t other child alternative inside paired
    exact (mem_guardPairs.mp paired).not_alternative child alternative inside

/-! ### A throw under two conditions -/

/-- `void M() { if (a) { if (b) throw new E(); } else throw x; }` -/
def guardingMethod : Tree :=
  firstRowTree "method_declaration" none 0
    "void M() \x7b if (a) \x7b if (b) throw new E(); \x7d else throw x; \x7d"
    [firstRowTree "predefined_type" (some "returns") 0 "void" [],
      firstRowTree "identifier" (some "name") 5 "M" [],
      firstRowTree "parameter_list" (some "parameters") 6 "()" [],
      firstRowTree "block" (some "body") 9
        "\x7b if (a) \x7b if (b) throw new E(); \x7d else throw x; \x7d"
        [firstRowTree "if_statement" none 11
          "if (a) \x7b if (b) throw new E(); \x7d else throw x;"
          [firstRowTree "identifier" (some "condition") 15 "a" [],
            firstRowTree "block" (some "consequence") 18 "\x7b if (b) throw new E(); \x7d"
              [firstRowTree "if_statement" none 20 "if (b) throw new E();"
                [firstRowTree "identifier" (some "condition") 24 "b" [],
                  firstRowTree "throw_statement" (some "consequence") 27 "throw new E();"
                    [firstRowTree "object_creation_expression" none 33 "new E()"
                      [firstRowTree "identifier" (some "type") 37 "E" [],
                        firstRowTree "argument_list" (some "arguments") 38 "()" []]]]],
            firstRowTree "throw_statement" (some "alternative") 49 "throw x;"
              [firstRowTree "identifier" none 55 "x" []]]]]

/-- The first `throw` is reported under both conditions, the second one under none. -/
theorem guardingMethod_reported :
    (root guardingMethod).exceptionConditions "Exception" = [⟨"a", "E"⟩, ⟨"b", "E"⟩] ∧
      ∃ pairs : List (Node × Node), pairs.length = 2 ∧
        ∀ b t, (b, t) ∈ pairs ↔ Guards (root guardingMethod) b t := by
  have entries : (root guardingMethod).exceptionConditions "Exception" =
      [⟨"a", "E"⟩, ⟨"b", "E"⟩] := by decide +kernel
  obtain ⟨pairs, all, -, reported, -, -⟩ :=
    exceptionConditions_guarded (root guardingMethod) "Exception"
  rw [entries] at reported
  exact ⟨entries, pairs, reported.length_eq, all⟩

end Node

end ClassAtlas
