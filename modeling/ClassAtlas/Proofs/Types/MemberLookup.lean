import ClassAtlas.Proofs.Names.Precedence
import ClassAtlas.Proofs.Types.Inheritance
import Mathlib.Data.List.Perm.Subperm

/-!
# Lookup of members

A lookup goes from a type to its base class, from there to the next one, and ends where there is
none or where a type comes again. It finds what the first member gives: of the nearest type, in its
first declaration with such a member. So also a circle of base classes is looked through once.
-/
namespace ClassAtlas

namespace Model

variable {m : Model}

/-! ### The chain of base classes -/

/-- The type that a number of steps to the base class leads to. -/
def baseAfter? (m : Model) (id : TypeId) : Nat → Option TypeId
  | 0 => some id
  | k + 1 => (m.baseAfter? id k).bind m.baseClass?

/-- A type and its base classes in turn, up to where there is no further one or one of them comes
again. -/
structure IsBaseChain (m : Model) (id : TypeId) (chain : List TypeId) : Prop where
  reached : ∀ k < chain.length, chain[k]? = m.baseAfter? id k
  different : chain.Nodup
  ends : ∀ c, m.baseAfter? id chain.length = some c → c ∈ chain

theorem baseAfter?_succ (id : TypeId) (k : Nat) :
    m.baseAfter? id (k + 1) = (m.baseClass? id).bind fun base => m.baseAfter? base k := by
  induction k with
  | zero => simp [baseAfter?]
  | succ k ih =>
    rw [baseAfter?, ih, Option.bind_assoc]
    rfl

theorem baseClass?_lt_size {id base : TypeId} (found : m.baseClass? id = some base) :
    base < m.table.size := by
  obtain ⟨t, -, chosen⟩ := List.exists_of_findSome?_eq_some found
  split at chosen
  · split at chosen
    next inheritable =>
      cases chosen
      obtain ⟨s, there⟩ := Option.isSome_iff_exists.mp (Option.isSome_of_any inheritable)
      exact (List.getElem?_eq_some_iff.mp there).1
    · cases chosen
  · cases chosen

/-- Two such chains cannot go on from one another: the shorter one ends where a type comes again. -/
theorem IsBaseChain.length_le {id : TypeId} {chain other : List TypeId}
    (isChain : m.IsBaseChain id chain) (isOther : m.IsBaseChain id other) :
    other.length ≤ chain.length := by
  by_contra longer
  have known : chain.length < other.length := Nat.lt_of_not_le longer
  obtain ⟨c, next⟩ : ∃ c, other[chain.length]? = some c := ⟨_, List.getElem?_eq_getElem known⟩
  have again := isChain.ends c (isOther.reached _ known ▸ next)
  obtain ⟨k, there⟩ := List.mem_iff_getElem?.mp again
  have before : k < chain.length := (List.getElem?_eq_some_iff.mp there).1
  have there' : other[k]? = some c := by
    rw [isOther.reached k (Nat.lt_trans before known), ← isChain.reached k before, there]
  have same := (List.getElem?_inj known isOther.different).mp (next.trans there'.symm)
  exact Nat.ne_of_gt before same

theorem IsBaseChain.unique {id : TypeId} {chain other : List TypeId}
    (isChain : m.IsBaseChain id chain) (isOther : m.IsBaseChain id other) : chain = other := by
  have lengths : chain.length = other.length :=
    Nat.le_antisymm (isOther.length_le isChain) (isChain.length_le isOther)
  refine List.ext_getElem? fun k => ?_
  by_cases known : k < chain.length
  · rw [isChain.reached k known, isOther.reached k (lengths ▸ known)]
  · have outside := Nat.le_of_not_lt known
    rw [List.getElem?_eq_none outside, List.getElem?_eq_none (lengths ▸ outside)]

/-- The types that a walk still goes through when it comes to a type and has seen others before. -/
structure WalksFrom (m : Model) (seen : List TypeId) (id : TypeId) (chain : List TypeId) : Prop where
  reached : ∀ k < chain.length, chain[k]? = m.baseAfter? id k
  different : chain.Nodup
  fresh : ∀ c ∈ chain, c < m.table.size ∧ c ∉ seen
  ends : ∀ c, m.baseAfter? id chain.length = some c → c ∈ chain ∨ c ∈ seen

section

variable {seen : List TypeId} {id : TypeId}

theorem WalksFrom.again (old : id ∈ seen) : m.WalksFrom seen id [] where
  reached _ known := absurd known (Nat.not_lt_zero _)
  different := List.nodup_nil
  fresh _ := nofun
  ends _ same := .inr (Option.some.inj same ▸ old)

theorem WalksFrom.last (known : id < m.table.size) (fresh : id ∉ seen)
    (none_further : m.baseClass? id = none) : m.WalksFrom seen id [id] where
  reached k known := by
    obtain rfl := Nat.lt_one_iff.mp known
    rfl
  different := List.nodup_singleton id
  fresh := List.forall_mem_singleton.mpr ⟨known, fresh⟩
  ends c further := by
    rw [List.length_singleton, baseAfter?_succ, none_further] at further
    cases further

theorem WalksFrom.step {base : TypeId} {chain : List TypeId} (known : id < m.table.size)
    (fresh : id ∉ seen) (further : m.baseClass? id = some base)
    (walks : m.WalksFrom (id :: seen) base chain) : m.WalksFrom seen id (id :: chain) where
  reached k known := by
    cases k with
    | zero => rfl
    | succ k =>
      rw [baseAfter?_succ, further, List.getElem?_cons_succ, Option.bind_some]
      exact walks.reached k (Nat.lt_of_succ_lt_succ known)
  different := List.nodup_cons.mpr ⟨fun again => (walks.fresh id again).2 List.mem_cons_self,
    walks.different⟩
  fresh := by
    refine List.forall_mem_cons.mpr ⟨⟨known, fresh⟩, fun c member => ?_⟩
    obtain ⟨known', new⟩ := walks.fresh c member
    exact ⟨known', fun old => new (List.mem_cons_of_mem id old)⟩
  ends c comes := by
    rw [List.length_cons, baseAfter?_succ, further, Option.bind_some] at comes
    obtain member | old := walks.ends c comes
    · exact .inl (List.mem_cons_of_mem id member)
    · obtain rfl | old := List.mem_cons.mp old
      · exact .inl List.mem_cons_self
      · exact .inr old

end

theorem walksFrom_baseChainFrom (seen : List TypeId) {id : TypeId} (known : id < m.table.size) :
    m.WalksFrom seen id (m.baseChainFrom seen id) := by
  -- The induction is that of the walk: fewer and fewer types have not been seen.
  induction seen, id using baseChainFrom.induct m with
  | case1 seen id fresh ih =>
    rw [baseChainFrom, dif_pos fresh]
    cases further : m.baseClass? id with
    | none => exact .last known fresh.2 further
    | some base => exact .step known fresh.2 further (ih base (baseClass?_lt_size further))
  | case2 seen id again =>
    rw [baseChainFrom, dif_neg again]
    exact .again (Decidable.not_not.mp fun new => again ⟨known, new⟩)

theorem isBaseChain_baseChain {id : TypeId} (known : id < m.table.size) :
    m.IsBaseChain id (m.baseChain id) := by
  obtain ⟨reached, different, -, ends⟩ := m.walksFrom_baseChainFrom [] known
  exact ⟨reached, different, fun c comes => (ends c comes).resolve_right List.not_mem_nil⟩

theorem length_baseChain_le {id : TypeId} (known : id < m.table.size) :
    (m.baseChain id).length ≤ m.table.size := by
  obtain ⟨-, different, fresh, -⟩ := m.walksFrom_baseChainFrom [] known
  have within : m.baseChain id ⊆ List.range m.table.size := fun c member =>
    List.mem_range.mpr (fresh c member).1
  have fewer := (List.subperm_of_subset different within).length_le
  rwa [List.length_range] at fewer

/-! ### The first member -/

/-- The member is a property, field or event of a given name, and `t` is the type written for it. -/
inductive DeclaresValue (m : Model) (name : String) : Node → TypeRef → Prop
  | property {n : Node} {t : TypeRef} : n.kind = "property_declaration" → n.name? = some name →
      m.writtenType? n = some t → DeclaresValue m name n t
  | field {n declaration d : Node} {t : TypeRef} :
      n.kind ∈ ["field_declaration", "event_field_declaration"] →
      n.childOfKind? ["variable_declaration"] = some declaration →
      d ∈ declaration.namedChildren → d.kind = "variable_declarator" → d.name? = some name →
      m.writtenType? declaration = some t → DeclaresValue m name n t

/-- The member is a method of a given name, and `t` is the type written for what it returns. -/
structure DeclaresMethod (m : Model) (name : String) (n : Node) (t : TypeRef) : Prop where
  kind : n.kind = "method_declaration"
  named : n.name? = some name
  returns : n.writtenReturnType?.bind m.resolve? = some t

theorem fieldDeclaration?_eq_some_iff {n declaration : Node} {name : String} :
    n.fieldDeclaration? name = some declaration ↔
      n.childOfKind? ["variable_declaration"] = some declaration ∧
        ∃ d ∈ declaration.namedChildren, d.kind = "variable_declarator" ∧ d.name? = some name := by
  simp [Node.fieldDeclaration?, Option.filter_eq_some_iff]

theorem valueType?_eq_some_iff {name : String} {n : Node} {t : TypeRef} :
    m.valueType? name n = some t ↔ m.DeclaresValue name n t := by
  unfold valueType?
  constructor
  · have ofField (kind : n.kind ∈ ["field_declaration", "event_field_declaration"])
        (gives : (n.fieldDeclaration? name).bind m.writtenType? = some t) :
        m.DeclaresValue name n t := by
      obtain ⟨declaration, found, written⟩ := Option.bind_eq_some_iff.mp gives
      obtain ⟨held, d, member, declarator, named⟩ := fieldDeclaration?_eq_some_iff.mp found
      exact .field kind held member declarator named written
    intro gives
    split at gives
    next kind =>
      split at gives
      next named => exact .property kind (eq_of_beq named) gives
      next => cases gives
    next kind => exact ofField (by simp [kind]) gives
    next kind => exact ofField (by simp [kind]) gives
    next => cases gives
  · intro declares
    cases declares with
    | property kind named written => simp [kind, named, written]
    | field kind held member declarator named written =>
      have found := fieldDeclaration?_eq_some_iff.mpr ⟨held, _, member, declarator, named⟩
      obtain kind | kind := List.mem_pair.mp kind
      all_goals simp [kind, found, written]

theorem returnType?_eq_some_iff {name : String} {n : Node} {t : TypeRef} :
    m.returnType? name n = some t ↔ m.DeclaresMethod name n t := by
  unfold returnType? methodSymbol?
  constructor
  · intro gives
    obtain ⟨method, facts, returned⟩ := Option.bind_eq_some_iff.mp gives
    split at facts
    next kind =>
      obtain ⟨own, named, rfl⟩ := Option.map_eq_some_iff.mp facts
      split at returned
      next same => exact ⟨eq_of_beq kind, eq_of_beq same ▸ named, returned⟩
      next => cases returned
    next => cases facts
  · rintro ⟨kind, named, returns⟩
    simp [kind, named, returns]

/-- Of the types of a chain, the first one with a declaration in which a member gives something, of
its declarations the first such one, and of the members of this one the first such one: that gives
`t`. -/
def FirstMember (m : Model) (gives : Node → TypeRef → Prop) (chain : List TypeId) (t : TypeRef) :
    Prop :=
  FirstOf (fun c t => ∃ s, m.table.get? c = some s ∧
    FirstOf (fun d t => FirstOf gives d.members t) s.declarations t) chain t

/-- A lookup along a chain has found what the first member gives, and nothing if none gives
anything. -/
structure FindsFirst (m : Model) (gives : Node → TypeRef → Prop) (chain : List TypeId)
    (found? : Option TypeRef) : Prop where
  first : ∀ t, found? = some t ↔ m.FirstMember gives chain t
  nothing : found? = none ↔ ∀ c ∈ chain, ∀ s, m.table.get? c = some s →
    ∀ d ∈ s.declarations, ∀ n ∈ d.members, ∀ t, ¬gives n t

section

variable {ofMember? : Node → Option TypeRef} {gives : Node → TypeRef → Prop}
  (same : ∀ n t, ofMember? n = some t ↔ gives n t)
include same

theorem ownMember?_eq_some_iff {c : TypeId} {t : TypeRef} :
    m.ownMember? ofMember? c = some t ↔ ∃ s, m.table.get? c = some s ∧
      FirstOf (fun d t => FirstOf gives d.members t) s.declarations t := by
  unfold ownMember?
  cases found : m.table.get? c with
  | none => simp
  | some s =>
    rw [Option.map_some, Option.getD_some, findSome?_flatMap]
    simp only [Option.some.injEq, exists_eq_left']
    refine findSome?_eq_some_iff_firstOf fun d _ t => ?_
    exact findSome?_eq_some_iff_firstOf fun n _ t => same n t

theorem ownMember?_eq_none_iff {c : TypeId} :
    m.ownMember? ofMember? c = none ↔ ∀ s, m.table.get? c = some s →
      ∀ d ∈ s.declarations, ∀ n ∈ d.members, ∀ t, ¬gives n t := by
  unfold ownMember?
  cases found : m.table.get? c with
  | none => simp
  | some s =>
    rw [Option.map_some, Option.getD_some, findSome?_eq_none_iff_offers fun n _ t => same n t]
    simp only [List.forall_mem_flatMap, Option.some.injEq, forall_eq']

theorem findsFirst (id : TypeId) :
    m.FindsFirst gives (m.baseChain id) ((m.inheritedMembers id).findSome? ofMember?) := by
  rw [findSome?_inheritedMembers]
  constructor
  · intro t
    exact findSome?_eq_some_iff_firstOf fun c _ t => ownMember?_eq_some_iff same
  · rw [List.findSome?_eq_none_iff]
    simp only [ownMember?_eq_none_iff same]

end

/-- The lookup of a member ends for every type. There is one chain from a type along its base
classes up to the first repetition, it is no longer than the table, and what is found is what the
first member with the name and with a type that denotes something gives. -/
theorem members_nearestFirst (m : Model) (id : TypeId) (known : id < m.table.size) :
    ∃ chain, (∀ other, m.IsBaseChain id other ↔ other = chain) ∧ m.baseChain id = chain ∧
      chain.length ≤ m.table.size ∧
      (∀ name, m.FindsFirst (m.DeclaresValue name) chain (m.memberType? id name)) ∧
      ∀ name, m.FindsFirst (m.DeclaresMethod name) chain (m.methodReturnType? id name) := by
  refine ⟨m.baseChain id, fun other => ⟨fun isChain => ?_, ?_⟩, rfl, length_baseChain_le known,
    fun name => ?_, fun name => ?_⟩
  · exact isChain.unique (isBaseChain_baseChain known)
  · rintro rfl
    exact isBaseChain_baseChain known
  · exact findsFirst (fun _ _ => valueType?_eq_some_iff) id
  · exact findsFirst (fun _ _ => returnType?_eq_some_iff) id

end Model

/-! ### Two classes that inherit from one another -/

/-- `partial class B : A { var held; }` -/
def circularPart : Tree :=
  firstRowTree "class_declaration" none 16 "partial class B : A \x7b var held; \x7d"
    [firstRowTree "modifier" none 16 "partial" [],
      firstRowTree "identifier" (some "name") 30 "B" [],
      firstRowTree "base_list" none 32 ": A" [firstRowTree "identifier" none 34 "A" []],
      firstRowTree "declaration_list" (some "body") 36 "\x7b var held; \x7d"
        [firstRowTree "field_declaration" none 38 "var held;"
          [firstRowTree "variable_declaration" none 38 "var held"
            [firstRowTree "implicit_type" (some "type") 38 "var" [],
              firstRowTree "variable_declarator" none 42 "held"
                [firstRowTree "identifier" (some "name") 42 "held" []]]]]]

/-- `class A : B { } partial class B : A { var held; } partial class B { int held; }` -/
def circularFile : Tree :=
  firstRowTree "compilation_unit" none 0
    ("class A : B \x7b \x7d " ++ circularPart.info.text ++
      " partial class B \x7b int held; \x7d")
    [firstRowTree "class_declaration" none 0 "class A : B \x7b \x7d"
      [firstRowTree "identifier" (some "name") 6 "A" [],
        firstRowTree "base_list" none 8 ": B" [firstRowTree "identifier" none 10 "B" []],
        firstRowTree "declaration_list" (some "body") 12 "\x7b \x7d" []],
      circularPart,
      firstRowTree "class_declaration" none 50 "partial class B \x7b int held; \x7d"
        [firstRowTree "modifier" none 50 "partial" [],
          firstRowTree "identifier" (some "name") 64 "B" [],
          firstRowTree "declaration_list" (some "body") 66 "\x7b int held; \x7d"
            [firstRowTree "field_declaration" none 68 "int held;"
              [firstRowTree "variable_declaration" none 68 "int held"
                [firstRowTree "predefined_type" (some "type") 68 "int" [],
                  firstRowTree "variable_declarator" none 72 "held"
                    [firstRowTree "identifier" (some "name") 72 "held" []]]]]]]

/-- The circle ends after the second class, whose first field has no type. -/
theorem circularFile_held :
    0 < (Model.ofTree circularFile).table.size ∧
      (Model.ofTree circularFile).IsBaseChain 0 [0, 1] ∧
      (Model.ofTree circularFile).baseAfter? 0 2 = some 0 ∧
      (Model.ofTree circularFile).FirstMember ((Model.ofTree circularFile).DeclaresValue "held")
        [0, 1] intType ∧
      ∀ c ∈ [0, 1], ∀ s, (Model.ofTree circularFile).table.get? c = some s →
        ∀ d ∈ s.declarations, ∀ n ∈ d.members, ∀ t,
          ¬(Model.ofTree circularFile).DeclaresMethod "held" n t := by
  have known : 0 < (Model.ofTree circularFile).table.size := by decide +kernel
  have walked : (Model.ofTree circularFile).baseChain 0 = [0, 1] := by decide +kernel
  have circle : (Model.ofTree circularFile).baseAfter? 0 2 = some 0 := by decide +kernel
  have held : (Model.ofTree circularFile).memberType? 0 "held" = some intType := by
    decide +kernel
  have no_method : (Model.ofTree circularFile).methodReturnType? 0 "held" = none := by
    decide +kernel
  obtain ⟨chain, unique, found, -, values, methods⟩ :=
    Model.members_nearestFirst (Model.ofTree circularFile) 0 known
  obtain rfl := walked.symm.trans found
  exact ⟨known, (unique [0, 1]).mpr rfl, circle, ((values "held").first intType).mp held,
    (methods "held").nothing.mp no_method⟩

end ClassAtlas
