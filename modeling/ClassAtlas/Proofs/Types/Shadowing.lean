import ClassAtlas.Proofs.Symbols.Identity
import ClassAtlas.Proofs.Types.Inference

/-!
# Variables that hide others

The scope keeps the variables whose types are known. So a variable hides what has its name before it
exactly if its own type is known: where it is not, the name goes on to stand for an earlier variable
or for a member of the type around it.
-/
namespace ClassAtlas

/-- The type of the last variable with a name and a known type. -/
def lastKnown? (name : String) (vars : List LocalVariable) : Option TypeRef :=
  vars.reverse.findSome? fun v => if v.name = name then v.type? else none

theorem lastKnown?_append (name : String) (vars more : List LocalVariable) :
    lastKnown? name (vars ++ more) = (lastKnown? name more).or (lastKnown? name vars) := by
  simp [lastKnown?, List.findSome?_append]

theorem lastKnown?_singleton (v : LocalVariable) : lastKnown? v.name [v] = v.type? := by
  simp [lastKnown?]

theorem lastKnown?_eq_none_iff {name : String} {vars : List LocalVariable} :
    lastKnown? name vars = none ↔ ∀ v ∈ vars, v.name = name → v.type? = none := by
  simp [lastKnown?, List.findSome?_eq_none_iff]

/-- A lookup finds the last known of the variables that came in later. -/
theorem Scope.lookup_extend (scope : Scope) (name : String) (vars : List LocalVariable) :
    (scope.extend vars).lookup name = (lastKnown? name vars).or (scope.lookup name) := by
  induction vars generalizing scope with
  | nil => rfl
  | cons v rest ih =>
    -- The first variable matters only to those lookups that the others leave open.
    have own : (scope.extend [v]).lookup name = (lastKnown? name [v]).or (scope.lookup name) := by
      cases known : v.type? with
      | none => simp [Scope.extend, lastKnown?, known]
      | some t =>
        by_cases same : v.name = name
        · simp [Scope.extend, lastKnown?, known, same]
        · have other : (name == v.name) = false := beq_false_of_ne (Ne.symm same)
          simp [Scope.extend, lastKnown?, known, same, List.lookup_cons, other]
    rw [← List.singleton_append, Scope.extend_append, ih, own, lastKnown?_append, Option.or_assoc]

namespace Model

variable {m : Model}

/-- The variables of a member before a position among its local ones, its parameters first. -/
def variablesBefore (m : Model) (member : Node) (position : Nat) : List LocalVariable :=
  m.parameterLocals member ++ (m.declaredLocals member).take position

theorem lookup_scopeAfter (member : Node) (count : Nat) (name : String) :
    (m.scopeAfter member count).lookup name = lastKnown? name (m.variablesBefore member count) := by
  rw [scopeAfter, ← Scope.extend_append, Scope.lookup_extend, variablesBefore]
  simp

/-- Between a variable and a later position, variables of other names change nothing. -/
theorem lastKnown?_variablesBefore {member : Node} {position count : Nat} {v : LocalVariable}
    (here : (m.declaredLocals member)[position]? = some v) (later : position < count)
    (last : ∀ other w, position < other → other < count →
      (m.declaredLocals member)[other]? = some w → w.name ≠ v.name) :
    lastKnown? v.name (m.variablesBefore member count) =
      v.type?.or (lastKnown? v.name (m.variablesBefore member position)) := by
  obtain ⟨count, rfl⟩ := Nat.exists_eq_add_of_le (Nat.succ_le_of_lt later)
  have others : lastKnown? v.name (((m.declaredLocals member).drop (position + 1)).take count) =
      none := by
    rw [lastKnown?_eq_none_iff]
    intro w member same
    obtain ⟨index, there⟩ := List.mem_iff_getElem?.mp member
    rw [List.getElem?_take] at there
    split at there
    · next inside =>
      rw [List.getElem?_drop] at there
      exact absurd same (last (position + 1 + index) w (by omega) (by omega) there)
    · cases there
  have split : m.variablesBefore member (position + 1 + count) =
      m.variablesBefore member position ++ [v] ++
        ((m.declaredLocals member).drop (position + 1)).take count := by
    simp [variablesBefore, List.take_add, List.take_add_one, here]
  rw [split, lastKnown?_append, others, Option.none_or, lastKnown?_append, lastKnown?_singleton]

theorem typeOf?_identifier {n : Node} (scope : Scope) (kind : n.kind = "identifier") :
    m.typeOf? scope n = (scope.lookup n.trimmedText).or
      ((m.enclosingType? n).bind fun owner => m.memberType? owner n.trimmedText) := by
  rw [typeOf?]
  simp only [kind]

/-- What the name of a variable stands for after it: the variable itself if its type is known. A
variable of unknown type leaves the name to the last known variable before it, and then to a member,
so the name has no type exactly if there is no such variable and no such member. -/
theorem typeOf?_hidden (m : Model) (member n : Node) (position count : Nat) (v : LocalVariable)
    (here : (m.declaredLocals member)[position]? = some v) (later : position < count)
    (last : ∀ other w, position < other → other < count →
      (m.declaredLocals member)[other]? = some w → w.name ≠ v.name)
    (kind : n.kind = "identifier") (name : n.trimmedText = v.name) :
    m.typeOf? (m.scopeAfter member count) n =
        (v.type?.or (lastKnown? v.name (m.variablesBefore member position))).or
          ((m.enclosingType? n).bind fun owner => m.memberType? owner v.name) ∧
      (v.type? = none →
        (m.typeOf? (m.scopeAfter member count) n = none ↔
          (∀ w ∈ m.variablesBefore member position, w.name = v.name → w.type? = none) ∧
            ∀ owner, m.enclosingType? n = some owner → m.memberType? owner v.name = none)) := by
  have stands : m.typeOf? (m.scopeAfter member count) n =
      (v.type?.or (lastKnown? v.name (m.variablesBefore member position))).or
        ((m.enclosingType? n).bind fun owner => m.memberType? owner v.name) := by
    rw [typeOf?_identifier _ kind, name, lookup_scopeAfter,
      lastKnown?_variablesBefore here later last]
  refine ⟨stands, fun unknown => ?_⟩
  rw [stands, unknown, Option.none_or, Option.or_eq_none_iff, lastKnown?_eq_none_iff,
    Option.bind_eq_none_iff]

end Model

/-! ### A variable named like a field -/

/-- `{ var held = Find(); var copy = held; }` -/
def hidingBody : Tree :=
  firstRowTree "block" (some "body") 52 "\x7b var held = Find(); var copy = held; \x7d"
    [firstRowTree "local_declaration_statement" none 54 "var held = Find();"
      [firstRowTree "variable_declaration" none 54 "var held = Find()"
        [firstRowTree "implicit_type" (some "type") 54 "var" [],
          firstRowTree "variable_declarator" none 58 "held = Find()"
            [firstRowTree "identifier" (some "name") 58 "held" [],
              firstRowTree "invocation_expression" none 65 "Find()"
                [firstRowTree "identifier" (some "function") 65 "Find" [],
                  firstRowTree "argument_list" (some "arguments") 69 "()" []]]]],
      firstRowTree "local_declaration_statement" none 73 "var copy = held;"
        [firstRowTree "variable_declaration" none 73 "var copy = held"
          [firstRowTree "implicit_type" (some "type") 73 "var" [],
            firstRowTree "variable_declarator" none 77 "copy = held"
              [firstRowTree "identifier" (some "name") 77 "copy" [],
                firstRowTree "identifier" none 84 "held" []]]]]

/-- `class Page { Order held; void Run() { var held = Find(); var copy = held; } }` -/
def hidingPage : Tree :=
  firstRowTree "class_declaration" none 16
    "class Page \x7b Order held; void Run() \x7b var held = Find(); var copy = held; \x7d \x7d"
    [firstRowTree "identifier" (some "name") 22 "Page" [],
      firstRowTree "declaration_list" (some "body") 27
        "\x7b Order held; void Run() \x7b var held = Find(); var copy = held; \x7d \x7d"
        [firstRowTree "field_declaration" none 29 "Order held;"
          [firstRowTree "variable_declaration" none 29 "Order held"
            [firstRowTree "identifier" (some "type") 29 "Order" [],
              firstRowTree "variable_declarator" none 35 "held"
                [firstRowTree "identifier" (some "name") 35 "held" []]]],
          firstRowTree "method_declaration" none 41
            "void Run() \x7b var held = Find(); var copy = held; \x7d"
            [firstRowTree "predefined_type" (some "returns") 41 "void" [],
              firstRowTree "identifier" (some "name") 46 "Run" [],
              firstRowTree "parameter_list" (some "parameters") 49 "()" [],
              hidingBody]]]

/-- `class Order { } class Page { Order held; void Run() { var held = Find(); var copy = held; } }`
-/
def hidingFile : Tree :=
  firstRowTree "compilation_unit" none 0 ("class Order \x7b \x7d " ++ hidingPage.info.text)
    [firstRowTree "class_declaration" none 0 "class Order \x7b \x7d"
      [firstRowTree "identifier" (some "name") 6 "Order" [],
        firstRowTree "declaration_list" (some "body") 12 "\x7b \x7d" []],
      hidingPage]

def hidingMember : Node :=
  ((Node.root hidingFile).subtree.find? fun n => n.kind == "method_declaration").getD
    (.root hidingFile)

/-- The last node of the file, the value of `copy`. -/
def hidingUse : Node := (Node.root hidingFile).subtree.getLast?.getD (.root hidingFile)

/-- The type of the first variable is unknown, and the second one gets the type of the field. -/
theorem hidingFile_resurfaces :
    (Model.ofTree hidingFile).declaredLocals hidingMember =
        [⟨"held", none⟩, ⟨"copy", some (.declared 0 [])⟩] ∧
      hidingUse.kind = "identifier" ∧ hidingUse.trimmedText = "held" ∧
      (Model.ofTree hidingFile).memberType? 1 "held" = some (.declared 0 []) ∧
      (Model.ofTree hidingFile).typeOf?
          ((Model.ofTree hidingFile).scopeAfter hidingMember 1) hidingUse =
        some (.declared 0 []) := by
  have locals : (Model.ofTree hidingFile).declaredLocals hidingMember =
      [⟨"held", none⟩, ⟨"copy", some (.declared 0 [])⟩] := by decide +kernel
  have kind : hidingUse.kind = "identifier" := by decide +kernel
  have name : hidingUse.trimmedText = "held" := by decide +kernel
  have owner : (Model.ofTree hidingFile).enclosingType? hidingUse = some 1 := by decide +kernel
  have field : (Model.ofTree hidingFile).memberType? 1 "held" = some (.declared 0 []) := by
    decide +kernel
  have before : lastKnown? "held" ((Model.ofTree hidingFile).variablesBefore hidingMember 0) =
      none := by decide +kernel
  have stands := (Model.typeOf?_hidden (Model.ofTree hidingFile) hidingMember hidingUse 0 1
    ⟨"held", none⟩ (by rw [locals]; rfl) Nat.zero_lt_one (by omega) kind name).1
  rw [before, owner, Option.none_or, Option.none_or, Option.bind_some, field] at stands
  exact ⟨locals, kind, name, field, stands⟩

end ClassAtlas
