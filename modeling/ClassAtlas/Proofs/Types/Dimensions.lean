import ClassAtlas.Model.Locals
import ClassAtlas.Proofs.Layout.Spaces
import ClassAtlas.Proofs.Symbols.FullName

/-!
# Dimensions of arrays

An array type has a rank for the dimensions that its specifier separates by commas, but the rank is
read from the text of the specifier, in which the commas within sizes and comments count as well. So
an array has as many dimensions as its creation exactly where no size and no comment has a comma,
and otherwise more by these commas, in the types that are inferred and in those that are displayed.
-/
namespace ClassAtlas

/-! ### Commas of a text -/

/-- The number of commas in a text. -/
def Text.commas (s : String) : Nat := s.toList.count ','

@[simp] theorem Text.commas_append (s t : String) :
    commas (s ++ t) = commas s + commas t := by
  rw [commas, String.toList_append, List.count_append]
  rfl

/-- With only blanks between its pieces, a text has the commas of its pieces. -/
theorem Apart.commas {pieces : List String} {text : String} (apart : Apart pieces text) :
    Text.commas text = totalOf Text.commas pieces := by
  have none {gap : String} (blank : Text.allBlank gap = true) : Text.commas gap = 0 :=
    List.count_eq_zero.mpr (Text.not_mem_of_allBlank blank (by decide))
  -- Along the pieces; the gap before each of them adds nothing.
  induction apart with
  | blank gap => exact none gap
  | next gap _ ih => rw [Text.commas_append, Text.commas_append, none gap, ih, totalOf_cons]; omega

namespace Node

/-! ### Rank specifiers -/

/-- The rank specifier of an array type. -/
def rankSpecifier? (n : Node) : Option Node := n.childOrKind? "rank" ["array_rank_specifier"]

/-- What the rank specifier of an array type consists of: brackets, commas, sizes and comments. -/
def rankParts (n : Node) : List Node := (n.rankSpecifier?.map children).getD []

/-- The node is a comma that stands in the source. -/
def isComma (n : Node) : Bool := n.kind == "," && !n.isMissing

/-- The number of dimensions of an array type, as the commas of its specifier separate them. -/
def dimensions (n : Node) : Nat := n.rankParts.countP isComma + 1

/-- The number of commas within the sizes and comments of the rank specifier. -/
def innerCommas (n : Node) : Nat :=
  totalOf (fun c => Text.commas c.text) (n.rankParts.filter fun c => !c.isComma)

/-- The text of the rank specifier is that of its parts with only blanks between them, and its
commas are written as such. -/
def RankSpelled (n : Node) : Prop :=
  ∀ rank, n.rankSpecifier? = some rank → Apart (rank.children.map text) rank.text ∧
    ∀ c ∈ rank.children, c.isComma = true → c.text = ","

theorem totalOf_commas {parts : List Node}
    (spelled : ∀ c ∈ parts, c.isComma = true → c.text = ",") :
    totalOf (fun c => Text.commas c.text) parts =
      parts.countP isComma +
        totalOf (fun c => Text.commas c.text) (parts.filter fun c => !c.isComma) := by
  induction parts with
  | nil => rfl
  | cons c rest ih =>
    obtain ⟨own, others⟩ := List.forall_mem_cons.mp spelled
    have rest := ih others
    cases comma : c.isComma with
    | true =>
      have single : Text.commas c.text = 1 := by rw [own comma]; decide
      simp [comma, single]
      omega
    | false =>
      simp [comma]
      omega

/-- The rank counts the dimensions and the commas within the specifier's parts. -/
theorem arrayRank_eq {n : Node} (spelled : n.RankSpelled) :
    n.arrayRank = n.dimensions + n.innerCommas := by
  unfold arrayRank dimensions innerCommas rankParts
  rw [← rankSpecifier?]
  cases specifier : n.rankSpecifier? with
  | none => rfl
  | some rank =>
    obtain ⟨apart, commas⟩ := spelled rank specifier
    -- The text has the commas of the parts, and these are commas themselves or hold some.
    have whole : Text.commas rank.text = totalOf (fun c => Text.commas c.text) rank.children := by
      rw [apart.commas, totalOf_map]
    have counted := totalOf_commas commas
    simp only [Option.map_some, Option.getD_some]
    rw [← Text.commas]
    omega

/-- The sizes and the comments in the rank specifier have no commas. -/
def WithoutInnerCommas (n : Node) : Prop :=
  ∀ c ∈ n.rankParts, c.isComma = false → ',' ∉ c.text.toList

theorem innerCommas_eq_zero_iff {n : Node} : n.innerCommas = 0 ↔ n.WithoutInnerCommas := by
  simp [innerCommas, WithoutInnerCommas, totalOf_eq_zero_iff, Text.commas, List.count_eq_zero]

/-- The array types in which a type is nested, outermost first. -/
inductive ArrayLevels : Node → List Node → Node → Prop
  | element (n : Node) : ArrayLevels n [] n
  | level {n inner element : Node} {levels : List Node} : n.kind = "array_type" →
      n.innerType? = some inner → ArrayLevels inner levels element →
      ArrayLevels n (n :: levels) element

/-- The numbers of dimensions of array types. -/
def writtenRanks (levels : List Node) : List Nat := levels.map dimensions

/-- The numbers of dimensions of array types with the commas within their specifiers added. -/
def countedRanks (levels : List Node) : List Nat := levels.map fun n => n.dimensions + n.innerCommas

theorem map_arrayRank {levels : List Node} (spelled : ∀ n ∈ levels, n.RankSpelled) :
    levels.map arrayRank = countedRanks levels :=
  List.map_congr_left fun n member => arrayRank_eq (spelled n member)

theorem countedRanks_of_without {levels : List Node}
    (without : ∀ n ∈ levels, n.WithoutInnerCommas) : countedRanks levels = writtenRanks levels :=
  List.map_congr_left fun n member => by
    rw [innerCommas_eq_zero_iff.mpr (without n member), Nat.add_zero]

end Node

namespace TypeRef

/-! ### Arrays of arrays -/

/-- Arrays of the given ranks around an element type, outermost first. -/
def inArrays (element : TypeRef) : List Nat → TypeRef
  | [] => element
  | rank :: ranks => .array (element.inArrays ranks) rank

/-- The brackets behind an element type in arrays of the given ranks, outermost first. -/
def brackets : List Nat → String
  | [] => ""
  | rank :: ranks => brackets ranks ++ "[" ++ String.ofList (List.replicate (rank - 1) ',') ++ "]"

theorem display_inArrays (table : SymbolTable) (element : TypeRef) (ranks : List Nat) :
    (element.inArrays ranks).display table = element.display table ++ brackets ranks := by
  induction ranks with
  | nil => simp [inArrays, brackets]
  | cons rank ranks ih => simp [inArrays, brackets, display, ih, String.append_assoc]

theorem commas_brackets (ranks : List Nat) :
    Text.commas (brackets ranks) = totalOf (fun rank => rank - 1) ranks := by
  induction ranks with
  | nil => rfl
  | cons rank ranks ih =>
    have opening : Text.commas "[" = 0 := by decide
    have closing : Text.commas "]" = 0 := by decide
    have between : Text.commas (String.ofList (List.replicate (rank - 1) ',')) = rank - 1 := by
      simp [Text.commas]
    rw [brackets, Text.commas_append, Text.commas_append, Text.commas_append, ih, opening, closing,
      between, totalOf_cons]
    omega

/-- The brackets show the dimensions exactly if no size and no comment has a comma. -/
theorem brackets_countedRanks_iff (levels : List Node) :
    brackets (Node.countedRanks levels) = brackets (Node.writtenRanks levels) ↔
      ∀ n ∈ levels, n.WithoutInnerCommas := by
  constructor
  · intro same
    -- Beyond the commas of the dimensions, the brackets have the inner ones.
    have counts := congrArg Text.commas same
    have more : (fun n : Node => n.dimensions + n.innerCommas - 1) =
        fun n => (n.dimensions - 1) + n.innerCommas := by
      funext n
      have positive : 1 ≤ n.dimensions := Nat.le_add_left 1 _
      omega
    rw [commas_brackets, commas_brackets, Node.countedRanks, Node.writtenRanks, totalOf_map,
      totalOf_map, more, totalOf_add, Nat.add_eq_left, totalOf_eq_zero_iff] at counts
    exact fun n member => Node.innerCommas_eq_zero_iff.mp (counts n member)
  · intro without
    rw [Node.countedRanks_of_without without]

end TypeRef

namespace Model

variable {m : Model}

/-! ### Binding and inference -/

theorem resolve?_array {n : Node} (kind : n.kind = "array_type") :
    m.resolve? n = (n.innerType?.bind m.resolve?).map fun t => .array t n.arrayRank := by
  rw [resolve?]
  simp only [kind]
  cases n.innerType? with
  | none => rfl
  | some inner => rfl

theorem resolve?_inArrays {n element : Node} {levels : List Node}
    (nested : Node.ArrayLevels n levels element) :
    m.resolve? n = (m.resolve? element).map fun t => t.inArrays (levels.map Node.arrayRank) := by
  -- From the outermost array type to the element, one level at a time.
  induction nested with
  | element n => simp [TypeRef.inArrays]
  | @level n inner element levels kind below _ ih =>
    rw [resolve?_array kind, below, Option.bind_some, ih, Option.map_map]
    rfl

theorem typeOf?_creation (scope : Scope) {e : Node} (kind : e.kind = "array_creation_expression") :
    m.typeOf? scope e = m.writtenType? e := by
  rw [typeOf?]
  simp only [kind]

/-! ### Variables -/

theorem mem_declaratorLocals {ds : List Node} {d value : Node} {name : String} {t : Option TypeRef}
    (declared : d ∈ ds) (named : d.name? = some name) (initialized : d.initializer? = some value)
    (typed : ∀ scope, m.typeOf? scope value = t) (scope : Scope) :
    ⟨name, t⟩ ∈ m.declaratorLocals none scope ds := by
  -- A declarator before this one extends the scope, so the induction is over all scopes.
  induction ds generalizing scope with
  | nil => cases declared
  | cons first rest ih =>
    unfold declaratorLocals
    rcases List.mem_cons.mp declared with rfl | later
    · simp [named, initialized, typed]
    · split
      · exact ih later scope
      · exact List.mem_cons_of_mem _ (ih later _)

theorem mem_localsAlong {n : Node} {nodes : List Node} {v : LocalVariable} (member : n ∈ nodes)
    (introduced : ∀ scope, v ∈ m.localsAt scope n) (scope : Scope) :
    v ∈ m.localsAlong scope nodes := by
  induction nodes generalizing scope with
  | nil => cases member
  | cons first rest ih =>
    unfold localsAlong
    rcases List.mem_cons.mp member with rfl | later
    · exact List.mem_append_left _ (introduced scope)
    · exact List.mem_append_right _ (ih later _)

/-- In the body of the member, a variable of the name has no written type but a value. -/
def Initializes (m : Model) (member : Node) (name : String) (value : Node) : Prop :=
  ∃ body declaration d, member.memberBody? = some body ∧ declaration ∈ body.subtree ∧
    declaration.kind = "variable_declaration" ∧ m.explicitType? declaration = none ∧
    d ∈ declaration.declarators ∧ d.name? = some name ∧ d.initializer? = some value

theorem mem_declaredLocals {member value : Node} {name : String} {t : Option TypeRef}
    (initialized : m.Initializes member name value)
    (typed : ∀ scope, m.typeOf? scope value = t) : ⟨name, t⟩ ∈ m.declaredLocals member := by
  obtain ⟨body, declaration, d, computes, below, kind, implicit, declared, named, assigned⟩ :=
    initialized
  unfold declaredLocals
  rw [computes]
  refine mem_localsAlong below (fun scope => ?_) _
  unfold localsAt
  simp only [kind, implicit]
  exact mem_declaratorLocals declared named assigned typed scope

/-! ### Creations -/

/-- What is known of a creation of arrays around an element type, given the array types that it
names, outermost first. -/
structure CreatesArrays (m : Model) (creation : Node) (levels : List Node) (element : TypeRef) :
    Prop where
  inferred : ∀ scope,
    m.typeOf? scope creation = some (element.inArrays (Node.countedRanks levels))
  /-- The type has the written dimensions exactly if no size and no comment has a comma. -/
  inferred_iff : (∀ scope,
    m.typeOf? scope creation = some (element.inArrays (Node.writtenRanks levels))) ↔
      ∀ n ∈ levels, n.WithoutInnerCommas
  /-- A variable that is initialized with the creation has its type. -/
  declared : ∀ member name, m.Initializes member name creation →
    ⟨name, some (element.inArrays (Node.countedRanks levels))⟩ ∈ m.declaredLocals member
  displayed : (element.inArrays (Node.countedRanks levels)).display m.table =
    element.display m.table ++ TypeRef.brackets (Node.countedRanks levels)
  displayed_iff : (element.inArrays (Node.countedRanks levels)).display m.table =
    element.display m.table ++ TypeRef.brackets (Node.writtenRanks levels) ↔
      ∀ n ∈ levels, n.WithoutInnerCommas

theorem createsArrays {creation n base : Node} {levels : List Node} {element : TypeRef}
    (kind : creation.kind = "array_creation_expression") (written : creation.writtenType? = some n)
    (nested : Node.ArrayLevels n levels base) (spelled : ∀ level ∈ levels, level.RankSpelled)
    (bound : m.resolve? base = some element) : m.CreatesArrays creation levels element := by
  have inferred (scope : Scope) :
      m.typeOf? scope creation = some (element.inArrays (Node.countedRanks levels)) := by
    rw [typeOf?_creation scope kind, writtenType?, written, Option.bind_some,
      resolve?_inArrays nested, bound, Option.map_some, Node.map_arrayRank spelled]
  have displayed := TypeRef.display_inArrays m.table element
  have displayed_iff : (element.inArrays (Node.countedRanks levels)).display m.table =
      element.display m.table ++ TypeRef.brackets (Node.writtenRanks levels) ↔
        ∀ n ∈ levels, n.WithoutInnerCommas := by
    rw [displayed, String.append_right_inj, TypeRef.brackets_countedRanks_iff]
  refine ⟨inferred, ⟨?_, ?_⟩, ?_, displayed _, displayed_iff⟩
  · intro asWritten
    -- Equal types are displayed alike, and the display tells the ranks.
    have same := (inferred []).symm.trans (asWritten [])
    rw [← displayed_iff, Option.some.inj same, displayed]
  · intro without scope
    rw [inferred, Node.countedRanks_of_without without]
  · exact fun member name initialized => mem_declaredLocals initialized inferred

/-- An array type has the dimensions that its specifier separates and as many more as there are
commas within its sizes and comments, and so has every creation of an array, at every level of
arrays of arrays, in the type that is inferred and in the one that is displayed. -/
theorem arrayRanks_count_commas (m : Model) (n : Node) (kind : n.kind = "array_type")
    (spelled : n.RankSpelled) :
    (n.innerType?.bind m.resolve? = none → m.resolve? n = none) ∧
      (∀ element, n.innerType?.bind m.resolve? = some element →
        m.resolve? n = some (.array element (n.dimensions + n.innerCommas)) ∧
        (m.resolve? n = some (.array element n.dimensions) ↔ n.WithoutInnerCommas)) ∧
      ∀ creation levels base element, creation.kind = "array_creation_expression" →
        creation.writtenType? = some n → Node.ArrayLevels n levels base →
        (∀ level ∈ levels, level.RankSpelled) → m.resolve? base = some element →
        m.CreatesArrays creation levels element := by
  refine ⟨fun unbound => ?_, fun element bound => ?_,
    fun creation levels base element kind' written nested spelled' bound =>
      createsArrays kind' written nested spelled' bound⟩
  · rw [resolve?_array kind, unbound]
    rfl
  · have typed : m.resolve? n = some (.array element (n.dimensions + n.innerCommas)) := by
      rw [resolve?_array kind, bound, Option.map_some, Node.arrayRank_eq spelled]
    refine ⟨typed, ?_⟩
    rw [typed, ← Node.innerCommas_eq_zero_iff]
    simp

end Model

/-! ### A size with a call -/

/-- `[2, f(a, b)]` -/
def sizedByCallRank : Tree :=
  firstRowTree "array_rank_specifier" (some "rank") 39 "[2, f(a, b)]"
    [literalTree "[" false "[" 39 0, literalTree "integer_literal" true "2" 40 0,
      literalTree "," false "," 41 0,
      firstRowTree "invocation_expression" none 43 "f(a, b)"
        [firstRowTree "identifier" (some "function") 43 "f" [],
          firstRowTree "argument_list" (some "arguments") 44 "(a, b)"
            [literalTree "(" false "(" 44 0, firstRowTree "argument" none 45 "a" [],
              literalTree "," false "," 46 0, firstRowTree "argument" none 48 "b" [],
              literalTree ")" false ")" 49 0]],
      literalTree "]" false "]" 50 0]

/-- `{ var grid = new int[2, f(a, b)]; }` -/
def sizedByCallBody : Tree :=
  firstRowTree "block" (some "body") 19 "\x7b var grid = new int[2, f(a, b)]; \x7d"
    [firstRowTree "local_declaration_statement" none 21 "var grid = new int[2, f(a, b)];"
      [firstRowTree "variable_declaration" none 21 "var grid = new int[2, f(a, b)]"
        [firstRowTree "implicit_type" (some "type") 21 "var" [],
          firstRowTree "variable_declarator" none 25 "grid = new int[2, f(a, b)]"
            [firstRowTree "identifier" (some "name") 25 "grid" [], literalTree "=" false "=" 30 0,
              firstRowTree "array_creation_expression" none 32 "new int[2, f(a, b)]"
                [literalTree "new" false "new" 32 0,
                  firstRowTree "array_type" (some "type") 36 "int[2, f(a, b)]"
                    [firstRowTree "predefined_type" (some "type") 36 "int" [],
                      sizedByCallRank]]]]]]

/-- `class A { void M() { var grid = new int[2, f(a, b)]; } }` -/
def sizedByCallFile : Tree :=
  firstRowTree "class_declaration" none 0
    "class A \x7b void M() \x7b var grid = new int[2, f(a, b)]; \x7d \x7d"
    [firstRowTree "identifier" (some "name") 6 "A" [],
      firstRowTree "declaration_list" (some "body") 8
        "\x7b void M() \x7b var grid = new int[2, f(a, b)]; \x7d \x7d"
        [firstRowTree "method_declaration" none 10
          "void M() \x7b var grid = new int[2, f(a, b)]; \x7d"
          [firstRowTree "predefined_type" (some "returns") 10 "void" [],
            firstRowTree "identifier" (some "name") 15 "M" [],
            firstRowTree "parameter_list" (some "parameters") 16 "()" [],
            sizedByCallBody]]]

def sizedByCallNode (kind : String) : Node :=
  ((Node.root sizedByCallFile).subtree.find? fun n => n.kind == kind).getD (.root sizedByCallFile)

/-- The type `int[2, f(a, b)]`. -/
def sizedByCall : Node :=
  (sizedByCallNode "array_creation_expression").writtenType?.getD (.root sizedByCallFile)

theorem sizedByCall_spelled : sizedByCall.RankSpelled := by
  have texts : sizedByCall.rankSpecifier?.map
      (fun rank => (rank.children.map Node.text, rank.text)) =
        some (["[", "2", ",", "f(a, b)", "]"], "[2, f(a, b)]") := by decide +kernel
  have commas : ∀ c ∈ sizedByCall.rankParts, c.isComma = true → c.text = "," := by decide +kernel
  intro rank specifier
  rw [specifier, Option.map_some, Option.some.injEq, Prod.mk.injEq] at texts
  rw [Node.rankParts, specifier, Option.map_some, Option.getD_some] at commas
  refine ⟨?_, commas⟩
  rw [texts.1, texts.2]
  have closing : Apart ["]"] ("" ++ "]" ++ "") := .next rfl (.blank rfl)
  have call : Apart ["f(a, b)", "]"] (" " ++ "f(a, b)" ++ "]") := .next (by decide) closing
  have comma : Apart [",", "f(a, b)", "]"] ("" ++ "," ++ " f(a, b)]") := .next rfl call
  have size : Apart ["2", ",", "f(a, b)", "]"] ("" ++ "2" ++ ", f(a, b)]") := .next rfl comma
  have opening : Apart ["[", "2", ",", "f(a, b)", "]"] ("" ++ "[" ++ "2, f(a, b)]") :=
    .next rfl size
  exact opening

/-- The comma within the call makes a third dimension of the two. -/
theorem sizedByCall_gains_dimension :
    sizedByCall.kind = "array_type" ∧ sizedByCall.RankSpelled ∧ sizedByCall.dimensions = 2 ∧
      ¬sizedByCall.WithoutInnerCommas ∧
      ∃ int, TypeRef.predefined? "int" = some int ∧
        (Model.ofTree sizedByCallFile).resolve? sizedByCall = some (.array int 3) ∧
        (Model.ofTree sizedByCallFile).CreatesArrays (sizedByCallNode "array_creation_expression")
          [sizedByCall] int ∧
        (Model.ofTree sizedByCallFile).declaredLocals (sizedByCallNode "method_declaration") =
          [⟨"grid", some (.array int 3)⟩] ∧
        (TypeRef.array int 3).display (Model.ofTree sizedByCallFile).table = "int[,,]" := by
  have known {o : Option Node} {other : Node} (there : o.isSome = true) :
      o = some (o.getD other) :=
    (Option.getD_of_ne_none (Option.ne_none_iff_isSome.mpr there) other).symm
  let int : TypeRef := (TypeRef.predefined? "int").getD .dynamic
  have kind : sizedByCall.kind = "array_type" := by decide +kernel
  have dimensions : sizedByCall.dimensions = 2 := by decide +kernel
  have inner : sizedByCall.innerCommas = 1 := by decide +kernel
  have below : sizedByCall.innerType? = some (sizedByCall.innerType?.getD sizedByCall) :=
    known (by decide +kernel)
  have bound : sizedByCall.innerType?.bind (Model.ofTree sizedByCallFile).resolve? = some int := by
    decide +kernel
  obtain ⟨-, ranked, created⟩ := Model.arrayRanks_count_commas (Model.ofTree sizedByCallFile)
    sizedByCall kind sizedByCall_spelled
  obtain ⟨typed, -⟩ := ranked int bound
  rw [below, Option.bind_some] at bound
  refine ⟨kind, sizedByCall_spelled, dimensions, ?_, int, by decide +kernel, ?_, ?_,
    by decide +kernel, by decide +kernel⟩
  · rw [← Node.innerCommas_eq_zero_iff, inner]
    decide
  · rw [typed, dimensions, inner]
  · exact created _ _ _ int (by decide +kernel) (known (by decide +kernel))
      (.level kind below (.element _)) (List.forall_mem_singleton.mpr sizedByCall_spelled) bound

end ClassAtlas
