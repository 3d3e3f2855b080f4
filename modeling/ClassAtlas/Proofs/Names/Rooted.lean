import ClassAtlas.Proofs.Names.Spaces
import ClassAtlas.Proofs.Symbols.Identity
import ClassAtlas.Proofs.Types.Binding

/-!
# Names from the root

A name that begins with `global::` loses its root and is then looked for like any other one: from
the innermost namespace around it outward, and with an alias for its first part spelled out. So it
means the type with the written path only as far as no namespace around it has a type with this path
and no alias has the name of its first part.
-/
namespace ClassAtlas

/-! ### Paths -/

/-- A path with further names after it. -/
def continued (path : String) (names : List String) : String := names.foldl joined path

theorem continued_concat (path : String) (names : List String) (name : String) :
    continued path (names ++ [name]) = joined (continued path names) name := by
  simp [continued]

theorem joined_empty (name : String) : joined "" name = name := rfl

theorem joined_of_ne {head : String} (named : head ≠ "") (name : String) :
    joined head name = dotted head name :=
  if_neg fun empty => named (String.isEmpty_iff.mp empty)

theorem dotted_ne_empty (head name : String) : dotted head name ≠ "" := fun empty => by
  have dot := dot_mem_dotted head name
  rw [empty] at dot
  exact absurd dot List.not_mem_nil

theorem joined_ne_empty_of_left {head : String} (named : head ≠ "") (name : String) :
    joined head name ≠ "" := by
  rw [joined_of_ne named]
  exact dotted_ne_empty head name

theorem joined_ne_empty_of_right (head : String) {name : String} (named : name ≠ "") :
    joined head name ≠ "" := by
  unfold joined
  split
  · exact named
  · exact dotted_ne_empty head name

theorem joined_assoc (head : String) {middle : String} (named : middle ≠ "") (name : String) :
    joined (joined head middle) name = joined head (joined middle name) := by
  by_cases empty : head = ""
  · rw [empty, joined_empty, joined_empty]
  · rw [joined_of_ne (joined_ne_empty_of_left empty middle), joined_of_ne empty, joined_of_ne empty,
      joined_of_ne named]
    simp only [dotted, String.append_assoc]

theorem continued_joined (head : String) {middle : String} (named : middle ≠ "")
    (names : List String) :
    continued (joined head middle) names = joined head (continued middle names) := by
  induction names generalizing middle with
  | nil => rfl
  | cons name rest ih =>
    change continued (joined (joined head middle) name) rest = _
    rw [joined_assoc head named, ih (joined_ne_empty_of_left named name)]
    rfl

theorem continued_ne_empty {path : String} (named : path ≠ "") (names : List String) :
    continued path names ≠ "" := by
  induction names generalizing path with
  | nil => exact named
  | cons name rest ih => exact ih (joined_ne_empty_of_left named name)

/-- A further name comes last, wherever the path before it begins. -/
theorem joined_continued_concat (space : String) {path : String} (named : path ≠ "")
    (names : List String) (name : String) :
    joined (joined space (continued path names)) name =
      joined space (continued path (names ++ [name])) := by
  rw [joined_assoc space (continued_ne_empty named names), continued_concat]

theorem dotted_continued_concat (space : String) {path : String} (named : path ≠ "")
    (names : List String) (name : String) :
    dotted (joined space (continued path names)) name =
      joined space (continued path (names ++ [name])) := by
  have present := joined_ne_empty_of_right space (continued_ne_empty named names)
  rw [← joined_of_ne present, joined_continued_concat space named]

/-! ### The root and the first part -/

theorem withoutRoot_root (path : String) : withoutRoot ("global::" ++ path) = path := by
  rw [withoutRoot, Text.dropHead, Text.dropHead?_eq_some_iff.mpr rfl, Option.getD_some]

theorem afterColons_of_not_mem {cs : List Char} (single : ':' ∉ cs) (kept : List Char) :
    Text.afterColons kept cs = kept.reverse ++ cs := by
  induction cs generalizing kept with
  | nil => simp [Text.afterColons]
  | cons c rest ih =>
    rw [List.mem_cons, not_or] at single
    obtain ⟨other, single⟩ := single
    rw [Text.afterColons, ih single]
    · simp
    · intro more colon
      exact absurd colon.symm other

/-- A single name, as it stands between dots. -/
structure IsSimple (name : String) : Prop where
  named : name ≠ ""
  undotted : '.' ∉ name.toList
  uncolonned : ':' ∉ name.toList

theorem lastQualified_root {first : String} (simple : IsSimple first) :
    Text.lastQualified ("global::" ++ first) = first := by
  have chars : ("global::" ++ first).toList =
      'g' :: 'l' :: 'o' :: 'b' :: 'a' :: 'l' :: ':' :: ':' :: first.toList := by simp
  rw [Text.lastQualified, chars]
  simp [Text.afterColons, afterColons_of_not_mem simple.uncolonned]

namespace Model

theorem headAndRest_root {first : String} (simple : IsSimple first) :
    headAndRest ("global::" ++ first) = ("global::" ++ first, none) := by
  have single : '.' ∉ ("global::" ++ first).toList := by
    simp [simple.undotted]
  rw [headAndRest, Text.splitFirst?, Text.cutFirst?_eq_none_iff.mpr single]
  rfl

theorem headAndRest_root_dotted {first : String} (simple : IsSimple first) (rest : String) :
    headAndRest ("global::" ++ dotted first rest) = ("global::" ++ first, some rest) := by
  have single : '.' ∉ ("global::" ++ first).toList := by
    simp [simple.undotted]
  have chars : ("global::" ++ dotted first rest).toList =
      ("global::" ++ first).toList ++ '.' :: rest.toList := by
    simp [dotted]
  rw [headAndRest, Text.splitFirst?, chars, Text.cutFirst?_of_not_mem single, Option.map_some,
    String.ofList_toList, String.ofList_toList]

variable {m : Model}

/-- A using directive in scope at the node makes the name an alias. -/
def HasAlias (m : Model) (n : Node) (name target : String) : Prop :=
  ∃ scope ∈ m.scopesOutward n, UsingDirective.alias name target ∈ scope.usings

/-- A name is spelled out by an alias for its first part. -/
theorem expandAlias?_eq_some {n : Node} {path head spelled : String} {rest? : Option String}
    (parts : headAndRest path = (head, rest?)) (found : m.expandAlias? path n = some spelled) :
    ∃ target, m.HasAlias n (Text.lastQualified head) target ∧
      spelled = (rest?.map (joined target)).getD target := by
  rw [expandAlias?, parts] at found
  obtain ⟨directive, listed, chosen⟩ := List.exists_of_findSome?_eq_some found
  obtain ⟨scope, inScope, listed⟩ := List.mem_flatMap.mp listed
  split at chosen
  next name target _ =>
    split at chosen
    next same =>
      refine ⟨target, ⟨scope, inScope, eq_of_beq same ▸ listed⟩, ?_⟩
      cases rest? <;> exact (Option.some.inj chosen).symm
    · cases chosen
  · cases chosen

theorem expandAlias?_root {n : Node} {first : String} (simple : IsSimple first) {rest : List String}
    (named : ∀ name ∈ rest, name ≠ "") {spelled : String}
    (found : m.expandAlias? ("global::" ++ continued first rest) n = some spelled) :
    ∃ target, m.HasAlias n first target ∧ spelled = continued target rest := by
  -- The first part stands before the first dot, if there is one.
  cases rest with
  | nil =>
    obtain ⟨target, inScope, spells⟩ := expandAlias?_eq_some (headAndRest_root simple) found
    rw [lastQualified_root simple] at inScope
    exact ⟨target, inScope, spells⟩
  | cons name rest =>
    have later : name ≠ "" := named name List.mem_cons_self
    have path : continued first (name :: rest) = dotted first (continued name rest) := by
      rw [← joined_of_ne simple.named, ← continued_joined first later]
      rfl
    rw [path] at found
    obtain ⟨target, inScope, spells⟩ :=
      expandAlias?_eq_some (headAndRest_root_dotted simple _) found
    rw [lastQualified_root simple] at inScope
    refine ⟨target, inScope, ?_⟩
    rw [spells, Option.map_some, Option.getD_some, ← continued_joined target later]
    rfl

/-! ### The form of the names -/

/-- A text up to its first angle bracket. -/
def withoutArguments (text : String) : String := String.ofList (text.toList.takeWhile (· != '<'))

theorem withoutArguments_of_not_mem {text : String} (plain : '<' ∉ text.toList) :
    withoutArguments text = text := by
  have all : ∀ c ∈ text.toList, (c != '<') = true := by
    intro c member
    exact bne_iff_ne.mpr fun bracket => plain (bracket ▸ member)
  rw [withoutArguments, List.takeWhile_eq_self_iff.mpr all, String.ofList_toList]

/-- The node is a name from the root: `global::`, the part `first`, and the parts `rest` after dots,
without type arguments. The last part has the type arguments `args`. -/
inductive Rooted (m : Model) : Node → String → List String → List TypeRef → Prop
  | whole {n : Node} {written : String} : n.kind = "alias_qualified_name" →
      n.compactText = "global::" ++ written → IsSimple (withoutArguments written) →
      Rooted m n (withoutArguments written) [] []
  | part {n qualifier simple : Node} {first name : String} {rest : List String}
      {args args' : List TypeRef} : n.kind = "qualified_name" →
      n.qualifier? = some qualifier → n.unqualified? = some simple →
      n.compactText = dotted qualifier.compactText simple.compactText →
      qualifier.start = n.start → Rooted m qualifier first rest args →
      m.simpleName? simple = some (name, args') → name ≠ "" →
      ('<' ∉ simple.compactText.toList → simple.compactText = name) →
      Rooted m n first (rest ++ [name]) args'

namespace Rooted

variable {n : Node} {first : String} {rest : List String} {args : List TypeRef}

theorem simple (rooted : m.Rooted n first rest args) : IsSimple first := by
  induction rooted with
  | whole _ _ simple => exact simple
  | part _ _ _ _ _ _ _ _ _ ih => exact ih

theorem named (rooted : m.Rooted n first rest args) : ∀ name ∈ rest, name ≠ "" := by
  induction rooted with
  | whole => exact List.forall_mem_nil _
  | part _ _ _ _ _ _ _ named _ ih =>
    rw [List.forall_mem_append, List.forall_mem_singleton]
    exact ⟨ih, named⟩

theorem compactText (rooted : m.Rooted n first rest args) (plain : '<' ∉ n.compactText.toList) :
    n.compactText = "global::" ++ continued first rest := by
  induction rooted with
  | @whole n written _ text _ =>
    rw [text, String.toList_append, List.mem_append, not_or] at plain
    rw [text, withoutArguments_of_not_mem plain.2]
    rfl
  | @part n qualifier simple first name rest _ _ _ _ _ text _ rooted _ _ same ih =>
    rw [text, toList_dotted, List.mem_append, List.mem_cons, not_or, not_or] at plain
    rw [text, same plain.2.2, ih plain.1, continued_concat,
      joined_of_ne (continued_ne_empty rooted.simple.named rest)]
    simp only [dotted, String.append_assoc]

end Rooted

/-! ### What is found -/

/-- The ways in which a path can come from a name from the root that is read at the node. -/
inductive ReadAs (m : Model) (n : Node) (first : String) (rest : List String) (path : String) : Prop
  | relative {space : String} : m.HasAround n space →
      path = joined space (continued first rest) → ReadAs m n first rest path
  | aliased {target : String} : m.HasAlias n first target →
      (target ≠ "" → ∃ space, m.HasAround n space ∧ path = joined space (continued target rest)) →
      ReadAs m n first rest path

/-- Nodes with one start are in the same scopes. -/
theorem ReadAs.of_start {n n' : Node} {first : String} {rest : List String} {path : String}
    (read : m.ReadAs n first rest path) (start : n.start = n'.start) :
    m.ReadAs n' first rest path := by
  have around (space : String) : m.HasAround n space = m.HasAround n' space := by
    rw [HasAround, HasAround, start]
  have scopes : m.scopesOutward n = m.scopesOutward n' := by
    rw [scopesOutward, scopesOutward, start]
  cases read with
  | relative inScope same => exact .relative (around _ ▸ inScope) same
  | aliased inScope reads =>
    unfold HasAlias at inScope
    simp only [scopes, around] at inScope reads
    exact .aliased inScope reads

theorem ReadAs.concat {n : Node} {first : String} (simple : IsSimple first) {rest : List String}
    {path : String} (read : m.ReadAs n first rest path) (name : String) :
    m.ReadAs n first (rest ++ [name]) (dotted path name) := by
  cases read with
  | @relative space inScope same =>
    rw [same, dotted_continued_concat space simple.named]
    exact .relative inScope rfl
  | @aliased target inScope reads =>
    refine .aliased inScope fun present => ?_
    obtain ⟨space, around, same⟩ := reads present
    rw [same, dotted_continued_concat space present]
    exact ⟨space, around, rfl⟩

theorem readAs_of_nested? {n : Node} {first name : String} (simple : IsSimple first)
    {rest : List String} {outer id : TypeId} {o : TypeSymbol} {arity : Nat}
    (there : m.table.get? outer = some o) (read : m.ReadAs n first rest o.path)
    (found : m.table.nested? outer name arity = some id) :
    ∃ s, m.table.get? id = some s ∧ m.ReadAs n first (rest ++ [name]) s.path := by
  obtain ⟨o', there', found⟩ := Option.bind_eq_some_iff.mp found
  cases there.symm.trans there'
  obtain ⟨s, inside, same⟩ := SymbolTable.lookup?_eq_some found
  have path : s.path = dotted o.path name := congrArg TypeKey.path same
  refine ⟨s, inside, ?_⟩
  rw [path]
  exact read.concat simple name

theorem memberOfSpace?_declared {spaces : List String} {name space : String}
    {args args' : List TypeRef} {id : TypeId}
    (found : m.memberOfSpace? spaces name args space = some (.declared id args')) :
    ∃ outer ∈ spaces, ∃ s, m.table.get? id = some s ∧
      s.path = joined (joined outer space) name := by
  unfold memberOfSpace? at found
  split at found
  next known =>
    cases found
    obtain ⟨outer, inScope, known⟩ := List.exists_of_findSome?_eq_some known
    obtain ⟨s, there, same⟩ := SymbolTable.lookup?_eq_some known
    exact ⟨outer, inScope, s, there, congrArg TypeKey.path same⟩
  next =>
    obtain ⟨type, -, core⟩ := Option.map_eq_some_iff.mp found
    cases core

/-- In a namespace the name is read as written, or with an alias for its first part. -/
theorem readAs_of_memberOfSpace? {n : Node} {first name space : String} (simple : IsSimple first)
    {rest : List String} (named : ∀ name ∈ rest, name ≠ "") {args args' : List TypeRef}
    {id : TypeId} (candidate : space ∈ continued first rest ::
      (m.expandAlias? ("global::" ++ continued first rest) n).toList)
    (found : m.memberOfSpace? (m.spacesAt n) name args space = some (.declared id args')) :
    ∃ s, m.table.get? id = some s ∧ m.ReadAs n first (rest ++ [name]) s.path := by
  obtain ⟨outer, around, s, there, path⟩ := memberOfSpace?_declared found
  have around := mem_spacesAt.mp around
  refine ⟨s, there, ?_⟩
  rcases List.mem_cons.mp candidate with rfl | spelled
  · rw [joined_continued_concat outer simple.named] at path
    exact .relative around path
  · rw [Option.mem_toList] at spelled
    obtain ⟨target, inScope, rfl⟩ := expandAlias?_root simple named spelled
    refine .aliased inScope fun present => ⟨outer, around, ?_⟩
    rw [path, joined_continued_concat outer present]

theorem qualified?_eq {n qualifier simple : Node} {name : String} {args : List TypeRef}
    (before : n.qualifier? = some qualifier) (after : n.unqualified? = some simple)
    (last : m.simpleName? simple = some (name, args)) :
    m.qualified? n = m.lookupQualified? n qualifier (m.named? qualifier) name args := by
  rw [qualified?]
  split
  next before' after' =>
    cases before.symm.trans before'
    cases after.symm.trans after'
    rw [last, Option.bind_some]
  next other => exact absurd after (other _ _ before)

theorem named?_qualified {n : Node} (kind : n.kind = "qualified_name") :
    m.named? n = m.qualified? n := by
  rw [named?]
  simp only [kind]

theorem named?_rooted {n : Node} {first : String} {rest : List String} {args : List TypeRef}
    (rooted : m.Rooted n first rest args) {id : TypeId} {args' : List TypeRef}
    (found : m.named? n = some (.declared id args')) :
    ∃ s, m.table.get? id = some s ∧ m.ReadAs n first rest s.path := by
  induction rooted generalizing id args' with
  | whole kind =>
    rw [named?] at found
    simp only [kind] at found
    cases found
  | part kind before after _ start rooted last _ _ ih =>
    rw [named?_qualified kind, qualified?_eq before after last] at found
    unfold lookupQualified? at found
    split at found
    next outer _ known =>
      obtain ⟨inner, nested, same⟩ := Option.map_eq_some_iff.mp found
      cases same
      obtain ⟨o, there, read⟩ := ih known
      exact readAs_of_nested? rooted.simple there (read.of_start start) nested
    next =>
      dsimp only at found
      split at found
      · cases found
      next bracket =>
        rw [rooted.compactText (by simpa using bracket), withoutRoot_root] at found
        obtain ⟨space, candidate, inSpace⟩ := List.exists_of_findSome?_eq_some found
        exact readAs_of_memberOfSpace? rooted.simple rooted.named candidate inSpace

/-- Taking the root off once more changes nothing. -/
theorem withoutRoot_of_isSimple {written : String} (simple : IsSimple (withoutArguments written)) :
    withoutRoot written = written := by
  have other : Text.startsWith "global::" written = false := by
    rw [Text.startsWith, Bool.eq_false_iff]
    intro begins
    obtain ⟨later, split⟩ := List.isPrefixOf_iff_prefix.mp begins
    have before : ∀ c ∈ "global::".toList, (c != '<') = true := by simp
    have colon := simple.uncolonned
    rw [withoutArguments, ← split, String.toList_ofList, List.takeWhile_append_of_pos before,
      List.mem_append, not_or] at colon
    exact colon.1 (by simp)
  rw [withoutRoot, Text.dropHead, Text.dropHead?, other]
  rfl

/-- A path by itself is looked for from the root first. -/
theorem resolvePath_eq_declared_iff {n : Node} {written : String}
    (simple : IsSimple (withoutArguments written)) {id : TypeId} {args : List TypeRef} :
    m.resolvePath written n = .declared id args ↔ args = [] ∧
      (m.table.lookup? written 0 = some id ∨
        m.table.lookup? written 0 = none ∧ m.InLongestSpace n written 0 id) := by
  unfold resolvePath
  rw [withoutRoot_of_isSimple simple, ← typeIn?_eq_some_iff, ← Option.or_eq_some_iff]
  dsimp only
  cases found : (m.table.lookup? written 0).or (m.typeIn? (m.spacesAt n) written 0) with
  | some other =>
    constructor
    · rintro ⟨⟩
      exact ⟨rfl, rfl⟩
    · rintro ⟨rfl, ⟨⟩⟩
      rfl
  | none =>
    dsimp only
    constructor
    · intro same
      split at same <;> cases same
    · rintro ⟨-, ⟨⟩⟩

theorem resolve?_whole {n : Node} {written : String} (kind : n.kind = "alias_qualified_name")
    (text : n.compactText = "global::" ++ written) :
    m.resolve? n = some (m.resolvePath written n) := by
  rw [resolve?]
  simp only [kind]
  rw [text, withoutRoot_root]

theorem resolve?_rooted_declared {n : Node} {first : String} {rest : List String}
    {args : List TypeRef} (rooted : m.Rooted n first rest args)
    (plain : ∀ id s, m.table.get? id = some s → '<' ∉ s.path.toList) {id : TypeId}
    {args' : List TypeRef} (found : m.resolve? n = some (.declared id args')) :
    ∃ s, m.table.get? id = some s ∧ m.ReadAs n first rest s.path := by
  cases rooted with
  | @whole _ written kind text simple =>
    rw [resolve?_whole kind text, Option.some.injEq, resolvePath_eq_declared_iff simple] at found
    obtain ⟨space, around, known⟩ : ∃ space, m.HasAround n space ∧
        m.table.lookup? (joined space written) 0 = some id := by
      rcases found.2 with atRoot | ⟨-, space, around, known, -⟩
      · exact ⟨"", hasAround_global m n, atRoot⟩
      · exact ⟨space, around, known⟩
    obtain ⟨s, there, same⟩ := SymbolTable.lookup?_eq_some known
    have path : s.path = joined space written := congrArg TypeKey.path same
    -- Nothing with angle brackets in its path can have been found.
    have bracket : '<' ∉ written.toList := by
      have absent := plain id s there
      rw [path, joined] at absent
      split at absent
      · exact absent
      · rw [toList_dotted, List.mem_append, List.mem_cons, not_or, not_or] at absent
        exact absent.2.2
    refine ⟨s, there, .relative around ?_⟩
    rw [path, withoutArguments_of_not_mem bracket]
    rfl
  | @part _ qualifier simple _ name rest _ _ kind before after text start rooted last named same =>
    have bound : m.named? n = some (.declared id args') := by
      rw [named?_qualified kind]
      rw [resolve?] at found
      simp only [kind] at found
      split at found
      next bound => rw [bound, found]
      -- A name that binds to nothing is no type of the source.
      · split at found
        · obtain ⟨_, -, external⟩ := Option.map_eq_some_iff.mp found
          cases external
        · cases found
    exact named?_rooted (.part kind before after text start rooted last named same) bound

/-- Nothing but the root has a type with the path of the name, and its first part is no alias. -/
structure Unhidden (m : Model) (n : Node) (first : String) (rest : List String) : Prop where
  noAlias : ∀ target, ¬m.HasAlias n first target
  noType : ∀ space, m.HasAround n space → space ≠ "" → ∀ arity,
    m.table.lookup? (joined space (continued first rest)) arity = none

theorem ReadAs.path_eq {n : Node} {first : String} {rest : List String} {id : TypeId}
    {s : TypeSymbol} (read : m.ReadAs n first rest s.path) (there : m.table.get? id = some s)
    (unhidden : m.Unhidden n first rest) : s.path = continued first rest := by
  cases read with
  | @relative space around path =>
    by_cases root : space = ""
    · rw [path, root, joined_empty]
    · have absent := SymbolTable.lookup?_eq_none_iff.mp (unhidden.noType space around root s.arity)
      rw [← path] at absent
      exact absurd (List.mem_map_of_mem (List.mem_of_getElem? there)) absent
  | aliased inScope _ => exact absurd inScope (unhidden.noAlias _)

/-- A qualifier that is no type of the source leaves the name to the namespaces, innermost first. -/
theorem resolve?_of_inLongestSpace {n qualifier : Node} {first : String} {rest : List String}
    {args : List TypeRef} (rooted : m.Rooted n first rest args) (kind : n.kind = "qualified_name")
    (before : n.qualifier? = some qualifier) (bracket : '<' ∉ qualifier.compactText.toList)
    (space : ∀ id args', m.named? qualifier ≠ some (.declared id args')) {id : TypeId}
    (found : m.InLongestSpace n (continued first rest) args.length id) :
    m.resolve? n = some (.declared id args) := by
  rw [← typeIn?_eq_some_iff] at found
  cases rooted with
  | whole other => rw [kind] at other; exact absurd other (by decide)
  | @part _ _ simple _ name rest _ _ _ before' after _ _ rooted last _ _ =>
    cases before.symm.trans before'
    have written := rooted.compactText bracket
    have inSpace : m.memberOfSpace? (m.spacesAt n) name args (continued first rest) =
        some (.declared id args) := by
      simp only [typeIn?, ← joined_continued_concat _ rooted.simple.named] at found
      rw [memberOfSpace?, found]
    have bound : m.qualified? n = some (.declared id args) := by
      rw [qualified?_eq before after last]
      unfold lookupQualified?
      split
      next type => exact absurd type (space _ _)
      next =>
        rw [if_neg (by simpa using bracket), written, withoutRoot_root, List.findSome?_cons,
          inSpace]
    rw [resolve?]
    simp only [kind]
    rw [bound]

/-- A name from the root that denotes a type of the source is read relative to a namespace around
it, or with an alias for its first part. It denotes the type with the written path if nothing hides
that type. The root is preferred only where the name is a single part: a further part is looked for
in the namespaces around the name, innermost first. -/
theorem resolve?_rooted (m : Model) (n : Node) (first : String) (rest : List String)
    (args : List TypeRef) (rooted : m.Rooted n first rest args)
    (plain : ∀ id s, m.table.get? id = some s → '<' ∉ s.path.toList) :
    (∀ id args', m.resolve? n = some (.declared id args') →
      ∃ s, m.table.get? id = some s ∧ m.ReadAs n first rest s.path ∧
        (m.Unhidden n first rest → s.path = continued first rest)) ∧
      (n.kind = "alias_qualified_name" → '<' ∉ n.compactText.toList →
        ∀ id args', m.resolve? n = some (.declared id args') ↔ args' = [] ∧
          (m.table.lookup? first 0 = some id ∨
            m.table.lookup? first 0 = none ∧ m.InLongestSpace n first 0 id)) ∧
      ∀ qualifier, n.kind = "qualified_name" → n.qualifier? = some qualifier →
        '<' ∉ qualifier.compactText.toList →
        (∀ id args', m.named? qualifier ≠ some (.declared id args')) →
        ∀ id, m.InLongestSpace n (continued first rest) args.length id →
          m.resolve? n = some (.declared id args) := by
  refine ⟨?declared, ?whole, ?part⟩
  case declared =>
    intro id args' found
    obtain ⟨s, there, read⟩ := resolve?_rooted_declared rooted plain found
    exact ⟨s, there, read, read.path_eq there⟩
  case whole =>
    intro kind bracket id args'
    cases rooted with
    | whole _ text simple =>
      rw [text, String.toList_append, List.mem_append, not_or] at bracket
      rw [withoutArguments_of_not_mem bracket.2, resolve?_whole kind text, Option.some.injEq]
      exact resolvePath_eq_declared_iff simple
    | part other => rw [kind] at other; exact absurd other (by decide)
  case part =>
    intro qualifier kind before bracket space id found
    exact resolve?_of_inLongestSpace rooted kind before bracket space found

end Model

/-! ### A namespace of the same name -/

/-- `class C { global::B.X held; }` -/
def rootedUse : Tree :=
  firstRowTree "class_declaration" none 42 "class C \x7b global::B.X held; \x7d"
    [firstRowTree "identifier" (some "name") 48 "C" [],
      firstRowTree "declaration_list" (some "body") 50 "\x7b global::B.X held; \x7d"
        [firstRowTree "field_declaration" none 52 "global::B.X held;"
          [firstRowTree "variable_declaration" none 52 "global::B.X held"
            [firstRowTree "qualified_name" (some "type") 52 "global::B.X"
              [firstRowTree "alias_qualified_name" (some "qualifier") 52 "global::B"
                [firstRowTree "identifier" (some "alias") 52 "global" [],
                  firstRowTree "identifier" (some "name") 60 "B" []],
                firstRowTree "identifier" (some "name") 62 "X" []],
              firstRowTree "variable_declarator" none 64 "held"
                [firstRowTree "identifier" (some "name") 64 "held" []]]]]]

/-- `namespace B { class X { } }` -/
def spaceOfX (start : Nat) : Tree :=
  firstRowTree "namespace_declaration" none start "namespace B \x7b class X \x7b \x7d \x7d"
    [firstRowTree "identifier" (some "name") (start + 10) "B" [],
      firstRowTree "declaration_list" (some "body") (start + 12) "\x7b class X \x7b \x7d \x7d"
        [firstRowTree "class_declaration" none (start + 14) "class X \x7b \x7d"
          [firstRowTree "identifier" (some "name") (start + 20) "X" [],
            firstRowTree "declaration_list" (some "body") (start + 22) "\x7b \x7d" []]]]

/-- `namespace A { namespace B { class X { } } class C { global::B.X held; } }`, and after it
`namespace B { class X { } }` -/
def rootedFile : Tree :=
  firstRowTree "compilation_unit" none 0
    ("namespace A \x7b " ++ (spaceOfX 14).info.text ++ " " ++ rootedUse.info.text ++ " \x7d " ++
      (spaceOfX 74).info.text)
    [firstRowTree "namespace_declaration" none 0
        ("namespace A \x7b " ++ (spaceOfX 14).info.text ++ " " ++ rootedUse.info.text ++ " \x7d")
        [firstRowTree "identifier" (some "name") 10 "A" [],
          firstRowTree "declaration_list" (some "body") 12
            ("\x7b " ++ (spaceOfX 14).info.text ++ " " ++ rootedUse.info.text ++ " \x7d")
            [spaceOfX 14, rootedUse]],
      spaceOfX 74]

def rootedName : Node :=
  ((Node.root rootedFile).subtree.find? fun n => n.kind == "qualified_name").getD
    (.root rootedFile)

/-- The name `global::B.X` inside the namespace `A` denotes `A.B.X`, although there is a `B.X`. -/
theorem rootedFile_hidden :
    (Model.ofTree rootedFile).Rooted rootedName "B" ["X"] [] ∧
      (Model.ofTree rootedFile).resolve? rootedName = some (.declared 0 []) ∧
      ((Model.ofTree rootedFile).table.get? 0).map TypeSymbol.path = some "A.B.X" ∧
      (Model.ofTree rootedFile).table.lookup? "B.X" 0 = some 2 ∧
      ¬(Model.ofTree rootedFile).Unhidden rootedName "B" ["X"] := by
  have kind : rootedName.kind = "qualified_name" := by decide +kernel
  obtain ⟨qualifier, before⟩ : ∃ q, rootedName.qualifier? = some q :=
    Option.isSome_iff_exists.mp (by decide +kernel)
  obtain ⟨simple, after⟩ : ∃ s, rootedName.unqualified? = some s :=
    Option.isSome_iff_exists.mp (by decide +kernel)
  have kind' : rootedName.qualifier?.map Node.kind = some "alias_qualified_name" := by
    decide +kernel
  have text : rootedName.qualifier?.map Node.compactText = some "global::B" := by decide +kernel
  have start : rootedName.qualifier?.map Node.start = some rootedName.start := by decide +kernel
  have last : rootedName.unqualified?.bind (Model.ofTree rootedFile).simpleName? =
      some ("X", []) := by decide +kernel
  have text' : rootedName.unqualified?.map Node.compactText = some "X" := by decide +kernel
  have whole : rootedName.compactText = "global::B.X" := by decide +kernel
  have paths : ∀ s ∈ (Model.ofTree rootedFile).table.types, '<' ∉ s.path.toList := by
    decide +kernel
  have path : ((Model.ofTree rootedFile).table.get? 0).map TypeSymbol.path = some "A.B.X" := by
    decide +kernel
  have atRoot : (Model.ofTree rootedFile).table.lookup? "B.X" 0 = some 2 := by decide +kernel
  have place : rootedName.start = 52 := by decide +kernel
  have scopes : (Model.ofTree rootedFile).table.scopes =
      [⟨none, 0, 101, []⟩, ⟨some "A", 0, 73, []⟩, ⟨some "A.B", 14, 41, []⟩,
        ⟨some "B", 74, 101, []⟩] := by decide +kernel
  have space : (Model.ofTree rootedFile).table.namespaceAt? rootedName.start = some "A" := by
    rw [place, SymbolTable.namespaceAt?, SymbolTable.scopesAt, scopes,
      List.mergeSort_of_pairwise (by decide)]
    decide
  have spaces : (Model.ofTree rootedFile).spacesAt rootedName = ["A", ""] := by
    rw [Model.spacesAt, space]
    simp [enclosingSpaces, enclosingSpacesOf, Text.cutFirst?]
  have relative : (Model.ofTree rootedFile).typeIn? ["A", ""] (continued "B" ["X"]) 0 = some 0 := by
    decide +kernel
  rw [← spaces, Model.typeIn?_eq_some_iff] at relative
  rw [before, Option.map_some, Option.some.injEq] at kind' text start
  rw [after, Option.map_some, Option.some.injEq] at text'
  rw [after, Option.bind_some] at last
  have rooted : (Model.ofTree rootedFile).Rooted rootedName "B" ["X"] [] := by
    have first : IsSimple (Model.withoutArguments "B") := ⟨by decide, by decide, by decide⟩
    refine .part kind before after ?_ start (.whole kind' (text.trans (by decide)) first) last
      (by decide) fun _ => text'
    rw [whole, text, text']
    decide
  have other (id : TypeId) (args' : List TypeRef) :
      (Model.ofTree rootedFile).named? qualifier ≠ some (.declared id args') := by
    rw [Model.named?]
    simp [kind']
  obtain ⟨declared, -, part⟩ := Model.resolve?_rooted (Model.ofTree rootedFile) rootedName "B" ["X"]
    [] rooted fun id s there => paths s (List.mem_of_getElem? there)
  have found := part qualifier kind before (by rw [text]; decide) other 0 relative
  refine ⟨rooted, found, path, atRoot, fun unhidden => ?_⟩
  obtain ⟨s, there, -, same⟩ := declared 0 [] found
  rw [there, Option.map_some, Option.some.injEq, same unhidden] at path
  exact absurd path (by decide)

end ClassAtlas
