import ClassAtlas.Proofs.Symbols.Merging
import Mathlib.Data.List.TakeWhile
import Mathlib.Data.Set.Function
import Mathlib.Order.Interval.Set.Defs

/-!
# Full names

When names are plain, the full name of a type tells which type it is: without what stands in angle
brackets it is the path of the type, and the type parameters after the last dot are its own. So no
two types of a file share a full name.
-/
namespace ClassAtlas

/-- The text has no blanks, and none of the characters that full names put between names. -/
def Text.isPlainName (s : String) : Bool :=
  s.toList.all fun c => !isBlank c && !(['.', '<', '>', ','].contains c)

theorem Text.not_mem_of_isPlainName {s : String} (plain : isPlainName s = true) {c : Char}
    (special : ['.', '<', '>', ','].contains c = true) : c ∉ s.toList := by
  intro member
  have allowed := List.all_eq_true.mp plain c member
  -- Every character of a plain name is allowed, so a special one is not among them.
  simp only [special, Bool.not_true, Bool.and_false, Bool.false_eq_true] at allowed

/-- The names of types and type parameters are plain, and namespaces are dotted plain names. -/
structure PlainlyNamed (types : List TypeSymbol) : Prop where
  names : ∀ s ∈ types, Text.isPlainName s.name = true
  parameters : ∀ s ∈ types, ∀ p ∈ s.typeParameters, Text.isPlainName p = true
  spaces : ∀ s ∈ types, ∀ space, s.space? = some space →
    ∃ parts : List String, (∀ part ∈ parts, Text.isPlainName part = true) ∧
      space = String.intercalate "." parts

/-- Where namespaces are not nested, all names alike have to be plain. -/
theorem PlainlyNamed.of_undotted {types : List TypeSymbol}
    (plain : ∀ s ∈ types, ∀ name ∈ s.name :: (s.typeParameters ++ s.space?.toList),
      Text.isPlainName name = true) : PlainlyNamed types where
  names s member := plain s member _ List.mem_cons_self
  parameters s member _ own :=
    plain s member _ (List.mem_cons_of_mem _ (List.mem_append_left _ own))
  spaces s member space own := by
    have listed : space ∈ s.space?.toList := Option.mem_toList.mpr own
    have single := plain s member _ (List.mem_cons_of_mem _ (List.mem_append_right _ listed))
    exact ⟨[space], by simpa using single, by simp⟩

/-! ### Reading a full name -/

/-- The text outside angle brackets, read inside or outside of them. -/
def unbracketed (inside : Bool) : List Char → List Char
  | [] => []
  | c :: rest =>
    if inside then unbracketed (c != '>') rest
    else if c == '<' then unbracketed true rest
    else c :: unbracketed false rest

/-- The number of names in angle brackets. -/
def bracketedCount (cs : List Char) : Nat := if cs.contains '<' then cs.count ',' + 1 else 0

/-- The key of the type with a full name. -/
def keyOfFullName (s : String) : TypeKey :=
  ⟨String.ofList (unbracketed false s.toList), bracketedCount (Text.lastPart '.' s).toList⟩

theorem unbracketed_append {left : List Char} (plain : '<' ∉ left) (right : List Char) :
    unbracketed false (left ++ right) = left ++ unbracketed false right := by
  induction left with
  | nil => rfl
  | cons c rest ih =>
    rw [List.mem_cons, not_or] at plain
    have other : (c == '<') = false := beq_eq_false_iff_ne.mpr (Ne.symm plain.1)
    simp [unbracketed, other, ih plain.2]

theorem unbracketed_bracket {inner : List Char} (plain : '>' ∉ inner) (right : List Char) :
    unbracketed true (inner ++ '>' :: right) = unbracketed false right := by
  induction inner with
  | nil => simp [unbracketed]
  | cons c rest ih =>
    rw [List.mem_cons, not_or] at plain
    have other : (c != '>') = true := bne_iff_ne.mpr (Ne.symm plain.1)
    simp [unbracketed, other, ih plain.2]

theorem toList_dotted (head name : String) :
    (dotted head name).toList = head.toList ++ '.' :: name.toList := by
  simp [dotted]

theorem lastPart_of_not_mem {s : String} (single : '.' ∉ s.toList) : Text.lastPart '.' s = s := by
  have uncut := Text.cutFirst?_eq_none_iff.mpr (mt List.mem_reverse.mp single)
  rw [Text.lastPart, Text.splitLast?, uncut]
  rfl

theorem lastPart_dotted (head : String) {name : String} (single : '.' ∉ name.toList) :
    Text.lastPart '.' (dotted head name) = name := by
  have backwards : (dotted head name).toList.reverse =
      name.toList.reverse ++ '.' :: head.toList.reverse := by
    simp [toList_dotted]
  rw [Text.lastPart, Text.splitLast?, backwards,
    Text.cutFirst?_of_not_mem (mt List.mem_reverse.mp single)]
  simp

/-- A list of plain names has as many commas as there are names after the first. -/
theorem count_comma_intercalate {names : List String}
    (plain : ∀ name ∈ names, Text.isPlainName name = true) :
    (String.intercalate ", " names).toList.count ',' = names.length - 1 := by
  induction names with
  | nil => rfl
  | cons name rest ih =>
    have own : name.toList.count ',' = 0 := List.count_eq_zero.mpr
      (Text.not_mem_of_isPlainName (plain name List.mem_cons_self) rfl)
    cases rest with
    | nil => simpa using own
    | cons next later =>
      have more := ih fun name member => plain name (List.mem_cons_of_mem _ member)
      -- Each further name brings one comma with it.
      have comma : ", ".toList.count ',' = 1 := by decide
      rw [String.intercalate_cons_cons, String.toList_append, String.toList_append,
        List.count_append, List.count_append, own, comma, more]
      simp only [List.length_cons]
      omega

theorem not_mem_intercalate {separator : String} {names : List String} {c : Char}
    (outside : c ∉ separator.toList) (absent : ∀ name ∈ names, c ∉ name.toList) :
    c ∉ (String.intercalate separator names).toList := by
  induction names with
  | nil => simp
  | cons name rest ih =>
    have later := ih fun name member => absent name (List.mem_cons_of_mem _ member)
    have own := absent name List.mem_cons_self
    cases rest with
    | nil => simpa using own
    | cons next rest =>
      rw [String.intercalate_cons_cons, String.toList_append, String.toList_append,
        List.mem_append, List.mem_append]
      exact fun found => found.elim (fun front => front.elim own outside) later

/-! ### Types -/

theorem toList_ownName (s : TypeSymbol) :
    s.ownName.toList = s.name.toList ++ if s.typeParameters.isEmpty then [] else
      '<' :: ((String.intercalate ", " s.typeParameters).toList ++ ['>']) := by
  unfold TypeSymbol.ownName
  split
  · simp
  · simp [String.toList_append]

section

variable {types : List TypeSymbol} (plain : PlainlyNamed types)
include plain

theorem not_mem_parameters {s : TypeSymbol} (member : s ∈ types) {c : Char}
    (special : ['.', '<', '>', ','].contains c = true) (apart : c ∉ ", ".toList) :
    c ∉ (String.intercalate ", " s.typeParameters).toList :=
  not_mem_intercalate apart fun p own =>
    Text.not_mem_of_isPlainName (plain.parameters s member p own) special

theorem not_mem_name {s : TypeSymbol} (member : s ∈ types) {c : Char}
    (special : ['.', '<', '>', ','].contains c = true) : c ∉ s.name.toList :=
  Text.not_mem_of_isPlainName (plain.names s member) special

theorem not_mem_space {s : TypeSymbol} (member : s ∈ types) {c : Char}
    (special : ['.', '<', '>', ','].contains c = true) (apart : c ∉ ".".toList) :
    c ∉ (s.space?.getD "").toList := by
  cases space : s.space? with
  | none => exact List.not_mem_nil
  | some name =>
    obtain ⟨parts, simple, rfl⟩ := plain.spaces s member name space
    exact not_mem_intercalate apart fun part own =>
      Text.not_mem_of_isPlainName (simple part own) special

theorem unbracketed_ownName {s : TypeSymbol} (member : s ∈ types) (right : List Char) :
    unbracketed false (s.ownName.toList ++ right) = s.name.toList ++ unbracketed false right := by
  have name := not_mem_name plain member (c := '<') rfl
  rw [toList_ownName, List.append_assoc, unbracketed_append name]
  split
  · rfl
  · rw [List.cons_append, List.append_assoc]
    exact congrArg _ (unbracketed_bracket (not_mem_parameters plain member rfl (by decide)) right)

theorem unbracketed_qualified {s : TypeSymbol} (member : s ∈ types) (right : List Char) :
    unbracketed false ((qualified s.space? s.ownName).toList ++ right) =
      (qualified s.space? s.name).toList ++ unbracketed false right := by
  have space := not_mem_space plain member (c := '<') rfl (by decide)
  unfold qualified joined
  split
  · exact unbracketed_ownName plain member right
  · have own : unbracketed false ('.' :: (s.ownName.toList ++ right)) =
        '.' :: (s.name.toList ++ unbracketed false right) :=
      congrArg _ (unbracketed_ownName plain member right)
    rw [toList_dotted, toList_dotted, List.append_assoc, unbracketed_append space,
      List.append_assoc]
    exact congrArg _ own

theorem bracketedCount_ownName {s : TypeSymbol} (member : s ∈ types) :
    bracketedCount s.ownName.toList = s.arity := by
  -- The name has no commas, and the list of type parameters one less than it has members.
  have name := not_mem_name plain member (c := '<') rfl
  have comma : s.name.toList.count ',' = 0 :=
    List.count_eq_zero.mpr (not_mem_name plain member rfl)
  have commas := count_comma_intercalate (plain.parameters s member)
  rw [toList_ownName, bracketedCount, TypeSymbol.arity]
  cases parameters : s.typeParameters with
  | nil => simpa using name
  | cons first rest =>
    rw [parameters] at commas
    simp only [List.isEmpty_cons, Bool.false_eq_true, if_false]
    have opened : (s.name.toList ++ '<' :: ((String.intercalate ", " (first :: rest)).toList ++
        ['>'])).contains '<' = true := by simp
    have closing : ['>'].count ',' = 0 := rfl
    rw [if_pos opened, List.count_append, List.count_cons_of_ne (by decide), List.count_append,
      comma, commas, closing, List.length_cons]
    omega

theorem dot_not_mem_ownName {s : TypeSymbol} (member : s ∈ types) : '.' ∉ s.ownName.toList := by
  have name := not_mem_name plain member (c := '.') rfl
  have parameters := not_mem_parameters plain member (c := '.') rfl (by decide)
  rw [toList_ownName, List.mem_append]
  rintro (own | inner)
  · exact name own
  · split at inner
    · exact absurd inner List.not_mem_nil
    · simp only [List.mem_cons, List.mem_append, List.not_mem_nil, or_false] at inner
      rcases inner with opening | among | closing
      · exact absurd opening (by decide)
      · exact parameters among
      · exact absurd closing (by decide)

end

namespace SymbolTable

section

variable {table : SymbolTable}

theorem displayName_nested {id outer : TypeId} {s : TypeSymbol} (there : table.types[id]? = some s)
    (placed : IsPlaced table.types id s) (around : s.container? = some outer) :
    outer < id ∧ ∃ o, table.types[outer]? = some o ∧ s.path = dotted o.path s.name ∧
      table.displayName id = dotted (table.displayName outer) s.ownName := by
  have found : table.get? id = some s := there
  unfold IsPlaced at placed
  simp only [around] at placed
  obtain ⟨earlier, o, there', path⟩ := placed
  refine ⟨earlier, o, there', path, ?_⟩
  rw [displayName, displayPrefix, found]
  simp only [around, if_pos earlier, Option.map_some, Option.getD_some]
  rfl

theorem displayName_outermost {id : TypeId} {s : TypeSymbol} (there : table.types[id]? = some s)
    (placed : IsPlaced table.types id s) (outermost : s.container? = none) :
    s.path = qualified s.space? s.name ∧ table.displayName id = qualified s.space? s.ownName := by
  have found : table.get? id = some s := there
  unfold IsPlaced at placed
  refine ⟨by simpa only [outermost] using placed, ?_⟩
  rw [displayName, displayPrefix, found]
  simp only [outermost, Option.map_some, Option.getD_some]
  unfold qualified joined
  split <;> simp [dotted]

/-- The full name of a type continues that of the type around it, or else its namespace. -/
theorem displayName_cases {id : TypeId} {s : TypeSymbol} (there : table.types[id]? = some s)
    (placed : IsPlaced table.types id s) :
    (∃ outer o, outer < id ∧ table.types[outer]? = some o ∧ s.path = dotted o.path s.name ∧
        table.displayName id = dotted (table.displayName outer) s.ownName) ∨
      (s.path = qualified s.space? s.name ∧
        table.displayName id = qualified s.space? s.ownName) := by
  obtain outermost | ⟨outer, around⟩ := Option.eq_none_or_eq_some s.container?
  · exact .inr (displayName_outermost there placed outermost)
  · obtain ⟨earlier, o, nested⟩ := displayName_nested there placed around
    exact .inl ⟨outer, o, earlier, nested⟩

variable (plain : PlainlyNamed table.types)
  (placed : ∀ {id : TypeId} {s : TypeSymbol}, table.types[id]? = some s →
    IsPlaced table.types id s)
include plain placed

/-- Without type parameters a full name is a path. -/
theorem unbracketed_displayName {id : TypeId} {s : TypeSymbol} (there : table.types[id]? = some s)
    (right : List Char) :
    unbracketed false ((table.displayName id).toList ++ right) =
      s.path.toList ++ unbracketed false right := by
  -- The induction is on the position: the type around a type comes before it.
  induction id using Nat.strongRecOn generalizing s right with
  | ind id ih =>
    have member : s ∈ table.types := List.mem_of_getElem? there
    obtain ⟨outer, o, earlier, there', path, shown⟩ | ⟨path, shown⟩ :=
      displayName_cases there (placed there)
    · have before := ih outer earlier there' ('.' :: (s.ownName.toList ++ right))
      have own : unbracketed false ('.' :: (s.ownName.toList ++ right)) =
          '.' :: (s.name.toList ++ unbracketed false right) :=
        congrArg _ (unbracketed_ownName plain member right)
      rw [shown, path, toList_dotted, toList_dotted, List.append_assoc, List.append_assoc]
      exact before.trans (congrArg _ own)
    · rw [shown, path]
      exact unbracketed_qualified plain member right

theorem lastPart_displayName {id : TypeId} {s : TypeSymbol} (there : table.types[id]? = some s) :
    Text.lastPart '.' (table.displayName id) = s.ownName := by
  have single := dot_not_mem_ownName plain (List.mem_of_getElem? there)
  obtain ⟨outer, o, -, -, -, shown⟩ | ⟨-, shown⟩ := displayName_cases there (placed there)
  · rw [shown, lastPart_dotted _ single]
  · rw [shown]
    unfold qualified joined
    split
    · exact lastPart_of_not_mem single
    · exact lastPart_dotted _ single

/-- The key of a type can be read off its full name. -/
theorem keyOfFullName_displayName {id : TypeId} {s : TypeSymbol}
    (there : table.types[id]? = some s) : keyOfFullName (table.displayName id) = s.key := by
  -- The brackets around hide nothing of the path, and the last part shows the own brackets.
  have path := unbracketed_displayName plain placed there []
  have last := lastPart_displayName plain placed there
  rw [List.append_nil] at path
  rw [keyOfFullName, path, last, bracketedCount_ownName plain (List.mem_of_getElem? there)]
  simp [unbracketed, TypeSymbol.key]

/-- No two types share a full name. -/
theorem displayName_injective (different : (table.types.map TypeSymbol.key).Nodup)
    {id id' : TypeId} (known : id < table.size) (known' : id' < table.size)
    (same : table.displayName id = table.displayName id') : id = id' := by
  obtain ⟨s, there⟩ : ∃ s, table.types[id]? = some s := ⟨_, List.getElem?_eq_getElem known⟩
  obtain ⟨s', there'⟩ : ∃ s, table.types[id']? = some s := ⟨_, List.getElem?_eq_getElem known'⟩
  -- Full names tell keys apart, and keys tell positions apart.
  have keys : s.key = s'.key := by
    rw [← keyOfFullName_displayName plain placed there, same,
      keyOfFullName_displayName plain placed there']
  have first := idOf?_key different there
  have second := idOf?_key different there'
  rw [keys, second] at first
  exact (Option.some.inj first).symm

end

/-- A full name tells by itself, without the table, the path of its type and how many type
parameters the type has. What they are called does not matter, and no other type of the file has
the name. -/
theorem fullName_identifies (tree : Tree) (plain : PlainlyNamed (ofRoot (.root tree)).types) :
    let table := ofRoot (.root tree)
    (∀ id s, table.get? id = some s →
      keyOfFullName (table.displayName id) = ⟨s.path, s.typeParameters.length⟩) ∧
    (∀ id < table.size, let key := keyOfFullName (table.displayName id)
      table.lookup? key.path key.arity = some id) ∧
    Set.InjOn table.displayName (Set.Iio table.size) := by
  intro table
  have merges := merges_ofRoot (.root tree)
  refine ⟨fun id s there => keyOfFullName_displayName plain merges.placed there, ?_, ?_⟩
  · intro id known key
    have there : table.types[id]? = some table.types[id] := List.getElem?_eq_getElem known
    have read : key = table.types[id].key := keyOfFullName_displayName plain merges.placed there
    rw [read, lookup?_eq_idOf?]
    exact idOf?_key merges.different there
  · intro id known id' known' same
    exact displayName_injective plain merges.placed merges.different known known' same

end SymbolTable

/-! ### Types of one name, inside a type with a type parameter -/

def firstRowTree (kind : String) (field? : Option String) (start : Nat) (text : String)
    (children : List Tree) : Tree :=
  .node ⟨kind, field?, true, false, ⟨start, start + text.utf8ByteSize, 0, 0⟩, text⟩ children

/-- `class Box<T> { class Lid { } class Lid<U> { } }` -/
def boxOfLids : Tree :=
  firstRowTree "class_declaration" none 31
    "class Box<T> \x7b class Lid \x7b \x7d class Lid<U> \x7b \x7d \x7d"
    [firstRowTree "identifier" (some "name") 37 "Box" [],
      firstRowTree "type_parameter_list" none 40 "<T>"
        [firstRowTree "type_parameter" none 41 "T"
          [firstRowTree "identifier" (some "name") 41 "T" []]],
      firstRowTree "declaration_list" (some "body") 44
        "\x7b class Lid \x7b \x7d class Lid<U> \x7b \x7d \x7d"
        [firstRowTree "class_declaration" none 46 "class Lid \x7b \x7d"
          [firstRowTree "identifier" (some "name") 52 "Lid" [],
            firstRowTree "declaration_list" (some "body") 56 "\x7b \x7d" []],
        firstRowTree "class_declaration" none 60 "class Lid<U> \x7b \x7d"
          [firstRowTree "identifier" (some "name") 66 "Lid" [],
            firstRowTree "type_parameter_list" none 69 "<U>"
              [firstRowTree "type_parameter" none 70 "U"
                [firstRowTree "identifier" (some "name") 70 "U" []]],
            firstRowTree "declaration_list" (some "body") 73 "\x7b \x7d" []]]]

/-- `namespace Shop { class Box { } class Box<T> { class Lid { } class Lid<U> { } } }` -/
def boxesAndLids : Tree :=
  let boxes := "\x7b class Box \x7b \x7d " ++ boxOfLids.info.text ++ " \x7d"
  firstRowTree "compilation_unit" none 0 ("namespace Shop " ++ boxes)
    [firstRowTree "namespace_declaration" none 0 ("namespace Shop " ++ boxes)
      [firstRowTree "identifier" (some "name") 10 "Shop" [],
        firstRowTree "declaration_list" (some "body") 15 boxes
          [firstRowTree "class_declaration" none 17 "class Box \x7b \x7d"
            [firstRowTree "identifier" (some "name") 23 "Box" [],
              firstRowTree "declaration_list" (some "body") 27 "\x7b \x7d" []],
            boxOfLids]]]

namespace SymbolTable

theorem boxesAndLids_plainlyNamed : PlainlyNamed (ofRoot (.root boxesAndLids)).types :=
  .of_undotted (by decide +kernel)

theorem boxesAndLids_fullNames :
    let table := ofRoot (.root boxesAndLids)
    PlainlyNamed table.types ∧
      (List.range table.size).map table.displayName =
        ["Shop.Box", "Shop.Box<T>", "Shop.Box<T>.Lid", "Shop.Box<T>.Lid<U>"] ∧
      Set.InjOn table.displayName (Set.Iio table.size) := by
  intro table
  obtain ⟨-, -, apart⟩ := fullName_identifies boxesAndLids boxesAndLids_plainlyNamed
  exact ⟨boxesAndLids_plainlyNamed, by decide +kernel, apart⟩

end SymbolTable

end ClassAtlas
