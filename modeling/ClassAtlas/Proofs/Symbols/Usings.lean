import ClassAtlas.Proofs.Text.Trim
import ClassAtlas.Symbols.Using

/-!
# Reading using directives

A directive is read back from every spelling of it: with or without `global` before it and
`global::` before the name, with any blanks wherever two words do not have to be kept apart, and
with any number of semicolons. Keywords are told from identifiers that only begin like one by the
blank after them. No other text is read as a directive than one that begins with `using` and a
blank.
-/
namespace ClassAtlas.UsingDirective

/-! ### Spellings -/

/-- A character of an identifier. -/
def isNameChar (c : Char) : Bool := !Text.isBlank c && !(['.', '=', ';', ':'].contains c)

/-- A part of a dotted name. -/
structure IsIdentifier (s : String) : Prop where
  nonempty : s ≠ ""
  chars : s.toList.all isNameChar = true

/-- Blanks between two words that have to be kept apart. -/
def IsGap (s : String) : Prop := s ≠ "" ∧ Text.allBlank s = true

/-- The text spells the dotted name with these parts: blanks may stand around the dots. -/
inductive SpellsName : List String → String → Prop
  | last {part : String} : IsIdentifier part → SpellsName [part] part
  | dot {part before after text : String} {rest : List String} :
      IsIdentifier part → Text.allBlank before = true → Text.allBlank after = true →
      SpellsName rest text → SpellsName (part :: rest) (part ++ before ++ "." ++ after ++ text)

/-- The text spells the name, perhaps after `global::` with blanks around the colons. -/
inductive SpellsRooted (parts : List String) : String → Prop
  | bare {text : String} : SpellsName parts text → SpellsRooted parts text
  | rooted {before after text : String} :
      Text.allBlank before = true → Text.allBlank after = true → SpellsName parts text →
      SpellsRooted parts ("global" ++ before ++ "::" ++ after ++ text)

/-- The text spells what a directive says after `using`. -/
inductive SpellsContent : UsingDirective → String → Prop
  | types {parts : List String} {text : String} :
      SpellsRooted parts text → parts.head? ≠ some "static" →
      SpellsContent (.types (".".intercalate parts)) text
  | members {parts : List String} {gap text : String} :
      IsGap gap → SpellsRooted parts text →
      SpellsContent (.members (".".intercalate parts)) ("static" ++ gap ++ text)
  | aliased {parts : List String} {name before after text : String} :
      IsIdentifier name → name ≠ "static" →
      Text.allBlank before = true → Text.allBlank after = true → SpellsRooted parts text →
      SpellsContent (.alias name (".".intercalate parts)) (name ++ before ++ "=" ++ after ++ text)

/-- Nothing, or the word `global` and the blanks after it. -/
def IsGlobal (s : String) : Prop := s = "" ∨ ∃ gap, IsGap gap ∧ s = "global" ++ gap

/-- Semicolons in a row, and blanks around them: what is dropped at the end of a directive. -/
def IsEnd (s : String) : Prop :=
  ∃ before semicolons after, s = before ++ semicolons ++ after ∧ Text.allBlank before = true ∧
    (semicolons.toList.all fun c => c == ';') = true ∧ Text.allBlank after = true

/-- The text spells the directive. -/
inductive Spells (directive : UsingDirective) : String → Prop
  | intro {lead word gap content last : String} :
      Text.allBlank lead = true → IsGlobal word → IsGap gap → SpellsContent directive content →
      IsEnd last → Spells directive (lead ++ word ++ "using" ++ gap ++ content ++ last)

/-- After leading blanks, and perhaps `global` and more blanks, the text goes on with `using` and a
blank. The blank is not dropped at the end of the text, since more than the end of a directive
follows `using`. -/
def BeginsUsing (text : String) : Prop :=
  ∃ lead word rest, text = lead ++ word ++ "using" ++ rest ∧ Text.allBlank lead = true ∧
    IsGlobal word ∧ Text.startsBlank rest = true ∧ ¬IsEnd rest

/-! ### The end of a directive -/

/-- A text that begins and ends with characters that are not dropped. -/
structure IsSolid (s : String) : Prop where
  starts : ∃ c rest, s.toList = c :: rest ∧ Text.isBlank c = false
  ends : ∃ front c, s.toList = front ++ [c] ∧ Text.isBlank c = false ∧ c ≠ ';'

/-- A text without what is dropped at its end. -/
def stripEnd (cs : List Char) : List Char :=
  Text.dropEndWhile Text.isBlank (Text.dropEndWhile (· == ';') (Text.dropEndWhile Text.isBlank cs))

theorem stripEnd_split (cs : List Char) :
    ∃ last, cs = stripEnd cs ++ last ∧ IsEnd (String.ofList last) := by
  obtain ⟨after, split, blank⟩ := Text.dropEndWhile_split Text.isBlank cs
  obtain ⟨semicolons, split', only⟩ :=
    Text.dropEndWhile_split (· == ';') (Text.dropEndWhile Text.isBlank cs)
  obtain ⟨before, split'', blank'⟩ := Text.dropEndWhile_split Text.isBlank
    (Text.dropEndWhile (· == ';') (Text.dropEndWhile Text.isBlank cs))
  refine ⟨before ++ semicolons ++ after, ?_, String.ofList before, String.ofList semicolons,
    String.ofList after, ?_, ?_, ?_, ?_⟩
  · rw [← List.append_assoc, ← List.append_assoc, stripEnd, ← split'', ← split', ← split]
  · rw [String.ofList_append, String.ofList_append]
  · simpa [Text.allBlank] using blank'
  · exact List.all_eq_true.mpr (by simpa using only)
  · simpa [Text.allBlank] using blank

/-- Nothing is left of the end of a directive. -/
theorem stripEnd_of_isEnd {s : String} (last : IsEnd s) : stripEnd s.toList = [] := by
  obtain ⟨before, semicolons, after, rfl, blank, only, blank'⟩ := last
  have semicolon : ∀ c ∈ semicolons.toList, (c == ';') = true := List.all_eq_true.mp only
  rw [String.toList_append, String.toList_append, stripEnd,
    Text.dropEndWhile_append _ (List.all_eq_true.mp blank')]
  -- The blanks before the semicolons go with those after them, or after the semicolons.
  rcases List.eq_nil_or_concat semicolons.toList with none | ⟨front, c, split⟩
  · rw [none, List.append_nil, Text.dropEndWhile_of_all (List.all_eq_true.mp blank)]
    rfl
  · have visible : Text.isBlank c = false := by
      rw [beq_iff_eq.mp (semicolon c (by simp [split]))]
      decide
    have kept := Text.dropEndWhile_concat (before.toList ++ front) visible
    rw [List.append_assoc, ← List.concat_eq_append, ← split] at kept
    rw [kept, Text.dropEndWhile_append _ semicolon]
    exact Text.dropEndWhile_of_all fun c member => List.all_eq_true.mp blank c
      ((Text.dropEndWhile_prefix _ _).subset member)

theorem stripEnd_append {s : String} (solid : IsSolid s) (cs : List Char) :
    stripEnd (s.toList ++ cs) = s.toList ++ stripEnd cs := by
  obtain ⟨front, c, split, visible, other⟩ := solid.ends
  have kept := Text.dropEndWhile_append_of_kept (p := (· == ';')) front
    (beq_eq_false_iff_ne.mpr other)
  rw [split, stripEnd, Text.dropEndWhile_append_of_kept front visible, kept,
    Text.dropEndWhile_append_of_kept front visible, stripEnd]

theorem stripEnd_eq_nil_iff {s : String} : stripEnd s.toList = [] ↔ IsEnd s := by
  constructor
  · intro gone
    obtain ⟨last, split, isEnd⟩ := stripEnd_split s.toList
    rw [gone, List.nil_append] at split
    rwa [← split, String.ofList_toList] at isEnd
  · exact stripEnd_of_isEnd

theorem toList_withoutSemicolons (text : String) :
    (withoutSemicolons text).toList = stripEnd (text.toList.dropWhile Text.isBlank) := by
  -- What is left after the first step begins like the text without its leading blanks.
  have still {cs : List Char} (begins : cs <+: text.toList.dropWhile Text.isBlank) :
      cs.dropWhile Text.isBlank = cs := by
    cases cs with
    | nil => rfl
    | cons c rest =>
      obtain ⟨more, split⟩ := begins
      have visible := List.head?_dropWhile_not Text.isBlank text.toList
      rw [← split] at visible
      exact List.dropWhile_cons_of_neg (by simpa using visible)
  have begins := (Text.dropEndWhile_prefix (· == ';') _).trans
    (Text.dropEndWhile_prefix Text.isBlank (text.toList.dropWhile Text.isBlank))
  rw [withoutSemicolons, Text.trim, Text.trim, String.toList_ofList, String.toList_ofList,
    String.toList_ofList, still begins, stripEnd]

/-- Reading does not see leading blanks, nor the end of the directive. -/
theorem withoutSemicolons_append {lead s : String} (blank : Text.allBlank lead = true)
    (solid : IsSolid s) (rest : String) :
    withoutSemicolons (lead ++ s ++ rest) = s ++ String.ofList (stripEnd rest.toList) := by
  obtain ⟨c, cs, split, visible⟩ := solid.starts
  have start : (lead ++ s ++ rest).toList.dropWhile Text.isBlank = s.toList ++ rest.toList := by
    rw [String.toList_append, String.toList_append, List.append_assoc,
      List.dropWhile_append_of_pos (List.all_eq_true.mp blank), split]
    exact List.dropWhile_cons_of_neg (by simp [visible])
  rw [← String.toList_inj, toList_withoutSemicolons, start, stripEnd_append solid,
    String.toList_append, String.toList_ofList]

/-! ### Keywords -/

theorem afterKeyword?_eq_some_iff {keyword s rest : String} :
    afterKeyword? keyword s = some rest ↔
      ∃ following, s = keyword ++ following ∧ Text.startsBlank following = true ∧
        rest = Text.trimStart following := by
  simp only [afterKeyword?, Option.bind_eq_some_iff, Text.dropHead?_eq_some_iff]
  refine exists_congr fun following => and_congr_right fun _ => ?_
  cases Text.startsBlank following <;> simp [eq_comm]

theorem startsBlank_append {gap : String} (separates : IsGap gap) (s : String) :
    Text.startsBlank (gap ++ s) = true := by
  obtain ⟨some_gap, blank⟩ := separates
  cases split : gap.toList with
  | nil => exact absurd (String.toList_eq_nil_iff.mp split) some_gap
  | cons c rest =>
    have first := List.all_eq_true.mp blank c (by simp [split])
    simp [Text.startsBlank, split, first]

theorem afterKeyword?_append {gap s : String} (keyword : String) (separates : IsGap gap)
    (visible : Text.startsBlank s = false) :
    afterKeyword? keyword (keyword ++ gap ++ s) = some s :=
  afterKeyword?_eq_some_iff.mpr ⟨gap ++ s, String.append_assoc .., startsBlank_append separates s,
    (Text.trimStart_append separates.2 visible).symm⟩

/-- The text begins with the word, and no longer identifier. -/
def BeginsWith (word s : String) : Prop :=
  ∃ rest, s = word ++ rest ∧ ∀ c ∈ rest.toList.head?, isNameChar c = false

theorem IsIdentifier.isNameChar {s : String} (identifier : IsIdentifier s) {c : Char}
    (member : c ∈ s.toList) : isNameChar c = true :=
  List.all_eq_true.mp identifier.chars c member

theorem takeWhile_of_beginsWith {word s : String} (identifier : IsIdentifier word)
    (begins : BeginsWith word s) : s.toList.takeWhile isNameChar = word.toList := by
  obtain ⟨rest, rfl, stops⟩ := begins
  rw [String.toList_append, List.takeWhile_append_of_pos fun _ => identifier.isNameChar]
  cases split : rest.toList with
  | nil => simp
  | cons c cs =>
    rw [split] at stops
    simp [stops c rfl]

/-- An identifier that begins like a keyword is not taken for it. -/
theorem afterKeyword?_of_beginsWith {word s keyword : String} (identifier : IsIdentifier word)
    (begins : BeginsWith word s) (isKeyword : IsIdentifier keyword) (other : word ≠ keyword) :
    afterKeyword? keyword s = none := by
  rw [Option.eq_none_iff_forall_not_mem]
  intro rest found
  obtain ⟨following, split, blank, -⟩ := afterKeyword?_eq_some_iff.mp found
  -- Both are all that the text begins with before a character that no identifier has.
  have whole : BeginsWith keyword s := by
    refine ⟨following, split, fun c first => ?_⟩
    rw [Text.startsBlank, Option.mem_def.mp first] at blank
    simpa [UsingDirective.isNameChar] using fun visible => absurd blank (by simp [visible])
  have same := takeWhile_of_beginsWith identifier begins
  rw [takeWhile_of_beginsWith isKeyword whole, String.toList_inj] at same
  exact other same.symm

/-! ### Names -/

theorem IsSolid.between {first last : String} (starts : IsSolid first) (ends : IsSolid last)
    (middle : String) : IsSolid (first ++ middle ++ last) := by
  obtain ⟨c, rest, split, visible⟩ := starts.starts
  obtain ⟨front, c', split', visible', other⟩ := ends.ends
  refine ⟨⟨c, rest ++ middle.toList ++ last.toList, ?_, visible⟩,
    ⟨first.toList ++ middle.toList ++ front, c', ?_, visible', other⟩⟩
  · simp [split]
  · simp [split']

theorem IsSolid.around {first last : String} (starts : IsSolid first) (ends : IsSolid last)
    (before separator after : String) :
    IsSolid (first ++ before ++ separator ++ after ++ last) := by
  have whole := starts.between ends (before ++ separator ++ after)
  rwa [← String.append_assoc, ← String.append_assoc] at whole

theorem IsSolid.startsBlank {s : String} (solid : IsSolid s) : Text.startsBlank s = false := by
  obtain ⟨c, rest, split, visible⟩ := solid.starts
  simp [Text.startsBlank, split, visible]

theorem isBlank_of_isNameChar {c : Char} (part : isNameChar c = true) : Text.isBlank c = false := by
  simp only [isNameChar, Bool.and_eq_true, Bool.not_eq_true'] at part
  exact part.1

theorem isIdentifier_global : IsIdentifier "global" := ⟨by decide, rfl⟩

theorem isIdentifier_static : IsIdentifier "static" := ⟨by decide, rfl⟩

theorem IsIdentifier.solid {s : String} (identifier : IsIdentifier s) : IsSolid s := by
  -- No character of an identifier is dropped, so neither its first nor its last one is.
  have nonempty : s.toList ≠ [] := fun none =>
    identifier.nonempty (String.toList_eq_nil_iff.mp none)
  have first := identifier.isNameChar (List.head_mem nonempty)
  have last := identifier.isNameChar (List.getLast_mem nonempty)
  refine ⟨⟨_, _, (List.cons_head_tail nonempty).symm, isBlank_of_isNameChar first⟩,
    ⟨_, _, (List.dropLast_concat_getLast nonempty).symm, isBlank_of_isNameChar last, ?_⟩⟩
  intro same
  rw [same] at last
  exact absurd last (by decide)

theorem IsIdentifier.compact {s : String} (identifier : IsIdentifier s) :
    Text.compact s = s := by
  have all : s.toList.filter (fun c => !Text.isBlank c) = s.toList :=
    List.filter_eq_self.mpr fun c member => by
      simp [isBlank_of_isNameChar (identifier.isNameChar member)]
  rw [Text.compact, all, String.ofList_toList]

theorem SpellsName.solid {parts : List String} {text : String} (spells : SpellsName parts text) :
    IsSolid text := by
  induction spells with
  | last identifier => exact identifier.solid
  | dot identifier _ _ _ ih => exact identifier.solid.around ih _ "." _

theorem SpellsName.chars {parts : List String} {text : String} (spells : SpellsName parts text) :
    ∀ c ∈ text.toList, isNameChar c = true ∨ Text.isBlank c = true ∨ c = '.' := by
  induction spells with
  | last identifier => exact fun c member => .inl (identifier.isNameChar member)
  | @dot part before after text _ identifier blank blank' _ ih =>
    intro c member
    simp only [String.toList_append, List.mem_append] at member
    rcases member with (((own | gap) | dot) | gap) | later
    · exact .inl (identifier.isNameChar own)
    · exact .inr (.inl (List.all_eq_true.mp blank c gap))
    · exact .inr (.inr (by simpa using dot))
    · exact .inr (.inl (List.all_eq_true.mp blank' c gap))
    · exact ih c later

theorem SpellsName.compact {parts : List String} {text : String}
    (spells : SpellsName parts text) : Text.compact text = ".".intercalate parts := by
  have dot : Text.compact "." = "." := by decide
  induction spells with
  | last identifier => exact identifier.compact
  | @dot part before after text rest identifier blank blank' later ih =>
    -- A dot is written between two parts only, so what follows this one is not empty.
    obtain ⟨next, others, rfl⟩ : ∃ next others, rest = next :: others := by
      cases later <;> exact ⟨_, _, rfl⟩
    rw [String.intercalate_cons_cons, ← ih]
    simp only [Text.compact_append, identifier.compact, Text.compact_of_allBlank blank,
      Text.compact_of_allBlank blank', dot, String.append_empty]

theorem dropHead_of_not_mem {s : String} (single : ':' ∉ s.toList) :
    Text.dropHead "global::" s = s := by
  rw [Text.dropHead]
  cases found : Text.dropHead? "global::" s with
  | none => rfl
  | some rest =>
    rw [Text.dropHead?_eq_some_iff.mp found] at single
    simp at single

theorem IsIdentifier.plainName {s before : String} (identifier : IsIdentifier s)
    (blank : Text.allBlank before = true) : plainName (s ++ before) = s := by
  have single : ':' ∉ s.toList := fun member => absurd (identifier.isNameChar member) (by decide)
  rw [UsingDirective.plainName, Text.compact_append, identifier.compact,
    Text.compact_of_allBlank blank, String.append_empty, dropHead_of_not_mem single]

theorem plainName_append {before : String} (blank : Text.allBlank before = true) (s : String) :
    plainName (before ++ s) = plainName s := by
  rw [plainName, Text.compact_append, Text.compact_of_allBlank blank, String.empty_append,
    plainName]

namespace SpellsRooted

variable {parts : List String} {text : String}

theorem solid (spells : SpellsRooted parts text) : IsSolid text := by
  cases spells with
  | bare name => exact name.solid
  | rooted _ _ name => exact isIdentifier_global.solid.around name.solid _ "::" _

theorem not_mem (spells : SpellsRooted parts text) : '=' ∉ text.toList := by
  have inName {text : String} (name : SpellsName parts text) : '=' ∉ text.toList := fun member =>
    absurd (name.chars _ member) (by decide)
  cases spells with
  | bare name => exact inName name
  | @rooted before after text blank blank' name =>
    have visible : Text.isBlank '=' = false := by decide
    simp [Text.not_mem_of_allBlank blank visible, Text.not_mem_of_allBlank blank' visible,
      inName name]

/-- The name is kept without blanks and without its root. -/
theorem plainName (spells : SpellsRooted parts text) :
    plainName text = ".".intercalate parts := by
  -- The parts have no colons, so what is kept is not taken for a rooted name again.
  have single {text : String} (name : SpellsName parts text) :
      ':' ∉ (".".intercalate parts).toList := by
    rw [← name.compact]
    intro member
    obtain ⟨inside, visible⟩ := Text.mem_compact.mp member
    rcases name.chars _ inside with part | blank | dot
    · exact absurd part (by decide)
    · rw [visible] at blank
      cases blank
    · cases dot
  cases spells with
  | bare name => rw [UsingDirective.plainName, name.compact, dropHead_of_not_mem (single name)]
  | @rooted before after text blank blank' name =>
    have root : Text.compact "global" = "global" ∧ Text.compact "::" = "::" := by decide
    have whole : Text.compact ("global" ++ before ++ "::" ++ after ++ text) =
        "global::" ++ ".".intercalate parts := by
      simp only [Text.compact_append, root, Text.compact_of_allBlank blank,
        Text.compact_of_allBlank blank', name.compact, String.append_empty]
      rfl
    rw [UsingDirective.plainName, whole, Text.dropHead, Text.dropHead?_eq_some_iff.mpr rfl,
      Option.getD_some]

end SpellsRooted

/-! ### First words -/

/-- A word ends before blanks and a separator. -/
theorem beginsWith_append (word : String) {before separator : String}
    (blank : Text.allBlank before = true)
    (stops : (separator.toList.head?.any fun c => !isNameChar c) = true) (after rest : String) :
    BeginsWith word (word ++ before ++ separator ++ after ++ rest) := by
  obtain ⟨mark, first, other⟩ := (Option.any_eq_true ..).mp stops
  refine ⟨before ++ separator ++ after ++ rest, by simp only [String.append_assoc], ?_⟩
  intro c head
  simp only [String.toList_append, List.append_assoc] at head
  -- What follows the word is a blank or, if there is none, the first character of the separator.
  cases split : before.toList with
  | nil =>
    rw [split, List.nil_append, List.head?_append, first] at head
    cases head
    simpa using other
  | cons c' rest =>
    have gap := List.all_eq_true.mp blank c' (by simp [split])
    rw [split] at head
    cases head
    simp [isNameChar, gap]

theorem SpellsName.beginsWith {parts : List String} {text : String}
    (spells : SpellsName parts text) :
    ∃ part, parts.head? = some part ∧ IsIdentifier part ∧ BeginsWith part text := by
  cases spells with
  | last identifier => exact ⟨_, rfl, identifier, "", String.append_empty.symm, nofun⟩
  | dot identifier blank _ _ =>
    exact ⟨_, rfl, identifier, beginsWith_append _ blank (by decide) _ _⟩

theorem SpellsRooted.beginsWith {parts : List String} {text : String}
    (spells : SpellsRooted parts text) :
    ∃ word, (parts.head? = some word ∨ word = "global") ∧ IsIdentifier word ∧
      BeginsWith word text := by
  cases spells with
  | bare name =>
    obtain ⟨part, first, identifier, begins⟩ := name.beginsWith
    exact ⟨part, .inl first, identifier, begins⟩
  | rooted blank _ _ =>
    exact ⟨"global", .inr rfl, isIdentifier_global,
      beginsWith_append _ blank (by decide) _ _⟩

/-! ### What follows `using` -/

theorem SpellsContent.solid {directive : UsingDirective} {text : String}
    (spells : SpellsContent directive text) : IsSolid text := by
  cases spells with
  | types name _ => exact name.solid
  | members _ name => exact isIdentifier_static.solid.between name.solid _
  | aliased identifier _ _ _ target => exact identifier.solid.around target.solid _ "=" _

theorem splitFirst?_of_not_mem {front : String} (before : '=' ∉ front.toList) (back : String) :
    Text.splitFirst? '=' (front ++ "=" ++ back) = some (front, back) := by
  have chars : (front ++ "=" ++ back).toList = front.toList ++ '=' :: back.toList := by simp
  rw [Text.splitFirst?, chars, Text.cutFirst?_of_not_mem before, Option.map_some,
    String.ofList_toList, String.ofList_toList]

/-- The text of a directive without `global`. -/
def withoutGlobal (text : String) : String :=
  (afterKeyword? "global" (withoutSemicolons text)).getD (withoutSemicolons text)

theorem parse?_of_spellsContent {directive : UsingDirective} {text content : String}
    (found : afterKeyword? "using" (withoutGlobal text) = some content)
    (spells : SpellsContent directive content) : parse? text = some directive := by
  rw [withoutGlobal] at found
  simp only [parse?, found, Option.map_some, Option.some.injEq]
  cases spells with
  -- The first word is not `static`, and a name has no equals sign.
  | types name other =>
    obtain ⟨word, first, identifier, begins⟩ := name.beginsWith
    have apart : word ≠ "static" := by
      rintro rfl
      rcases first with first | root
      · exact other first
      · exact absurd root (by decide)
    have none : Text.splitFirst? '=' content = none := by
      rw [Text.splitFirst?, Text.cutFirst?_eq_none_iff.mpr name.not_mem, Option.map_none]
    simp only [afterKeyword?_of_beginsWith identifier begins isIdentifier_static apart, none,
      name.plainName]
  | members gap name =>
    simp only [afterKeyword?_append "static" gap name.solid.startsBlank, name.plainName]
  -- The first equals sign is the one between the two names.
  | @aliased _ name before after text identifier apart blank blank' target =>
    have begins : BeginsWith name (name ++ before ++ "=" ++ after ++ text) :=
      beginsWith_append _ blank (by decide) _ _
    have single : '=' ∉ (name ++ before).toList := by
      have visible : Text.isBlank '=' = false := by decide
      have inName : '=' ∉ name.toList := fun member =>
        absurd (identifier.isNameChar member) (by decide)
      simp [inName, Text.not_mem_of_allBlank blank visible]
    have split := splitFirst?_of_not_mem single (after ++ text)
    rw [← String.append_assoc] at split
    simp only [afterKeyword?_of_beginsWith identifier begins isIdentifier_static apart, split,
      identifier.plainName blank, plainName_append blank', target.plainName]

/-! ### What stands before `using` -/

theorem parse?_eq_none_iff (text : String) :
    parse? text = none ↔ afterKeyword? "using" (withoutGlobal text) = none := by
  rw [withoutGlobal, parse?, Option.map_eq_none_iff]

theorem IsGlobal.solid {word : String} (isGlobal : IsGlobal word) : IsSolid (word ++ "using") := by
  have using_ : IsIdentifier "using" := ⟨by decide, rfl⟩
  rcases isGlobal with rfl | ⟨gap, -, rfl⟩
  · rw [String.empty_append]
    exact using_.solid
  · exact isIdentifier_global.solid.between using_.solid gap

theorem withoutSemicolons_using {lead word : String} (blank : Text.allBlank lead = true)
    (isGlobal : IsGlobal word) (rest : String) :
    withoutSemicolons (lead ++ word ++ "using" ++ rest) =
      word ++ "using" ++ String.ofList (stripEnd rest.toList) := by
  have whole := withoutSemicolons_append blank isGlobal.solid rest
  rwa [← String.append_assoc] at whole

theorem withoutGlobal_eq {text word following : String} (isGlobal : IsGlobal word)
    (split : withoutSemicolons text = word ++ "using" ++ following) :
    withoutGlobal text = "using" ++ following := by
  rw [withoutGlobal, split]
  rcases isGlobal with rfl | ⟨gap, separates, rfl⟩
  · have none : afterKeyword? "global" ("" ++ "using" ++ following) = none := by
      rw [Option.eq_none_iff_forall_not_mem]
      intro rest found
      obtain ⟨more, same, -⟩ := afterKeyword?_eq_some_iff.mp found
      simpa using congrArg String.toList same
    rw [none, Option.getD_none, String.empty_append]
  · have visible : Text.startsBlank ("using" ++ following) = false := by
      simp [Text.startsBlank, show Text.isBlank 'u' = false by decide]
    have found := afterKeyword?_append "global" separates visible
    rw [← String.append_assoc] at found
    rw [found, Option.getD_some]

theorem exists_gap {s : String} (begins : Text.startsBlank s = true) :
    ∃ gap, IsGap gap ∧ s = gap ++ Text.trimStart s := by
  refine ⟨String.ofList (s.toList.takeWhile Text.isBlank), ⟨?_, ?_⟩, ?_⟩
  · intro none
    cases split : s.toList with
    | nil => simp [Text.startsBlank, split] at begins
    | cons c rest =>
      rw [Text.startsBlank, split] at begins
      rw [split, List.takeWhile_cons_of_pos (by simpa using begins)] at none
      simp at none
  · exact Text.allBlank_takeWhile s
  · rw [Text.trimStart, ← String.ofList_append, List.takeWhile_append_dropWhile,
      String.ofList_toList]

theorem exists_isGlobal {text following : String}
    (split : withoutGlobal text = "using" ++ following) :
    ∃ word, IsGlobal word ∧ withoutSemicolons text = word ++ "using" ++ following := by
  rw [withoutGlobal] at split
  cases found : afterKeyword? "global" (withoutSemicolons text) with
  | none =>
    rw [found, Option.getD_none] at split
    exact ⟨"", .inl rfl, by rw [String.empty_append, split]⟩
  | some rest =>
    obtain ⟨more, whole, blank, rfl⟩ := afterKeyword?_eq_some_iff.mp found
    obtain ⟨gap, separates, same⟩ := exists_gap blank
    rw [found, Option.getD_some] at split
    refine ⟨"global" ++ gap, .inr ⟨gap, separates, rfl⟩, ?_⟩
    rw [whole, same, split]
    simp only [String.append_assoc]

theorem withoutSemicolons_split (text : String) :
    ∃ lead last, Text.allBlank lead = true ∧ text = lead ++ withoutSemicolons text ++ last := by
  obtain ⟨last, split, -⟩ := stripEnd_split (text.toList.dropWhile Text.isBlank)
  refine ⟨String.ofList (text.toList.takeWhile Text.isBlank), String.ofList last, ?_, ?_⟩
  · exact Text.allBlank_takeWhile text
  · rw [← String.toList_inj]
    simp only [String.toList_append, String.toList_ofList, toList_withoutSemicolons]
    rw [List.append_assoc, ← split, List.takeWhile_append_dropWhile]

theorem startsBlank_append_right {s : String} (begins : Text.startsBlank s = true)
    (rest : String) : Text.startsBlank (s ++ rest) = true := by
  obtain ⟨gap, separates, same⟩ := exists_gap begins
  rw [same, String.append_assoc]
  exact startsBlank_append separates _

/-- What is left of a text that begins with a blank begins with it. -/
theorem startsBlank_stripEnd {s : String} (begins : Text.startsBlank s = true)
    (more : ¬IsEnd s) : Text.startsBlank (String.ofList (stripEnd s.toList)) = true := by
  obtain ⟨last, split, -⟩ := stripEnd_split s.toList
  cases kept : stripEnd s.toList with
  | nil => exact absurd (stripEnd_eq_nil_iff.mp kept) more
  | cons c rest =>
    rw [Text.startsBlank, split, kept] at begins
    simpa [Text.startsBlank] using begins

/-- A directive is read from what begins with `using` and a blank, and from nothing else. -/
theorem parse?_ne_none_iff (text : String) : parse? text ≠ none ↔ BeginsUsing text := by
  rw [Ne, parse?_eq_none_iff, ← Ne, Option.ne_none_iff_exists']
  constructor
  · rintro ⟨content, found⟩
    obtain ⟨following, split, begins, -⟩ := afterKeyword?_eq_some_iff.mp found
    obtain ⟨word, isGlobal, kept⟩ := exists_isGlobal split
    obtain ⟨lead, last, blank, whole⟩ := withoutSemicolons_split text
    have whole : text = lead ++ word ++ "using" ++ (following ++ last) := by
      rw [whole, kept]
      simp only [String.append_assoc]
    refine ⟨lead, word, following ++ last, whole, blank, isGlobal,
      startsBlank_append_right begins last, fun isEnd => ?_⟩
    -- If only the end of a directive followed `using`, nothing would be left of it.
    rw [whole, withoutSemicolons_using blank isGlobal, stripEnd_of_isEnd isEnd] at kept
    have none : "" = following := by simpa using congrArg String.toList kept
    rw [← none] at begins
    cases begins
  · rintro ⟨lead, word, rest, rfl, blank, isGlobal, begins, more⟩
    have split := withoutGlobal_eq isGlobal (withoutSemicolons_using blank isGlobal rest)
    exact ⟨_, afterKeyword?_eq_some_iff.mpr ⟨_, split, startsBlank_stripEnd begins more, rfl⟩⟩

theorem parse?_of_spells {directive : UsingDirective} {text : String}
    (spells : Spells directive text) : parse? text = some directive := by
  obtain @⟨lead, word, gap, content, last, blank, isGlobal, separates, spells, isEnd⟩ := spells
  have kept : withoutSemicolons (lead ++ word ++ "using" ++ gap ++ content ++ last) =
      word ++ "using" ++ (gap ++ content) := by
    have stripped :=
      withoutSemicolons_append blank (isGlobal.solid.between spells.solid gap) last
    rw [stripEnd_of_isEnd isEnd, String.ofList_nil, String.append_empty] at stripped
    simpa only [String.append_assoc] using stripped
  refine parse?_of_spellsContent ?_ spells
  rw [withoutGlobal_eq isGlobal kept, ← String.append_assoc]
  exact afterKeyword?_append "using" separates spells.solid.startsBlank

/-- A directive is read back from each of its spellings, and a text is read as a directive only if
it begins with `using` and a blank. -/
theorem spellings_readBack (text : String) :
    (∀ directive, Spells directive text → parse? text = some directive) ∧
      (parse? text ≠ none ↔ BeginsUsing text) :=
  ⟨fun _ spells => parse?_of_spells spells, parse?_ne_none_iff text⟩

/-- A directive with blanks wherever it may have some. -/
def spreadAlias : String := "global using  Json =\tglobal :: System . Text ;;\n"

theorem spreadAlias_readBack :
    Spells (.alias "Json" "System.Text") spreadAlias ∧
      parse? spreadAlias = some (.alias "Json" "System.Text") := by
  have name : SpellsName ["System", "Text"] ("System" ++ " " ++ "." ++ " " ++ "Text") :=
    .dot ⟨by decide, rfl⟩ rfl rfl (.last ⟨by decide, rfl⟩)
  have content : SpellsContent (.alias "Json" (".".intercalate ["System", "Text"]))
      ("Json" ++ " " ++ "=" ++ "\t" ++
        ("global" ++ " " ++ "::" ++ " " ++ ("System" ++ " " ++ "." ++ " " ++ "Text"))) :=
    .aliased ⟨by decide, rfl⟩ (by decide) rfl rfl (.rooted rfl rfl name)
  have isEnd : IsEnd " ;;\n" := ⟨" ", ";;", "\n", by decide, rfl, rfl, rfl⟩
  have parts : spreadAlias = "" ++ ("global" ++ " ") ++ "using" ++ "  " ++
      ("Json" ++ " " ++ "=" ++ "\t" ++
        ("global" ++ " " ++ "::" ++ " " ++ ("System" ++ " " ++ "." ++ " " ++ "Text"))) ++
      " ;;\n" := by
    decide
  have spells : Spells (.alias "Json" "System.Text") spreadAlias := by
    rw [parts]
    exact .intro rfl (.inr ⟨" ", ⟨by decide, rfl⟩, rfl⟩) ⟨by decide, rfl⟩ content isEnd
  exact ⟨spells, (spellings_readBack spreadAlias).1 _ spells⟩

end ClassAtlas.UsingDirective
