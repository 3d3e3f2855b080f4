import ClassAtlas.Proofs.Json.Strings
import Mathlib.Data.List.DropRight

/-!
# JSON documents read back

What is written of a value in either style is read back as that value, with everything after it left
over. The proof follows the structure of values: an array or an object is read back if each of its
items is. Blanks only stand where the reader skips them, and each level of nesting has characters of
its own, so the length of a text bounds the depth of the recursion that reads it.

Number literals are left out, since only some texts are number literals and nothing written here has
any; so are strings that stand for no text.
-/
namespace ClassAtlas.JsonValue

/-- The value consists of texts, truth values, nulls, and arrays and objects of such values. -/
inductive Textual : JsonValue → Prop
  | null : Textual .null
  | bool (value : Bool) : Textual (.bool value)
  | string (text : String) : Textual (.string text)
  | array {items : List JsonValue} : (∀ item ∈ items, Textual item) → Textual (.array items)
  | object {members : List (String × JsonValue)} :
      (∀ member ∈ members, Textual member.2) → Textual (.object members)

/-- The value is read back from what is written of it, whatever follows. -/
def ReadsBack (style : Style) (value : JsonValue) : Prop :=
  ∀ level fuel rest, (write style level value).length ≤ fuel →
    readValue fuel (write style level value ++ rest) = some (value, rest)

/-! ### Blanks -/

theorem skipBlanks_cons {c : Char} (visible : isSeparator c = false) (rest : List Char) :
    skipBlanks (c :: rest) = c :: rest := by
  simp [skipBlanks, visible]

theorem skipBlanks_skipBlanks (s : List Char) : skipBlanks (skipBlanks s) = skipBlanks s :=
  List.dropWhile_idempotent _ s

@[simp] theorem skipBlanks_lineBreak (style : Style) (level : Nat) (rest : List Char) :
    skipBlanks (lineBreak style level ++ rest) = skipBlanks rest := by
  cases style with
  | compact => rfl
  | pretty =>
    have blank : ∀ c ∈ lineBreak .pretty level, isSeparator c = true := by
      intro c member
      simp only [lineBreak, List.mem_cons, List.mem_replicate] at member
      rcases member with rfl | ⟨-, rfl⟩ <;> rfl
    exact List.dropWhile_append_of_pos blank

theorem readValue_skipBlanks (fuel : Nat) (s : List Char) :
    readValue fuel (skipBlanks s) = readValue fuel s := by
  cases fuel with
  | zero => rfl
  | succ fuel => rw [readValue, readValue, skipBlanks_skipBlanks]

theorem readItems_skipBlanks (fuel : Nat) (s : List Char) :
    readItems fuel (skipBlanks s) = readItems fuel s := by
  cases fuel with
  | zero => rfl
  | succ fuel => rw [readItems, readItems, readValue_skipBlanks]

theorem readMembers_skipBlanks (fuel : Nat) (s : List Char) :
    readMembers fuel (skipBlanks s) = readMembers fuel s := by
  cases fuel with
  | zero => rfl
  | succ fuel => rw [readMembers, readMembers, skipBlanks_skipBlanks]

theorem readValue_lineBreak (style : Style) (level fuel : Nat) (rest : List Char) :
    readValue fuel (lineBreak style level ++ rest) = readValue fuel rest := by
  rw [← readValue_skipBlanks, skipBlanks_lineBreak, readValue_skipBlanks]

/-! ### How texts of values begin -/

theorem enclose_nil (style : Style) (level : Nat) (opening closing : Char) :
    enclose style level opening closing [] = [opening, closing] := rfl

theorem enclose_of_ne_nil {style : Style} {level : Nat} {opening closing : Char}
    {inside : List Char} (some_inside : inside ≠ []) :
    enclose style level opening closing inside =
      opening :: (inside ++ lineBreak style level ++ [closing]) := by
  simp [enclose, some_inside]

theorem exists_enclose_cons (style : Style) (level : Nat) (opening closing : Char)
    (inside : List Char) : ∃ rest, enclose style level opening closing inside = opening :: rest := by
  unfold enclose
  split <;> exact ⟨_, rfl⟩

/-- No written value begins with a blank or a closing bracket. -/
theorem Textual.exists_write_cons {value : JsonValue} (textual : Textual value) (style : Style)
    (level : Nat) : ∃ first rest, write style level value = first :: rest ∧
      isSeparator first = false ∧ first ≠ ']' := by
  cases textual with
  | null => exact ⟨_, _, by rw [write], rfl, by decide⟩
  | bool value => cases value <;> exact ⟨_, _, by rw [write], rfl, by decide⟩
  | string text => exact ⟨_, _, by rw [write, writeString], rfl, by decide⟩
  | array each =>
    obtain ⟨rest, written⟩ := exists_enclose_cons style level '[' ']' _
    exact ⟨_, rest, by rw [write, written], rfl, by decide⟩
  | object each =>
    obtain ⟨rest, written⟩ := exists_enclose_cons style level '\x7b' '\x7d' _
    exact ⟨_, rest, by rw [write, written], rfl, by decide⟩

theorem Textual.exists_fuel {value : JsonValue} (textual : Textual value) {style : Style}
    {level fuel : Nat} (enough : (write style level value).length ≤ fuel) :
    ∃ smaller, fuel = smaller + 1 := by
  obtain ⟨first, rest, written, -⟩ := textual.exists_write_cons style level
  rw [written, List.length_cons] at enough
  exact ⟨fuel - 1, by omega⟩

/-! ### Arrays -/

theorem readValue_array {fuel : Nat} {s tail rest : List Char} {first : Char}
    {items : List JsonValue} (head : skipBlanks s = first :: tail) (other : first ≠ ']')
    (read : readItems fuel s = some (items, rest)) :
    readValue (fuel + 1) ('[' :: s) = some (.array items, rest) := by
  rw [← readItems_skipBlanks, head] at read
  rw [readValue, skipBlanks_cons rfl]
  simp only [head]
  split
  next equal => exact absurd (List.cons.inj equal).1 other
  next => simp [read]

/-- Items begin with no closing bracket, whatever follows them. -/
theorem writeItems_begin {items : List JsonValue} (some_item : items ≠ [])
    (each : ∀ item ∈ items, Textual item) (style : Style) (level : Nat) :
    writeItems style level items ≠ [] ∧ ∀ more, ∃ first tail,
      skipBlanks (writeItems style level items ++ more) = first :: tail ∧ first ≠ ']' := by
  obtain ⟨item, later, rfl⟩ := List.exists_cons_of_ne_nil some_item
  obtain ⟨first, rest, written, visible, other⟩ :=
    (each item List.mem_cons_self).exists_write_cons style level
  simp [writeItems, written, skipBlanks_cons visible, other]

/-- What is read after an item: nothing more, or further items. -/
def itemsAfter (fuel : Nat) (item : JsonValue) (s : List Char) :
    Option (List JsonValue × List Char) :=
  match skipBlanks s with
  | ']' :: rest => some ([item], rest)
  | ',' :: rest => (readItems fuel rest).map fun (items, rest) => (item :: items, rest)
  | _ => none

theorem readItems_item {style : Style} {item : JsonValue} (readsBack : ReadsBack style item)
    {level fuel : Nat} (enough : (write style level item).length ≤ fuel) (tail : List Char) :
    readItems (fuel + 1) (lineBreak style level ++ write style level item ++ tail) =
      itemsAfter fuel item tail := by
  rw [readItems, List.append_assoc, readValue_lineBreak, readsBack _ _ _ enough]
  rfl

theorem readItems_written {style : Style} {items : List JsonValue} (some_item : items ≠ [])
    (each : ∀ item ∈ items, ReadsBack style item) {level fuel : Nat}
    (enough : (writeItems style level items).length + 1 ≤ fuel) (outer : Nat) (rest : List Char) :
    readItems fuel (writeItems style level items ++ (lineBreak style outer ++ ']' :: rest)) =
      some (items, rest) := by
  -- Each item takes one unit of fuel; the comma after it, or the spare unit at the end, pays for it.
  induction items generalizing fuel with
  | nil => exact absurd rfl some_item
  | cons item later ih =>
    obtain ⟨fuel, rfl⟩ : ∃ smaller, fuel = smaller + 1 := ⟨fuel - 1, by omega⟩
    have readsBack := each item List.mem_cons_self
    rw [writeItems] at enough ⊢
    simp only [List.length_append] at enough
    rw [List.append_assoc, readItems_item readsBack (by omega)]
    cases later with
    | nil => simp [itemsAfter, skipBlanks_cons, isSeparator]
    | cons next later =>
      have read := @ih (by simp) (fun x member => each x (List.mem_cons_of_mem item member)) fuel
      simp only [List.isEmpty_cons, Bool.false_eq_true, if_false, List.length_cons] at enough ⊢
      rw [List.cons_append, itemsAfter, skipBlanks_cons (by decide)]
      simp [read (by omega)]

/-! ### Objects -/

/-- Reading each written item gives what was asked of it. -/
theorem mapM_map_eq_some {α β γ : Type} (write : α → β) (read : β → Option γ) (value : α → γ)
    {xs : List α} (each : ∀ x ∈ xs, read (write x) = some (value x)) :
    (xs.map write).mapM read = some (xs.map value) := by
  induction xs with
  | nil => rfl
  | cons x rest ih =>
    have first := each x List.mem_cons_self
    have others := ih fun y member => each y (List.mem_cons_of_mem x member)
    simp [first, others]

theorem ofMembers_some (members : List (String × JsonValue)) :
    ofMembers (members.map fun member => (some member.1, member.2)) = .object members := by
  rw [ofMembers, mapM_map_eq_some _ _ id, List.map_id]
  exact fun _ _ => rfl

theorem readValue_object {fuel : Nat} {s tail rest : List Char}
    {members : List (String × JsonValue)} (head : skipBlanks s = '"' :: tail)
    (read : readMembers fuel s =
      some (members.map fun member => (some member.1, member.2), rest)) :
    readValue (fuel + 1) ('\x7b' :: s) = some (.object members, rest) := by
  rw [← readMembers_skipBlanks, head] at read
  rw [readValue, skipBlanks_cons rfl]
  simp [head, read, ofMembers_some]

theorem writeMembers_begin {members : List (String × JsonValue)} (some_member : members ≠ [])
    (style : Style) (level : Nat) :
    writeMembers style level members ≠ [] ∧ ∀ more, ∃ tail,
      skipBlanks (writeMembers style level members ++ more) = '"' :: tail := by
  obtain ⟨⟨key, value⟩, later, rfl⟩ := List.exists_cons_of_ne_nil some_member
  simp [writeMembers, writeMember, writeString, skipBlanks_cons, isSeparator]

/-- The colon after a key is found, and blanks after it do not matter. -/
theorem readValue_colon (style : Style) (fuel : Nat) (rest : List Char) :
    ∃ later, skipBlanks (colon style ++ rest) = ':' :: later ∧
      readValue fuel later = readValue fuel rest := by
  cases style with
  | compact => exact ⟨rest, rfl, rfl⟩
  | pretty =>
    refine ⟨' ' :: rest, rfl, ?_⟩
    rw [← readValue_skipBlanks, ← readValue_skipBlanks fuel rest]
    rfl

/-- What is read after a member: nothing more, or further members. -/
def membersAfter (fuel : Nat) (member : String × JsonValue) (s : List Char) :
    Option (List (Option String × JsonValue) × List Char) :=
  match skipBlanks s with
  | '\x7d' :: rest => some ([(some member.1, member.2)], rest)
  | ',' :: rest =>
    (readMembers fuel rest).map fun (members, rest) => ((some member.1, member.2) :: members, rest)
  | _ => none

theorem readMembers_member {style : Style} {member : String × JsonValue}
    (readsBack : ReadsBack style member.2) {level fuel : Nat}
    (enough : (writeMember style level member).length ≤ fuel) (tail : List Char) :
    readMembers (fuel + 1) (lineBreak style level ++ writeMember style level member ++ tail) =
      membersAfter fuel member tail := by
  obtain ⟨key, value⟩ := member
  replace readsBack : ReadsBack style value := readsBack
  simp only [writeMember, writeString, List.length_append, List.append_assoc, List.cons_append,
    List.nil_append, List.length_cons] at enough ⊢
  obtain ⟨later, found, same⟩ := readValue_colon style fuel (write style level value ++ tail)
  rw [readMembers, skipBlanks_lineBreak, skipBlanks_cons (by decide)]
  simp only [readString_written, found, same]
  rw [readsBack _ _ _ (by omega)]
  rfl

theorem readMembers_written {style : Style} {members : List (String × JsonValue)}
    (some_member : members ≠ []) (each : ∀ member ∈ members, ReadsBack style member.2)
    {level fuel : Nat} (enough : (writeMembers style level members).length + 1 ≤ fuel)
    (outer : Nat) (rest : List Char) :
    readMembers fuel
        (writeMembers style level members ++ (lineBreak style outer ++ '\x7d' :: rest)) =
      some (members.map fun member => (some member.1, member.2), rest) := by
  induction members generalizing fuel with
  | nil => exact absurd rfl some_member
  | cons member later ih =>
    obtain ⟨fuel, rfl⟩ : ∃ smaller, fuel = smaller + 1 := ⟨fuel - 1, by omega⟩
    have readsBack := each member List.mem_cons_self
    rw [writeMembers] at enough ⊢
    simp only [List.length_append] at enough
    rw [List.append_assoc, readMembers_member readsBack (by omega)]
    cases later with
    | nil => simp [membersAfter, skipBlanks_cons, isSeparator]
    | cons next later =>
      have read := @ih (by simp) (fun x inside => each x (List.mem_cons_of_mem member inside)) fuel
      simp only [List.isEmpty_cons, Bool.false_eq_true, if_false, List.length_cons] at enough ⊢
      rw [List.cons_append, membersAfter, skipBlanks_cons (by decide)]
      simp [read (by omega)]

/-! ### Whole documents -/

theorem Textual.readsBack {value : JsonValue} (textual : Textual value) (style : Style) :
    ReadsBack style value := by
  -- The two brackets of a container pay for the container itself and for the spare unit inside.
  induction textual with
  | null =>
    intro level fuel rest enough
    obtain ⟨fuel, rfl⟩ := Textual.null.exists_fuel enough
    simp [write, readValue, skipBlanks_cons, isSeparator]
  | bool value =>
    intro level fuel rest enough
    obtain ⟨fuel, rfl⟩ := (Textual.bool value).exists_fuel enough
    cases value with
    | true => simp [write, readValue, skipBlanks_cons, isSeparator]
    | false => simp [write, readValue, skipBlanks_cons, isSeparator]
  | string text =>
    intro level fuel rest enough
    obtain ⟨fuel, rfl⟩ := (Textual.string text).exists_fuel enough
    simp [write, writeString, readValue, skipBlanks_cons, isSeparator, readString_written, ofText?]
  | @array items each ih =>
    intro level fuel rest enough
    obtain ⟨fuel, rfl⟩ := (Textual.array each).exists_fuel enough
    rw [write] at enough ⊢
    by_cases empty : items = []
    · subst empty
      simp [writeItems, enclose_nil, readValue, skipBlanks_cons, isSeparator]
    · obtain ⟨inside, begins⟩ := writeItems_begin empty each style (level + 1)
      rw [enclose_of_ne_nil inside] at enough ⊢
      simp only [List.length_cons, List.length_append, List.cons_append, List.append_assoc,
        List.nil_append, List.length_nil] at enough ⊢
      obtain ⟨first, tail, head, other⟩ := begins (lineBreak style level ++ ']' :: rest)
      exact readValue_array head other (readItems_written empty ih (by omega) level rest)
  | @object members each ih =>
    intro level fuel rest enough
    obtain ⟨fuel, rfl⟩ := (Textual.object each).exists_fuel enough
    rw [write] at enough ⊢
    by_cases empty : members = []
    · subst empty
      simp [writeMembers, enclose_nil, readValue, skipBlanks_cons, isSeparator]
    · obtain ⟨inside, begins⟩ := writeMembers_begin empty style (level + 1)
      rw [enclose_of_ne_nil inside] at enough ⊢
      simp only [List.length_cons, List.length_append, List.cons_append, List.append_assoc,
        List.nil_append, List.length_nil] at enough ⊢
      obtain ⟨tail, head⟩ := begins (lineBreak style level ++ '\x7d' :: rest)
      exact readValue_object head (readMembers_written empty ih (by omega) level rest)

/-- The text of a value stands for that value. -/
theorem ofText_toText {value : JsonValue} (textual : Textual value) (style : Style) :
    ofText (value.toText style) = some value := by
  have read := textual.readsBack style 0 (2 * (write style 0 value).length + 1) [] (by omega)
  rw [List.append_nil] at read
  simp [ofText, toText, read, skipBlanks]

/-! ### Lines -/

theorem lineFeed_not_mem_writeString (text : String) : '\n' ∉ writeString text := by
  simp [writeString, lineFeed_not_mem_escape]

theorem lineFeed_not_mem_enclose {opening closing : Char} {inside : List Char} (level : Nat)
    (other : opening ≠ '\n') (other' : closing ≠ '\n') (one_line : '\n' ∉ inside) :
    '\n' ∉ enclose .compact level opening closing inside := by
  unfold enclose
  split <;> simp [lineBreak, other.symm, other'.symm, one_line]

theorem lineFeed_not_mem_writeItems {level : Nat} {items : List JsonValue}
    (each : ∀ item ∈ items, '\n' ∉ write .compact level item) :
    '\n' ∉ writeItems .compact level items := by
  induction items with
  | nil => simp [writeItems]
  | cons item later ih =>
    have first := each item List.mem_cons_self
    have others := ih fun x member => each x (List.mem_cons_of_mem item member)
    rw [writeItems]
    split <;> simp [lineBreak, first, others]

theorem lineFeed_not_mem_writeMembers {level : Nat} {members : List (String × JsonValue)}
    (each : ∀ member ∈ members, '\n' ∉ write .compact level member.2) :
    '\n' ∉ writeMembers .compact level members := by
  induction members with
  | nil => simp [writeMembers]
  | cons member later ih =>
    have first := each member List.mem_cons_self
    have others := ih fun x inside => each x (List.mem_cons_of_mem member inside)
    obtain ⟨name, value⟩ := member
    have key := lineFeed_not_mem_writeString name
    have written : '\n' ∉ writeMember .compact level (name, value) := by
      simp [writeMember, colon, key, first]
    rw [writeMembers]
    split <;> simp [lineBreak, written, others]

/-- The compact text of a value is on one line. -/
theorem Textual.lineFeed_not_mem_write {value : JsonValue} (textual : Textual value) (level : Nat) :
    '\n' ∉ write .compact level value := by
  induction textual generalizing level with
  | null => simp [write]
  | bool value => cases value <;> simp [write]
  | string text =>
    rw [write]
    exact lineFeed_not_mem_writeString text
  | array each ih =>
    rw [write]
    apply lineFeed_not_mem_enclose level (by decide) (by decide)
    exact lineFeed_not_mem_writeItems fun item member => ih item member (level + 1)
  | object each ih =>
    rw [write]
    apply lineFeed_not_mem_enclose level (by decide) (by decide)
    exact lineFeed_not_mem_writeMembers fun member inside => ih member inside (level + 1)

end ClassAtlas.JsonValue
