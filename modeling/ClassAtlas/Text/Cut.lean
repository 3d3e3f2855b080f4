/-!
# Cutting texts

Tests for the start and the end of a text, and the cuts at a separator: at its first occurrence, at
its last one, and after the last double colon. A cut at an absent separator gives nothing.
-/
namespace ClassAtlas.Text

/-- `s` begins with `head`. -/
def startsWith (head s : String) : Bool := head.toList.isPrefixOf s.toList

/-- `s` ends with `tail`. -/
def endsWith (tail s : String) : Bool := tail.toList.isSuffixOf s.toList

/-- What follows `head` in a text that begins with it. -/
def dropHead? (head s : String) : Option String :=
  if startsWith head s then some (String.ofList (s.toList.drop head.toList.length)) else none

/-- What follows `head` in a text that begins with it, any other text as it is. -/
def dropHead (head s : String) : String := (dropHead? head s).getD s

/-- The characters before and after the first one that equals `c`. -/
def cutFirst? (c : Char) : List Char → Option (List Char × List Char)
  | [] => none
  | x :: rest =>
    if x = c then some ([], rest) else (cutFirst? c rest).map fun cut => (x :: cut.1, cut.2)

/-- The parts of a text before and after its first `c`. -/
def splitFirst? (c : Char) (s : String) : Option (String × String) :=
  (cutFirst? c s.toList).map fun cut => (String.ofList cut.1, String.ofList cut.2)

/-- The parts of a text before and after its last `c`. -/
def splitLast? (c : Char) (s : String) : Option (String × String) :=
  (cutFirst? c s.toList.reverse).map fun cut =>
    (String.ofList cut.2.reverse, String.ofList cut.1.reverse)

/-- The part of a text after its last `c`, the whole text when there is none. -/
def lastPart (c : Char) (s : String) : String := ((splitLast? c s).map Prod.snd).getD s

/-- The characters after the last double colon; colons pair up from the left, and `kept` holds, in
reverse, those since the last pair. -/
def afterColons (kept : List Char) : List Char → List Char
  | [] => kept.reverse
  | ':' :: ':' :: rest => afterColons [] rest
  | c :: rest => afterColons (c :: kept) rest

/-- The part of a text after its last double colon, the whole text when there is none. -/
def lastQualified (s : String) : String := String.ofList (afterColons [] s.toList)

/-- A first cut loses nothing but the separator. -/
theorem cutFirst?_append {c : Char} {s front back : List Char}
    (cut : cutFirst? c s = some (front, back)) : s = front ++ c :: back := by
  induction s generalizing front with
  | nil => simp [cutFirst?] at cut
  | cons x rest ih =>
    simp only [cutFirst?] at cut
    split at cut
    next same => simp only [Option.some.injEq, Prod.mk.injEq] at cut; grind
    next =>
      obtain ⟨⟨a, b⟩, found, equal⟩ := Option.map_eq_some_iff.1 cut
      simp only [Prod.mk.injEq] at equal
      obtain ⟨rfl, rfl⟩ := equal
      rw [ih found]
      rfl

/-- There is a first cut exactly when the separator occurs. -/
theorem cutFirst?_eq_none_iff {c : Char} {s : List Char} : cutFirst? c s = none ↔ c ∉ s := by
  induction s with
  | nil => simp [cutFirst?]
  | cons x rest ih =>
    by_cases same : x = c
    · simp [cutFirst?, same]
    · simp [cutFirst?, same, ih, Ne.symm same]

/-- The first cut is at a separator with none before it. -/
theorem cutFirst?_of_not_mem {c : Char} {front : List Char} (before : c ∉ front)
    (back : List Char) : cutFirst? c (front ++ c :: back) = some (front, back) := by
  induction front with
  | nil => simp [cutFirst?]
  | cons x rest ih =>
    rw [List.mem_cons, not_or] at before
    obtain ⟨other, before⟩ := before
    simp [cutFirst?, Ne.symm other, ih before]

/-- A text begins with `head` exactly when something follows it there. -/
theorem dropHead?_eq_some_iff {head s rest : String} :
    dropHead? head s = some rest ↔ s = head ++ rest := by
  unfold dropHead? startsWith
  constructor
  · intro found
    split at found
    next begins =>
      obtain ⟨back, split⟩ := List.isPrefixOf_iff_prefix.mp begins
      cases found
      rw [← split, List.drop_left, ← String.toList_inj, String.toList_append,
        String.toList_ofList, split]
    next => cases found
  · rintro rfl
    have begins : head.toList.isPrefixOf (head ++ rest).toList = true :=
      List.isPrefixOf_iff_prefix.mpr ⟨rest.toList, String.toList_append.symm⟩
    rw [if_pos begins, String.toList_append, List.drop_left, String.ofList_toList]

end ClassAtlas.Text
