/-!
# Blank characters

The characters that separate words, by the Unicode property `White_Space`, and the functions that
remove them from the ends of a text or from all of it. The zero width space and the byte order mark
are not blank.
-/
namespace ClassAtlas.Text

/-- Code points with the property `White_Space`, as closed ranges in increasing order. -/
def blankRanges : List (Nat × Nat) :=
  [(0x09, 0x0D), (0x20, 0x20), (0x85, 0x85), (0xA0, 0xA0), (0x1680, 0x1680), (0x2000, 0x200A),
    (0x2028, 0x2029), (0x202F, 0x202F), (0x205F, 0x205F), (0x3000, 0x3000)]

/-- A blank character has the property `White_Space`. -/
def isBlank (c : Char) : Bool :=
  blankRanges.any fun range => decide (range.1 ≤ c.toNat) && decide (c.toNat ≤ range.2)

/-- A text of blanks only, the empty text included. -/
def allBlank (s : String) : Bool := s.toList.all isBlank

/-- The list without its longest final part that satisfies `p`. -/
def dropEndWhile {α : Type} (p : α → Bool) (xs : List α) : List α :=
  (xs.reverse.dropWhile p).reverse

/-- The text without its leading blanks. -/
def trimStart (s : String) : String := String.ofList (s.toList.dropWhile isBlank)

/-- The text without its trailing blanks. -/
def trimEnd (s : String) : String := String.ofList (dropEndWhile isBlank s.toList)

/-- The text without the blanks at either end. -/
def trim (s : String) : String :=
  String.ofList (dropEndWhile isBlank (s.toList.dropWhile isBlank))

/-- The text without any blank, used for dotted names written with spaces. -/
def compact (s : String) : String := String.ofList (s.toList.filter fun c => !isBlank c)

/-- The text begins with a blank. -/
def startsBlank (s : String) : Bool := s.toList.head?.any isBlank

/-- Every character of a compacted text is one of the text and not blank. -/
theorem mem_compact {s : String} {c : Char} :
    c ∈ (compact s).toList ↔ c ∈ s.toList ∧ isBlank c = false := by
  simp [compact]

end ClassAtlas.Text
