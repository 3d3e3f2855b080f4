/-!
# Places in a text

Offsets count the bytes of the UTF-8 form of a text. A slice between two offsets exists when both
are character boundaries; the row of an offset is the number of line feeds before it.
-/
namespace ClassAtlas.Text

/-- Splits off the characters that fill exactly `bytes` bytes. -/
def takeBytes? : Nat → List Char → Option (List Char × List Char)
  | 0, chars => some ([], chars)
  | _, [] => none
  | bytes, c :: rest =>
    if c.utf8Size ≤ bytes then
      (takeBytes? (bytes - c.utf8Size) rest).map fun cut => (c :: cut.1, cut.2)
    else none

/-- The text between two offsets, when both are character boundaries in the right order. -/
def slice? (chars : List Char) (start stop : Nat) : Option String :=
  if start ≤ stop then do
    let (_, rest) ← takeBytes? start chars
    let (inside, _) ← takeBytes? (stop - start) rest
    return String.ofList inside
  else none

/-- The offsets of the line feeds of a text that begins at `offset`. -/
def lineFeeds (offset : Nat) : List Char → List Nat
  | [] => []
  | c :: rest =>
    if c = '\n' then offset :: lineFeeds (offset + 1) rest
    else lineFeeds (offset + c.utf8Size) rest

/-- The row of an offset, given where the line feeds are. -/
def rowAt (feeds : List Nat) (offset : Nat) : Nat := feeds.countP fun feed => decide (feed < offset)

/-- Rows grow with offsets. -/
theorem rowAt_mono (feeds : List Nat) {left right : Nat} (ordered : left ≤ right) :
    rowAt feeds left ≤ rowAt feeds right := by
  apply List.countP_mono_left
  intro feed _ before
  simp only [decide_eq_true_eq] at *
  omega

end ClassAtlas.Text
