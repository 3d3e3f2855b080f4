import ClassAtlas.Syntax.Tree
import ClassAtlas.Text.Slice

/-!
# Listed trees

A syntax tree written down as the list of its nodes in document order, each with a label, its byte
range and its number of children. A label is `[field ":"] ["!"] ["'"] kind`, where `!` marks a
missing node and `'` an anonymous one; the empty label is an anonymous token whose kind is its own
source text.
-/
namespace ClassAtlas

/-- One line of a listing. -/
structure Listed where
  label : String
  start : Nat
  stop : Nat
  childCount : Nat
  deriving DecidableEq, Repr

/-- What a label says about a node; without a kind, the kind is the source text of the node. -/
structure Label where
  field? : Option String
  missing : Bool
  named : Bool
  kind? : Option String
  deriving DecidableEq, Repr

namespace Label

/-- The field name at the head of a label and what follows its colon. -/
def splitField (label : List Char) : Option String × List Char :=
  let isFieldChar (c : Char) := c.isLower || c == '_'
  match label.takeWhile isFieldChar, label.dropWhile isFieldChar with
  | name@(_ :: _), ':' :: rest => (some (String.ofList name), rest)
  | _, _ => (none, label)

/-- Reads a label. -/
def ofString (label : String) : Label :=
  if label.isEmpty then ⟨none, false, false, none⟩
  else
    let (field?, rest) := splitField label.toList
    let (missing, rest) := match rest with
      | '!' :: rest => (true, rest)
      | _ => (false, rest)
    let (named, rest) := match rest with
      | '\'' :: rest => (false, rest)
      | _ => (true, rest)
    ⟨field?, missing, named, some (String.ofList rest)⟩

end Label

namespace Tree

/-- What a line of the listing says about its node in the given source. -/
def infoOfListed (chars : List Char) (feeds : List Nat) (line : Listed) : NodeInfo :=
  let label := Label.ofString line.label
  let text := (Text.slice? chars line.start line.stop).getD ""
  { kind := label.kind?.getD text
    field? := label.field?
    named := label.named
    missing := label.missing
    span :=
      { start := line.start
        stop := line.stop
        startRow := Text.rowAt feeds line.start
        endRow := Text.rowAt feeds line.stop }
    text := text }

/-- Reads one more line of a listing from the back: the trees already read that follow the line in
the listing stand in order, and the node takes its children from their front. -/
def addListed (chars : List Char) (feeds : List Nat) (line : Listed) (later : List Tree) :
    Option (List Tree) :=
  if line.childCount ≤ later.length then
    some (node (infoOfListed chars feeds line) (later.take line.childCount) ::
      later.drop line.childCount)
  else none

/-- The tree of a listing, when the numbers of children fit together. -/
def ofListing? (source : String) (lines : List Listed) : Option Tree :=
  let chars := source.toList
  let feeds := Text.lineFeeds 0 chars
  match lines.foldr (fun line later => later.bind (addListed chars feeds line)) (some []) with
  | some [tree] => some tree
  | _ => none

end Tree

end ClassAtlas
