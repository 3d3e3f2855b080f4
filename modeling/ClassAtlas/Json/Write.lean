import ClassAtlas.Json.Value

/-!
# Writing JSON

A compact style without any blanks, and a pretty one with one item a line, two spaces of indentation
per level, and empty arrays and objects on one line. Only quotes, backslashes and the control
characters below U+0020 are escaped.
-/
namespace ClassAtlas.JsonValue

inductive Style where
  | compact
  | pretty
  deriving DecidableEq, Repr

/-- A hexadecimal digit in lower case. -/
def hexDigit (value : Nat) : Char :=
  if value < 10 then Char.ofNat ('0'.toNat + value) else Char.ofNat ('a'.toNat + (value - 10))

/-- A character inside a string. -/
def escape (c : Char) : List Char :=
  if c = '"' then ['\\', '"']
  else if c = '\\' then ['\\', '\\']
  else if c = '\x08' then ['\\', 'b']
  else if c = '\x0c' then ['\\', 'f']
  else if c = '\n' then ['\\', 'n']
  else if c = '\r' then ['\\', 'r']
  else if c = '\t' then ['\\', 't']
  else if c.toNat < 0x20 then
    ['\\', 'u', '0', '0', hexDigit (c.toNat / 16), hexDigit (c.toNat % 16)]
  else [c]

/-- A string in quotes. -/
def writeString (text : String) : List Char := '"' :: (text.toList.flatMap escape ++ ['"'])

/-- What stands before an item, or before the end of its container, at a level of nesting. -/
def lineBreak (style : Style) (level : Nat) : List Char :=
  match style with
  | .compact => []
  | .pretty => '\n' :: List.replicate (2 * level) ' '

/-- What stands between a key and its value. -/
def colon : Style → List Char
  | .compact => [':']
  | .pretty => [':', ' ']

/-- A container with its brackets around the written items, which are inside at the next level. -/
def enclose (style : Style) (level : Nat) (opening closing : Char) (inside : List Char) :
    List Char :=
  if inside.isEmpty then [opening, closing]
  else opening :: (inside ++ lineBreak style level ++ [closing])

mutual
/-- A value at a level of nesting. -/
def write (style : Style) (level : Nat) : JsonValue → List Char
  | .null => ['n', 'u', 'l', 'l']
  | .bool true => ['t', 'r', 'u', 'e']
  | .bool false => ['f', 'a', 'l', 's', 'e']
  | .number literal => literal.toList
  | .string text => writeString text
  | .array items => enclose style level '[' ']' (writeItems style (level + 1) items)
  | .object members =>
    enclose style level '\x7b' '\x7d' (writeMembers style (level + 1) members)
  | .unpaired => ['n', 'u', 'l', 'l']
/-- The items of an array, each after a line break. -/
def writeItems (style : Style) (level : Nat) : List JsonValue → List Char
  | [] => []
  | item :: rest =>
    lineBreak style level ++ write style level item ++
      (if rest.isEmpty then [] else ',' :: writeItems style level rest)
/-- A member of an object. -/
def writeMember (style : Style) (level : Nat) : String × JsonValue → List Char
  | (key, value) => writeString key ++ colon style ++ write style level value
/-- The members of an object, each after a line break. -/
def writeMembers (style : Style) (level : Nat) : List (String × JsonValue) → List Char
  | [] => []
  | member :: rest =>
    lineBreak style level ++ writeMember style level member ++
      (if rest.isEmpty then [] else ',' :: writeMembers style level rest)
end

/-- The text of a value. -/
def toText (style : Style) (value : JsonValue) : String := String.ofList (write style 0 value)

end ClassAtlas.JsonValue
