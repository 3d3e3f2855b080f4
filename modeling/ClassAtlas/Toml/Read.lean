import ClassAtlas.Toml.Scalar
import ClassAtlas.Toml.Table
import ClassAtlas.Toml.Text

/-!
# Reading TOML

A reader for TOML 1.0 documents. Keys have a limited number of parts, and values nest to a limited
depth. Every statement, item and member takes at least one character, so the length of the text
bounds their number.
-/
namespace ClassAtlas.Toml

/-- How many parts a key may have, and how many arrays and inline tables may stand one inside the
other. -/
def maxDepth : Nat := 79

/-- Leaves out blanks on a line. -/
def skipSpaces (s : List Char) : List Char := s.dropWhile fun c => c == ' ' || c == '\t'

/-- Leaves out blanks, line ends and comments. A carriage return has to be part of a line end. -/
def skipGap (inComment : Bool) : List Char → Option (List Char)
  | [] => some []
  | '\r' :: '\n' :: rest => skipGap false rest
  | '\n' :: rest => skipGap false rest
  | c :: rest =>
    if inComment then if isPlain c then skipGap true rest else none
    else if c == ' ' || c == '\t' then skipGap false rest
    else if c == '#' then skipGap true rest
    else if c == '\r' then none
    else some (c :: rest)

/-- Ends a statement: nothing but a comment follows it on its line. -/
def endStatement (s : List Char) : Option (List Char) :=
  match skipSpaces s with
  | [] => some []
  | '\r' :: '\n' :: rest => some rest
  | '\n' :: rest => some rest
  | '#' :: rest => skipGap true rest
  | _ => none

/-! ## Keys -/

def isBareKeyChar (c : Char) : Bool := c.isAlphanum || c == '_' || c == '-'

/-- Reads one part of a key. -/
def readSimpleKey (s : List Char) : Option (String × List Char) :=
  match s with
  | [] => none
  | c :: _ =>
    if isBareKeyChar c then
      some (String.ofList (s.takeWhile isBareKeyChar), s.dropWhile isBareKeyChar)
    else (readLineText? s).map fun (key, rest) => (String.ofList key, rest)

/-- Reads a key of so many parts at most, with blanks around them. -/
def readParts : Nat → List Char → Option (Path × List Char)
  | 0, _ => none
  | parts + 1, s =>
    match readSimpleKey (skipSpaces s) with
    | none => none
    | some (key, rest) =>
      match skipSpaces rest with
      | '.' :: rest =>
        (readParts parts rest).map fun (path, rest) =>
          ({ path with outer := key :: path.outer }, rest)
      | rest => some (⟨[], key⟩, rest)

/-- Reads a key. -/
def readKey (s : List Char) : Option (Path × List Char) := readParts maxDepth s

/-! ## Values -/

def isDelimiter (c : Char) : Bool := [' ', '\t', '\n', '\r', ',', ']', '\x7d', '#'].contains c

/-- A word that is neither a string nor bracketed, and what follows it. A date and a time may be
separated by a space. -/
def splitWord (s : List Char) : List Char × List Char :=
  let word := s.takeWhile fun c => !isDelimiter c
  match s.dropWhile fun c => !isDelimiter c with
  | ' ' :: rest =>
    if isDate word && word.length == 10 && rest.head?.any Char.isDigit then
      (word ++ ' ' :: rest.takeWhile fun c => !isDelimiter c,
        rest.dropWhile fun c => !isDelimiter c)
    else (word, ' ' :: rest)
  | rest => (word, rest)

/-- The value of a word. -/
def wordValue? (word : List Char) : Option Value :=
  if word = ['t', 'r', 'u', 'e'] then some (.bool true)
  else if word = ['f', 'a', 'l', 's', 'e'] then some (.bool false)
  else if isScalar word then some .scalar
  else none

/-- A reader of values. -/
abbrev ValueReader := List Char → Option (Value × List Char)

/-- Reads the items of an array and its closing bracket. -/
def readItems (read : ValueReader) : Nat → List Char → Option (List Value × List Char)
  | 0, _ => none
  | fuel + 1, s =>
    match skipGap false s with
    | none => none
    | some (']' :: rest) => some ([], rest)
    | some s =>
      match read s with
      | none => none
      | some (item, rest) =>
        match skipGap false rest with
        | some (']' :: rest) => some ([item], rest)
        | some (',' :: rest) =>
          (readItems read fuel rest).map fun (items, rest) => (item :: items, rest)
        | _ => none

/-- Reads one or more members of an inline table and its closing brace. -/
def readMembers (read : ValueReader) : Nat → List Char → Option (List (Path × Value) × List Char)
  | 0, _ => none
  | fuel + 1, s =>
    match readKey s with
    | some (path, '=' :: rest) =>
      match read (skipSpaces rest) with
      | none => none
      | some (value, rest) =>
        match skipSpaces rest with
        | '\x7d' :: rest => some ([(path, value)], rest)
        | ',' :: rest =>
          (readMembers read fuel rest).map fun (members, rest) => ((path, value) :: members, rest)
        | _ => none
    | _ => none

/-- Reads an array after its opening bracket. -/
def readArray (read : ValueReader) : ValueReader := fun s =>
  (readItems read (s.length + 1) s).map fun (items, rest) => (.array items, rest)

/-- Reads an inline table after its opening brace. -/
def readInlineTable (read : ValueReader) : ValueReader := fun s =>
  match skipSpaces s with
  | '\x7d' :: rest => some (.table .inline [], rest)
  | s =>
    match readMembers read (s.length + 1) s with
    | none => none
    | some (members, rest) =>
      (assembleInline members).map fun entries => (.table .inline entries, rest)

/-- Reads a string of any kind or a word. -/
def readPlain : ValueReader := fun s =>
  match s with
  | [] => none
  | c :: _ =>
    if c == '"' || c == '\'' then
      (readText? s).map fun (text, rest) => (.string (String.ofList text), rest)
    else
      (wordValue? (splitWord s).1).map fun value => (value, (splitWord s).2)

/-- Reads a value in which arrays and inline tables nest so deep at most. -/
def readNested : Nat → ValueReader
  | 0, '[' :: _ => none
  | 0, '\x7b' :: _ => none
  | depth + 1, '[' :: rest => readArray (readNested depth) rest
  | depth + 1, '\x7b' :: rest => readInlineTable (readNested depth) rest
  | _, s => readPlain s

/-- Reads a value. -/
def readValue : ValueReader := readNested maxDepth

/-! ## Statements -/

/-- Reads a statement up to the end of its line. -/
def readStatement (s : List Char) : Option (Statement × List Char) :=
  match s with
  | '[' :: '[' :: rest =>
    match readKey rest with
    | some (path, ']' :: ']' :: rest) => (endStatement rest).map fun rest => (.element path, rest)
    | _ => none
  | '[' :: rest =>
    match readKey rest with
    | some (path, ']' :: rest) => (endStatement rest).map fun rest => (.table path, rest)
    | _ => none
  | _ =>
    match readKey s with
    | some (path, '=' :: rest) =>
      match readValue (skipSpaces rest) with
      | none => none
      | some (value, rest) => (endStatement rest).map fun rest => (.entry path value, rest)
    | _ => none

/-- Reads all statements. -/
def readStatements : Nat → List Char → Option (List Statement)
  | 0, _ => none
  | fuel + 1, s =>
    match skipGap false s with
    | none => none
    | some [] => some []
    | some s =>
      match readStatement s with
      | none => none
      | some (statement, rest) => (readStatements fuel rest).map (statement :: ·)

/-- The entries of a document. One byte order mark at its start is skipped. -/
def read (text : String) : Option Entries :=
  let s := match text.toList with
    | '\uFEFF' :: rest => rest
    | s => s
  (readStatements (s.length + 1) s).bind assemble

end ClassAtlas.Toml
