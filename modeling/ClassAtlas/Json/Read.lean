import ClassAtlas.Json.Value
import ClassAtlas.Text.Hex

/-!
# Reading JSON

A reader for JSON documents. Every level of nesting and every item takes at least one character, so
the length of the text bounds the recursion.
-/
namespace ClassAtlas.JsonValue

/-- The characters that may stand between tokens. -/
def isSeparator (c : Char) : Bool := c == ' ' || c == '\n' || c == '\t' || c == '\r'

def skipBlanks (s : List Char) : List Char := s.dropWhile isSeparator

/-! ## Strings -/

/-- A character of a string, or the number of a `\u` escape. -/
inductive Piece where
  | char (c : Char)
  | unit (value : Nat)
  deriving DecidableEq, Repr

/-- The character that a letter after a backslash stands for. -/
def unescape? (c : Char) : Option Char :=
  match c with
  | '"' => some '"'
  | '\\' => some '\\'
  | '/' => some '/'
  | 'b' => some '\x08'
  | 'f' => some '\x0c'
  | 'n' => some '\n'
  | 'r' => some '\r'
  | 't' => some '\t'
  | _ => none

/-- The pieces of a string up to its closing quote, and what follows the quote. -/
def pieces : List Char → Option (List Piece × List Char)
  | [] => none
  | '"' :: rest => some ([], rest)
  | '\\' :: 'u' :: a :: b :: c :: d :: rest =>
    match Text.hexNumber? [a, b, c, d], pieces rest with
    | some value, some (inside, rest) => some (.unit value :: inside, rest)
    | _, _ => none
  | '\\' :: c :: rest =>
    match unescape? c, pieces rest with
    | some c, some (inside, rest) => some (.char c :: inside, rest)
    | _, _ => none
  | c :: rest =>
    if c.toNat < 0x20 then none
    else (pieces rest).map fun (inside, rest) => (.char c :: inside, rest)

def isHighSurrogate (value : Nat) : Bool := decide (0xD800 ≤ value) && decide (value < 0xDC00)

def isLowSurrogate (value : Nat) : Bool := decide (0xDC00 ≤ value) && decide (value < 0xE000)

/-- The characters of a string, unless half a surrogate pair is among its pieces. -/
def assemble : List Piece → Option (List Char)
  | [] => some []
  | .char c :: rest => (assemble rest).map (c :: ·)
  | .unit high :: .unit low :: rest =>
    if isHighSurrogate high then
      if isLowSurrogate low then
        (assemble rest).map (Char.ofNat (0x10000 + (high - 0xD800) * 0x400 + (low - 0xDC00)) :: ·)
      else none
    else if isLowSurrogate high then none
    else (assemble (.unit low :: rest)).map (Char.ofNat high :: ·)
  | .unit value :: rest =>
    if isHighSurrogate value || isLowSurrogate value then none
    else (assemble rest).map (Char.ofNat value :: ·)

/-- Reads a string after its opening quote. Its text is missing when it has half a surrogate pair.
-/
def readString (s : List Char) : Option (Option String × List Char) :=
  (pieces s).map fun (inside, rest) => ((assemble inside).map String.ofList, rest)

/-! ## Numbers -/

/-- Splits off one or more digits. -/
def digits? (s : List Char) : Option (List Char × List Char) :=
  let front := s.takeWhile Char.isDigit
  if front.isEmpty then none else some (front, s.dropWhile Char.isDigit)

/-- The whole part of a number; no other digit follows a zero at its start. -/
def whole? : List Char → Option (List Char × List Char)
  | '0' :: rest => if (rest.head?.any Char.isDigit) then none else some (['0'], rest)
  | s => digits? s

/-- The digits after the point, when there is one. -/
def fraction? : List Char → Option (List Char × List Char)
  | '.' :: rest => (digits? rest).map fun (front, rest) => ('.' :: front, rest)
  | s => some ([], s)

/-- The sign of an exponent. -/
def exponentSign : List Char → List Char × List Char
  | '+' :: rest => (['+'], rest)
  | '-' :: rest => (['-'], rest)
  | s => ([], s)

/-- The exponent, when there is one. -/
def exponent? (s : List Char) : Option (List Char × List Char) :=
  match s with
  | c :: rest =>
    if c = 'e' ∨ c = 'E' then
      let (sign, rest) := exponentSign rest
      (digits? rest).map fun (front, rest) => (c :: (sign ++ front), rest)
    else some ([], s)
  | [] => some ([], [])

/-- The minus sign, when there is one. -/
def minus : List Char → List Char × List Char
  | '-' :: rest => (['-'], rest)
  | s => ([], s)

/-- Reads a number. -/
def readNumber (s : List Char) : Option (JsonValue × List Char) := do
  let (sign, rest) := minus s
  let (whole, rest) ← whole? rest
  let (fraction, rest) ← fraction? rest
  let (exponent, rest) ← exponent? rest
  return (.number (String.ofList (sign ++ whole ++ fraction ++ exponent)), rest)

/-! ## Values -/

/-- A string value. -/
def ofText? : Option String → JsonValue
  | none => .unpaired
  | some text => .string text

/-- An object with the given members, unless one of its keys stands for no text. -/
def ofMembers (members : List (Option String × JsonValue)) : JsonValue :=
  match members.mapM fun (key?, value) => key?.map fun key => (key, value) with
  | none => .unpaired
  | some members => .object members

mutual
/-- Reads a value. -/
def readValue : Nat → List Char → Option (JsonValue × List Char)
  | 0, _ => none
  | fuel + 1, s =>
    match skipBlanks s with
    | 'n' :: 'u' :: 'l' :: 'l' :: rest => some (.null, rest)
    | 't' :: 'r' :: 'u' :: 'e' :: rest => some (.bool true, rest)
    | 'f' :: 'a' :: 'l' :: 's' :: 'e' :: rest => some (.bool false, rest)
    | '"' :: rest => (readString rest).map fun (text?, rest) => (ofText? text?, rest)
    | '[' :: rest =>
      match skipBlanks rest with
      | ']' :: rest => some (.array [], rest)
      | rest => (readItems fuel rest).map fun (items, rest) => (.array items, rest)
    | '\x7b' :: rest =>
      match skipBlanks rest with
      | '\x7d' :: rest => some (.object [], rest)
      | rest => (readMembers fuel rest).map fun (members, rest) => (ofMembers members, rest)
    | rest => readNumber rest
/-- Reads one or more items and the closing bracket of an array. -/
def readItems : Nat → List Char → Option (List JsonValue × List Char)
  | 0, _ => none
  | fuel + 1, s =>
    match readValue fuel s with
    | none => none
    | some (item, rest) =>
      match skipBlanks rest with
      | ']' :: rest => some ([item], rest)
      | ',' :: rest => (readItems fuel rest).map fun (items, rest) => (item :: items, rest)
      | _ => none
/-- Reads one or more members and the closing brace of an object. -/
def readMembers : Nat → List Char → Option (List (Option String × JsonValue) × List Char)
  | 0, _ => none
  | fuel + 1, s =>
    match skipBlanks s with
    | '"' :: rest =>
      match readString rest with
      | none => none
      | some (key?, rest) =>
        match skipBlanks rest with
        | ':' :: rest =>
          match readValue fuel rest with
          | none => none
          | some (value, rest) =>
            match skipBlanks rest with
            | '\x7d' :: rest => some ([(key?, value)], rest)
            | ',' :: rest =>
              (readMembers fuel rest).map fun (members, rest) => ((key?, value) :: members, rest)
            | _ => none
        | _ => none
    | _ => none
end

/-- The value of a text, with nothing but blanks around it. -/
def ofText (text : String) : Option JsonValue :=
  match readValue (2 * text.toList.length + 1) text.toList with
  | some (value, rest) => if (skipBlanks rest).isEmpty then some value else none
  | none => none

end ClassAtlas.JsonValue
