import ClassAtlas.Text.Hex

/-!
# Strings in TOML

The four kinds of strings: basic ones with escapes and literal ones without, each on one line or on
several. In the forms on several lines a line break directly after the opening quotes does not
count, line ends are line feeds, and up to two quotes may stand directly before the closing ones.
-/
namespace ClassAtlas.Toml

/-- The text of a string and what follows it. -/
abbrev Quoted := Option (List Char × List Char)

/-- A character that may stand for itself in strings and comments: no control character but the
tabulator. -/
def isPlain (c : Char) : Bool := c == '\t' || (decide (0x20 ≤ c.toNat) && c.toNat != 0x7F)

/-- Puts a character in front of a text. -/
def prepend (c : Char) (quoted : Quoted) : Quoted :=
  quoted.map fun (inside, rest) => (c :: inside, rest)

/-- The character that a letter after a backslash stands for. -/
def unescape? (c : Char) : Option Char :=
  match c with
  | '"' => some '"'
  | '\\' => some '\\'
  | 'b' => some '\x08'
  | 'f' => some '\x0c'
  | 'n' => some '\n'
  | 'r' => some '\r'
  | 't' => some '\t'
  | _ => none

/-- The character with the code point that hexadecimal digits give; surrogates have none. -/
def codePoint? (digits : List Char) : Option Char :=
  (Text.hexNumber? digits).bind fun value =>
    if value.isValidChar then some (Char.ofNat value) else none

/-- The rest of a basic string after its opening quote. -/
def basicBody : List Char → Quoted
  | [] => none
  | '"' :: rest => some ([], rest)
  | '\\' :: 'u' :: a :: b :: c :: d :: rest =>
    (codePoint? [a, b, c, d]).bind fun point => prepend point (basicBody rest)
  | '\\' :: 'U' :: a :: b :: c :: d :: e :: f :: g :: h :: rest =>
    (codePoint? [a, b, c, d, e, f, g, h]).bind fun point => prepend point (basicBody rest)
  | '\\' :: c :: rest => (unescape? c).bind fun c => prepend c (basicBody rest)
  | c :: rest => if isPlain c then prepend c (basicBody rest) else none

/-- The rest of a literal string after its opening quote. -/
def literalBody : List Char → Quoted
  | [] => none
  | '\'' :: rest => some ([], rest)
  | c :: rest => if isPlain c then prepend c (literalBody rest) else none

/-- After a backslash the line ends, with blanks at most. -/
def endsLine (s : List Char) : Bool :=
  match s.dropWhile fun c => c == ' ' || c == '\t' with
  | '\n' :: _ => true
  | '\r' :: '\n' :: _ => true
  | _ => false

/-- The rest of a basic string on several lines; `skipping` says that blanks and line ends are left
out up to the next other character. -/
def basicLines (skipping : Bool) : List Char → Quoted
  | [] => none
  | '"' :: '"' :: '"' :: '"' :: '"' :: rest => some (['"', '"'], rest)
  | '"' :: '"' :: '"' :: '"' :: rest => some (['"'], rest)
  | '"' :: '"' :: '"' :: rest => some ([], rest)
  | '\r' :: '\n' :: rest =>
    if skipping then basicLines true rest else prepend '\n' (basicLines false rest)
  | '\n' :: rest => if skipping then basicLines true rest else prepend '\n' (basicLines false rest)
  | '\\' :: 'u' :: a :: b :: c :: d :: rest =>
    (codePoint? [a, b, c, d]).bind fun point => prepend point (basicLines false rest)
  | '\\' :: 'U' :: a :: b :: c :: d :: e :: f :: g :: h :: rest =>
    (codePoint? [a, b, c, d, e, f, g, h]).bind fun point => prepend point (basicLines false rest)
  | '\\' :: c :: rest =>
    if endsLine (c :: rest) then basicLines true (c :: rest)
    else (unescape? c).bind fun c => prepend c (basicLines false rest)
  | c :: rest =>
    if skipping && (c == ' ' || c == '\t') then basicLines true rest
    else if isPlain c then prepend c (basicLines false rest)
    else none

/-- The rest of a literal string on several lines. -/
def literalLines : List Char → Quoted
  | [] => none
  | '\'' :: '\'' :: '\'' :: '\'' :: '\'' :: rest => some (['\'', '\''], rest)
  | '\'' :: '\'' :: '\'' :: '\'' :: rest => some (['\''], rest)
  | '\'' :: '\'' :: '\'' :: rest => some ([], rest)
  | '\r' :: '\n' :: rest => prepend '\n' (literalLines rest)
  | '\n' :: rest => prepend '\n' (literalLines rest)
  | c :: rest => if isPlain c then prepend c (literalLines rest) else none

/-- Leaves out a line break. -/
def skipNewline : List Char → List Char
  | '\r' :: '\n' :: rest => rest
  | '\n' :: rest => rest
  | s => s

/-- Reads a string of any kind. -/
def readText? : List Char → Quoted
  | '"' :: '"' :: '"' :: rest => basicLines false (skipNewline rest)
  | '\'' :: '\'' :: '\'' :: rest => literalLines (skipNewline rest)
  | '"' :: rest => basicBody rest
  | '\'' :: rest => literalBody rest
  | _ => none

/-- Reads a string on one line, the form a key may have. -/
def readLineText? : List Char → Quoted
  | '"' :: rest => basicBody rest
  | '\'' :: rest => literalBody rest
  | _ => none

end ClassAtlas.Toml
