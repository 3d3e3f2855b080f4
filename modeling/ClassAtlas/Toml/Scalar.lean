import ClassAtlas.Text.Hex

/-!
# Numbers and dates in TOML

Which words are integers, floating-point numbers, dates and times. Their values are not needed, only
whether they are well formed. Integers have to fit into 64 bits, and a floating-point number without
a minus sign has to be nearer to a finite number of the binary format with 64 bits than to infinity.
-/
namespace ClassAtlas.Toml

/-- A row of digits with single underscores between them. -/
def isDigitRow (isDigit : Char → Bool) (s : List Char) : Bool :=
  match s with
  | [] => false
  | [c] => isDigit c
  | c :: '_' :: rest => isDigit c && isDigitRow isDigit rest
  | c :: rest => isDigit c && isDigitRow isDigit rest

/-- A word without its sign. -/
def unsigned : List Char → List Char
  | '+' :: rest => rest
  | '-' :: rest => rest
  | s => s

/-- A decimal number without superfluous zeros at its start. -/
def isDecimal (s : List Char) : Bool :=
  isDigitRow Char.isDigit s && (s.length == 1 || s.head? != some '0')

/-- The number that digits of a base stand for, underscores left out. -/
def numberOf (base : Nat) (s : List Char) : Nat :=
  (s.filter (· != '_')).foldl (fun done c => done * base + (Text.hexValue? c).getD 0) 0

/-- Two to the power of 63: the least number that is too large for a signed integer of 64 bits. -/
def integerBound : Nat := 0x8000000000000000

/-- A row of digits of a base for a number that fits. -/
def isBased (base : Nat) (s : List Char) : Bool :=
  isDigitRow (fun c => (Text.hexValue? c).any fun value => decide (value < base)) s &&
    decide (numberOf base s < integerBound)

def isInteger (s : List Char) : Bool :=
  match s with
  | '0' :: 'x' :: rest => isBased 16 rest
  | '0' :: 'o' :: rest => isBased 8 rest
  | '0' :: 'b' :: rest => isBased 2 rest
  | _ =>
    isDecimal (unsigned s) &&
      if s.head? = some '-' then decide (numberOf 10 (unsigned s) ≤ integerBound)
      else decide (numberOf 10 (unsigned s) < integerBound)

/-- The exponent after `e`. -/
def isExponent (s : List Char) : Bool := isDigitRow Char.isDigit (unsigned s)

def isExponentMark (c : Char) : Bool := c == 'e' || c == 'E'

/-- The digits after the point, perhaps with an exponent. -/
def isFraction (s : List Char) : Bool :=
  isDigitRow Char.isDigit (s.takeWhile fun c => !isExponentMark c) &&
    match s.dropWhile fun c => !isExponentMark c with
    | [] => true
    | _ :: exponent => isExponent exponent

def isFloat (s : List Char) : Bool :=
  let s := unsigned s
  if s = ['i', 'n', 'f'] ∨ s = ['n', 'a', 'n'] then true
  else
    let isMark (c : Char) := c == '.' || isExponentMark c
    isDecimal (s.takeWhile fun c => !isMark c) &&
      match s.dropWhile fun c => !isMark c with
      | [] => false
      | '.' :: fraction => isFraction fraction
      | _ :: exponent => isExponent exponent

/-- The number that an exponent stands for; without digits it is zero. -/
def exponentOf (s : List Char) : Int :=
  if s.head? = some '-' then -(numberOf 10 (unsigned s) : Int) else numberOf 10 (unsigned s)

/-- The middle between the largest finite number of the binary format with 64 bits, 2^1024 - 2^971,
and the power of two that comes after it. -/
def floatBound : Nat := 0x3FFFFFFFFFFFFF <<< 970

/-- How many digits the bound has. -/
def floatBoundSize : Nat := 309

/-- The number with these digits, times ten to the power of the exponent, is at least the bound.
Unless as many digits stand before its point as the bound has, their count alone decides. -/
def reachesBound (digits : List Char) (exponent : Int) : Bool :=
  let digits := digits.dropWhile (· == '0')
  let size := digits.length + exponent
  if digits.isEmpty then false
  else if size ≠ floatBoundSize then decide (floatBoundSize < size)
  else
    decide (floatBound * Nat.pow 10 (-exponent).toNat ≤
      numberOf 10 digits * Nat.pow 10 exponent.toNat)

/-- A well-formed floating-point number is so large that it would be read as infinity. -/
def isTooLarge (s : List Char) : Bool :=
  let mantissa := s.takeWhile fun c => !isExponentMark c
  let exponent := (s.dropWhile fun c => !isExponentMark c).drop 1
  let fraction := (mantissa.dropWhile (· != '.')).filter Char.isDigit
  s.head? != some '-' &&
    reachesBound (mantissa.filter Char.isDigit) (exponentOf exponent - fraction.length)

/-- The value of a decimal digit. -/
def digit? (c : Char) : Option Nat := if c.isDigit then some (c.toNat - '0'.toNat) else none

/-- A number of two digits in a range. -/
def twoDigits (low high : Nat) (a b : Char) : Bool :=
  match digit? a, digit? b with
  | some a, some b => decide (low ≤ 10 * a + b) && decide (10 * a + b ≤ high)
  | _, _ => false

/-- The number of days of a month. -/
def daysOf (year month : Nat) : Nat :=
  if month = 2 then
    if (year % 4 = 0 ∧ year % 100 ≠ 0) ∨ year % 400 = 0 then 29 else 28
  else if month = 4 ∨ month = 6 ∨ month = 9 ∨ month = 11 then 30
  else 31

/-- The offset of a time from universal time. -/
def isOffset : List Char → Bool
  | ['Z'] => true
  | ['z'] => true
  | [sign, a, b, ':', c, d] =>
    (sign == '+' || sign == '-') && twoDigits 0 23 a b && twoDigits 0 59 c d
  | _ => false

/-- What may follow the seconds: a fraction, and an offset where there is a date. -/
def isTimeTail (dated : Bool) (s : List Char) : Bool :=
  let offset := match s with
    | '.' :: rest => if rest.head?.any Char.isDigit then rest.dropWhile Char.isDigit else s
    | _ => s
  offset.isEmpty || (dated && isOffset offset)

/-- A time of day. -/
def isTime (dated : Bool) : List Char → Bool
  | a :: b :: ':' :: c :: d :: ':' :: e :: f :: rest =>
    twoDigits 0 23 a b && twoDigits 0 59 c d && twoDigits 0 60 e f && isTimeTail dated rest
  | _ => false

/-- A date, perhaps with a time of day. -/
def isDate : List Char → Bool
  | y1 :: y2 :: y3 :: y4 :: '-' :: m1 :: m2 :: '-' :: d1 :: d2 :: rest =>
    [y1, y2, y3, y4].all Char.isDigit && twoDigits 1 12 m1 m2 &&
      twoDigits 1 (daysOf (numberOf 10 [y1, y2, y3, y4]) (numberOf 10 [m1, m2])) d1 d2 &&
      match rest with
      | [] => true
      | c :: time => (c == 'T' || c == 't' || c == ' ') && isTime true time
  | _ => false

/-- A number, a date or a time. -/
def isScalar (s : List Char) : Bool :=
  isInteger s || (isFloat s && !isTooLarge s) || isDate s || isTime false s

end ClassAtlas.Toml
