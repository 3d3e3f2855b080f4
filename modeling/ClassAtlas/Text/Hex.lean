/-!
# Hexadecimal digits
-/
namespace ClassAtlas.Text

/-- The value of a hexadecimal digit in either case. -/
def hexValue? (c : Char) : Option Nat :=
  if '0' ≤ c ∧ c ≤ '9' then some (c.toNat - '0'.toNat)
  else if 'a' ≤ c ∧ c ≤ 'f' then some (c.toNat - 'a'.toNat + 10)
  else if 'A' ≤ c ∧ c ≤ 'F' then some (c.toNat - 'A'.toNat + 10)
  else none

/-- The number that a row of hexadecimal digits stands for. -/
def hexNumber? (digits : List Char) : Option Nat :=
  digits.foldl (fun done c => do return (← done) * 16 + (← hexValue? c)) (some 0)

end ClassAtlas.Text
