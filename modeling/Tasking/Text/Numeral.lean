/-! # Unsigned numerals

A numeral is an optional single plus sign followed by one or more ASCII digits,
leading zeros allowed, whose value fits in 64 bits.
-/

namespace Tasking.Text

/-- The digits `0` to `9`, and no other script's. -/
def isAsciiDigit (c : Char) : Bool := '0' ≤ c && c ≤ '9'

/-- The value of an ASCII digit. -/
def digitValue (c : Char) : Nat := c.toNat - '0'.toNat

/-- The value of a row of digits, read from the left in base ten. -/
def digitsValue (ds : List Char) : Nat :=
  ds.foldl (fun n d => 10 * n + digitValue d) 0

/-- The text after an optional plus sign. -/
def dropPlus : List Char → List Char
  | '+' :: cs => cs
  | cs => cs

/-- Read a whole text as a numeral. -/
def numeralChars? (cs : List Char) : Option Nat :=
  let ds := dropPlus cs
  if ds ≠ [] ∧ ds.all isAsciiDigit ∧ digitsValue ds < UInt64.size then
    some (digitsValue ds)
  else
    none

/-- Read a whole text as a numeral. -/
def numeral? (s : String) : Option Nat := numeralChars? s.toList

end Tasking.Text
