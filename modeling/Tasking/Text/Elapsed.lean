/-! # Elapsed time

A span of time is shown in the largest of four units in which it is at least one, with two
decimal places.  Half a unit of the last place goes to the even neighbour.
-/

namespace Tasking.Text

/-- A quotient rounded to the nearest number; a half goes to the even one. -/
def roundDiv (n d : Nat) : Nat :=
  let q := n / d
  let twice := 2 * (n % d)
  if d < twice ∨ (d = twice ∧ q % 2 = 1) then q + 1 else q

/-- A number of hundredths as a decimal with two places. -/
def hundredths (n : Nat) : String :=
  let places := toString (n % 100)
  toString (n / 100) ++ "." ++ (if places.length < 2 then "0" ++ places else places)

/-- A span of nanoseconds in a unit of its own size. -/
def elapsed (nanos : Nat) : String :=
  let inUnit (size : Nat) (unit : String) := hundredths (roundDiv (100 * nanos) size) ++ unit
  if 1000000000 ≤ nanos then inUnit 1000000000 "s"
  else if 1000000 ≤ nanos then inUnit 1000000 "ms"
  else if 1000 ≤ nanos then inUnit 1000 "µs"
  else inUnit 1 "ns"

end Tasking.Text
