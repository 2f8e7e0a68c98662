import Tasking.Fault

/-! # Tagged words

A 64-bit word holds either an address or a small integer.  The lowest bit tells them
apart: addresses are even, and an integer `i` is stored as `2 * i + 1`.  An integer has
therefore one bit less than the word, and reads back as the number between `-2^62` and
`2^62 - 1` that agrees with it modulo `2^63`.

A `Register` is one such word in memory.  Its operations never look at the content
beyond the tag: `compareAndSwap` compares the stored bits, `fetchAdd` adds to them.
-/

namespace Tasking

/-- An even address. -/
structure Address where
  bits : UInt64
  even : bits &&& 1 = 0
  deriving DecidableEq

/-- The content of a register. -/
inductive Word where
  | pointer (address : Address)
  | int (value : Int64)
  deriving DecidableEq

namespace Word

/-- The address that points nowhere. -/
def null : Word := .pointer ⟨0, by decide⟩

/-- Whether the word is the null pointer. -/
def isNull : Word → Bool
  | .pointer address => address.bits == 0
  | .int _ => false

/-- The integer, if the word holds one. -/
def int? : Word → Option Int64
  | .int value => some value
  | .pointer _ => none

/-- The address, if the word is a pointer other than null. -/
def address? : Word → Option Address
  | .pointer address => if address.bits = 0 then none else some address
  | .int _ => none

/-- The stored bits: an address as it is, an integer shifted left over a set tag. -/
def encode : Word → UInt64
  | .pointer address => address.bits
  | .int value => (value <<< 1).toUInt64 ||| 1

/-- The content behind stored bits.  The shift back keeps the sign. -/
def decode (bits : UInt64) : Word :=
  if even : bits &&& 1 = 0 then .pointer ⟨bits, even⟩ else .int (bits.toInt64 >>> 1)

/-- How a word is shown; addresses other than null are not. -/
def diagnostic? : Word → Option String
  | .pointer address => if address.bits = 0 then some "Null" else none
  | .int value => some ("Int(" ++ toString value.toInt ++ ")")

end Word

/-- A word in memory, known by its bits. -/
structure Register where
  bits : UInt64
  deriving DecidableEq

namespace Register

/-- A register that holds the given word. -/
def ofWord (w : Word) : Register := ⟨w.encode⟩

/-- A register that holds the null pointer. -/
def null : Register := ⟨0⟩

/-- What the register holds. -/
def load (r : Register) : Word := .decode r.bits

/-- Replace the content. -/
def store (_ : Register) (w : Word) : Register := ⟨w.encode⟩

/-- Replace the content and return the old one. -/
def swap (r : Register) (w : Word) : Word × Register := (r.load, r.store w)

/-- Install `replacement` if the register holds the bits of `expected`.  Returns what it
    held before. -/
def compareAndSwap (r : Register) (expected replacement : Word) : Word × Register :=
  (r.load, if r.bits = expected.encode then r.store replacement else r)

/-- Add to the integer held and return the one before.  The shifted amount is even, so the
    tag stays as it is.  A register that holds a pointer has no integer to add to. -/
def fetchAdd (r : Register) (amount : Int64) : Except Fault (Int64 × Register) :=
  match r.load with
  | .int before => .ok (before, ⟨r.bits + (amount <<< 1).toUInt64⟩)
  | .pointer _ => .error .addToPointer

/-- How a register is shown; addresses other than null are not. -/
def diagnostic? (r : Register) : Option String :=
  r.load.diagnostic?.map fun text => "AtomicCell(" ++ text ++ ")"

end Register

end Tasking
