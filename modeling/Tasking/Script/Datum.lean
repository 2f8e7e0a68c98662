import Tasking.Error
import Tasking.Value

/-! # The values of scripts

Scripts pass four kinds of values about: unit, truth values, 64-bit integers and texts.
They are shown as the runtime shows any value, by the name of their type.
-/

namespace Tasking.Script

/-- A value of a script. -/
inductive Datum where
  | unit
  | bool (b : Bool)
  | int (n : Int64)
  | text (s : String)
  deriving DecidableEq

namespace Datum

instance : Inhabited Datum := ⟨.unit⟩

/-- The type of a value; unit has none. -/
def type? : Datum → Option PayloadType
  | unit => none
  | bool _ => some .bool
  | int _ => some .i64
  | text _ => some .string

instance : Describe Datum := ⟨fun d => Value.describeType (d.type?.map PayloadType.name)⟩

/-- The integer held; other values count as zero. -/
def amount : Datum → Int64
  | int n => n
  | _ => 0

/-- Add to the integer held, modulo `2^64`. -/
def plus (d : Datum) (k : Int64) : Datum := int (d.amount + k)

end Datum

end Tasking.Script
