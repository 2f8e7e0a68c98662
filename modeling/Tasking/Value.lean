import Tasking.Error
import Tasking.Text.Record

/-! # Values

Task code passes values about that the runtime never looks into.  A value is a shared
handle on a payload of some type, or the unit value, which stands for "nothing to pass
on".  Two handles are the same when they come from one creation; equal payloads do not
make them so.
-/

namespace Tasking

/-- The types a payload can have. -/
inductive PayloadType where
  | u8 | i32 | u32 | i64 | u64 | usize | bool | char | string | str | unit | option | list
  | value
  deriving DecidableEq

/-- The name of a payload's type in diagnostics. -/
def PayloadType.name : PayloadType → String
  | .u8 => "u8"
  | .i32 => "i32"
  | .u32 => "u32"
  | .i64 => "i64"
  | .u64 => "u64"
  | .usize => "usize"
  | .bool => "bool"
  | .char => "char"
  | .string => "alloc::string::String"
  | .str => "&str"
  | .unit => "()"
  | .option => "core::option::Option<i64>"
  | .list => "alloc::vec::Vec<i64>"
  | .value => "strand_rt::value::Value"

/-- What a handle shares.  The parameter is the type of values, which can be payloads too. -/
inductive Payload (V : Type) where
  | u8 (n : UInt8)
  | i32 (n : Int32)
  | u32 (n : UInt32)
  | i64 (n : Int64)
  | u64 (n : UInt64)
  | usize (n : UInt64)
  | bool (b : Bool)
  | char (c : Char)
  | string (s : String)
  | str (s : String)
  | unit
  | option (o : Option Int64)
  | list (ns : List Int64)
  | value (v : V)

/-- The type of a payload. -/
def Payload.type {V : Type} : Payload V → PayloadType
  | .u8 _ => .u8
  | .i32 _ => .i32
  | .u32 _ => .u32
  | .i64 _ => .i64
  | .u64 _ => .u64
  | .usize _ => .usize
  | .bool _ => .bool
  | .char _ => .char
  | .string _ => .string
  | .str _ => .str
  | .unit => .unit
  | .option _ => .option
  | .list _ => .list
  | .value _ => .value

/-- The unit value, or a handle that remembers which creation it comes from. -/
inductive Value where
  | unit
  | handle (creation : Nat) (payload : Payload Value)

namespace Value

/-- A value's diagnostic, by the name of its payload's type; unit has none. -/
def describeType : Option String → String
  | none => Text.tagged "Value" "unit"
  | some name => Text.tagged "Value" ("<" ++ name ++ ">")

/-- The payload behind a handle. -/
def payload? : Value → Option (Payload Value)
  | unit => none
  | handle _ payload => some payload

/-- How a value is shown. -/
def describe (v : Value) : String :=
  describeType (v.payload?.map fun payload => payload.type.name)

instance : Inhabited Value := ⟨unit⟩

instance : Describe Value := ⟨describe⟩

/-- Whether the value is unit. -/
def isUnit : Value → Bool
  | unit => true
  | handle _ _ => false

/-- The payload, if it has the wanted type. -/
def get? (v : Value) (wanted : PayloadType) : Option (Payload Value) :=
  match v with
  | unit => none
  | handle _ payload => if payload.type = wanted then some payload else none

/-- Whether two values are one: both unit, or handles from one creation. -/
def same : Value → Value → Bool
  | unit, unit => true
  | handle a _, handle b _ => a = b
  | _, _ => false

/-- How many handles were created so far. -/
structure Supply where
  created : Nat

/-- The supply before the first handle. -/
def Supply.initial : Supply := ⟨0⟩

/-- Create a handle on a payload, different from all earlier ones. -/
def Supply.create (s : Supply) (payload : Payload Value) : Value × Supply :=
  (handle s.created payload, ⟨s.created + 1⟩)

end Value

end Tasking
