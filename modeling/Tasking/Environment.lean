import Tasking.Fault

/-! # Environments

The variables that a process is started with.  A variable has a name, which is not empty and
holds no equals sign; neither a name nor a value holds a NUL character.  Setting any other
variable is a fault.
-/

namespace Tasking

/-- Variables with their values, the latest first. -/
structure Environment where
  entries : List (String × String)
  deriving DecidableEq

namespace Environment

/-- No variable is set. -/
def empty : Environment := ⟨[]⟩

/-- The value of a variable, if it is set. -/
def value? (e : Environment) (name : String) : Option String := e.entries.lookup name

/-- What keeps a variable from being set, if anything does. -/
def refusal? (name value : String) : Option String :=
  if '\x00' ∈ name.toList ++ value.toList then
    some "file name contained an unexpected NUL byte"
  else if name.isEmpty || '=' ∈ name.toList then
    some "Invalid argument (os error 22)"
  else
    none

/-- Set a variable. -/
def set (e : Environment) (name value : String) : Except Fault Environment :=
  match refusal? name value with
  | some reason => .error (.badVariable name value reason)
  | none => .ok ⟨(name, value) :: e.entries⟩

/-- Set variables in order. -/
def setAll (e : Environment) : List (String × String) → Except Fault Environment
  | [] => .ok e
  | (name, value) :: rest =>
    match e.set name value with
    | .ok e => e.setAll rest
    | .error fault => .error fault

end Environment

end Tasking
