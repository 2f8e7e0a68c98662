import Tasking.Settings

/-! # Options of a scenario

After the name of a scenario come pairs of an option, which starts with two dashes, and
its value.  Whatever follows an option is its value.  Of a repeated option the last value
counts.

`Options.ofArguments` reads the pairs from the left and stops at the first complaint.
-/

namespace Tasking.Cli

/-- Why a scenario does not start. -/
inductive Complaint where
  /-- An argument stands where an option is due. -/
  | unexpected (argument : String)
  /-- The scenario has no such option. -/
  | unknown (option : String)
  /-- The last option has no value. -/
  | noValue (option : String)
  /-- The value of an option is not a number. -/
  | notNumber (name text : String)
  /-- The settings are refused. -/
  | host (e : HostError)
  deriving DecidableEq

/-- The wording of a complaint. -/
def Complaint.message : Complaint → String
  | unexpected argument => "unexpected argument `" ++ argument ++ "`"
  | unknown option => "unknown option `" ++ option ++ "`"
  | noValue option => "option `" ++ option ++ "` needs a value"
  | notNumber name text => "--" ++ name ++ " expects a number, got `" ++ text ++ "`"
  | host e => e.message

/-- Names of options with their values, in the order in which they were given. -/
structure Options where
  values : List (String × String)
  deriving DecidableEq

namespace Options

/-- The name of an option, which follows two dashes. -/
def name? (argument : String) : Option String :=
  match argument.toList with
  | '-' :: '-' :: name => some (String.ofList name)
  | _ => none

/-- Read pairs of options and values, of which only some names are allowed. -/
def pairs (allowed : List String) : List String → Except Complaint (List (String × String))
  | [] => .ok []
  | [option] =>
    match name? option with
    | none => .error (.unexpected option)
    | some name => if name ∈ allowed then .error (.noValue option) else .error (.unknown option)
  | option :: value :: rest =>
    match name? option with
    | none => .error (.unexpected option)
    | some name =>
      if name ∈ allowed then (pairs allowed rest).map ((name, value) :: ·)
      else .error (.unknown option)

/-- Read the arguments of a scenario. -/
def ofArguments (allowed : List String) (arguments : List String) :
    Except Complaint Options :=
  (pairs allowed arguments).map Options.mk

/-- The last value of an option. -/
def last? (o : Options) (name : String) : Option String := o.values.reverse.lookup name

/-- The last value of an option as a number. -/
def number? (o : Options) (name : String) : Except Complaint (Option Nat) :=
  match o.last? name with
  | none => .ok none
  | some text =>
    match Text.numeral? text with
    | some n => .ok (some n)
    | none => .error (.notNumber name text)

end Options

/-- The settings of the environment, with the number of workers that an option asks for. -/
def chosenSettings (valueOf : String → Option String) (workers : Option Nat) :
    Except HostError Settings :=
  match Settings.ofEnvironment valueOf, workers with
  | .ok s, some n => { s with workers := some n }.validate
  | .ok s, none => s.validate
  | .error e, _ => .error e

end Tasking.Cli
