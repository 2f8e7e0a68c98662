import Tasking.Error
import Tasking.Text.Blank
import Tasking.Text.Numeral

/-! # Settings of a scheduler

How many worker threads a scheduler has, how they are named, how long they sleep when
there is nothing to do, and whether requests that would deadlock are refused.

`Settings.validate` checks the fields in a fixed order, so that settings with several
flaws always get the same complaint.  `Settings.ofEnvironment` reads two variables.
-/

namespace Tasking

/-- What can be chosen about a scheduler. -/
structure Settings where
  /-- Background workers.  Without a number, as many as the machine runs at once; with
      none, the embedding thread drives the scheduler itself. -/
  workers : Option Nat
  /-- What the names of worker threads begin with. -/
  threadName : String
  stackSize : Option Nat
  /-- How long an idle worker sleeps before it looks for work again, in nanoseconds. -/
  idleNanos : Nat
  /-- Whether a request to wait is refused when it would close a cycle. -/
  deadlockDetection : Bool
  deriving DecidableEq

namespace Settings

/-- What holds when nothing is chosen. -/
def default : Settings where
  workers := none
  threadName := "strand-worker"
  stackSize := none
  idleNanos := 5000000
  deadlockDetection := true

/-- No background workers. -/
def manual : Settings := { default with workers := some 0 }

/-- The most workers a scheduler may have. -/
def maxWorkers : Nat := 1024

/-- The least stack a worker needs, in bytes. -/
def minStackSize : Nat := 64 * 1024

/-- What can be wrong with settings. -/
inductive Flaw where
  | tooManyWorkers
  | noThreadName
  | smallStack
  | noIdleTime
  | workersNotNumber (text : String)
  | detectionNotFlag (text : String)
  deriving DecidableEq

/-- The complaint about a flaw. -/
def Flaw.message : Flaw → String
  | .tooManyWorkers => "worker_threads too large (max " ++ toString maxWorkers ++ ")"
  | .noThreadName => "thread_name_prefix must not be empty"
  | .smallStack => "stack_size must be at least " ++ toString minStackSize ++ " bytes"
  | .noIdleTime => "idle_timeout must be > 0"
  | .workersNotNumber text => "STRAND_WORKERS must be a number, got `" ++ text ++ "`"
  | .detectionNotFlag text =>
      "STRAND_DEADLOCK_DETECTION must be on/off, got `" ++ text ++ "`"

/-- A flaw as it is reported to the host. -/
def Flaw.error (f : Flaw) : HostError := .settings f.message

/-- The first flaw of the settings, if they have one. -/
def flaw? (s : Settings) : Option Flaw :=
  if s.workers.any (maxWorkers < ·) then some .tooManyWorkers
  else if s.threadName.isEmpty then some .noThreadName
  else if s.stackSize.any (· < minStackSize) then some .smallStack
  else if s.idleNanos = 0 then some .noIdleTime
  else none

/-- Accept the settings, or report their first flaw. -/
def validate (s : Settings) : Except HostError Settings :=
  match s.flaw? with
  | none => .ok s
  | some flaw => .error flaw.error

/-- The number of workers to start on a machine that runs `parallelism` threads at once. -/
def resolvedWorkers (s : Settings) (parallelism : Nat) : Nat := s.workers.getD parallelism

/-- Read a switch: one of eight words, in any case, with white space around it. -/
def flag? (text : String) : Option Bool :=
  let word := (Text.trim text).toLower
  if word ∈ ["1", "true", "on", "yes"] then some true
  else if word ∈ ["0", "false", "off", "no"] then some false
  else none

/-- The variable that sets the number of workers. -/
def workersVariable : String := "STRAND_WORKERS"

/-- The variable that switches deadlock detection. -/
def detectionVariable : String := "STRAND_DEADLOCK_DETECTION"

/-- The settings with the number of workers that a variable asks for. -/
def withWorkersText (s : Settings) : Option String → Except Flaw Settings
  | none => .ok s
  | some text =>
    match Text.numeral? (Text.trim text) with
    | some n => .ok { s with workers := some n }
    | none => .error (.workersNotNumber text)

/-- The settings with the detection that a variable asks for. -/
def withDetectionText (s : Settings) : Option String → Except Flaw Settings
  | none => .ok s
  | some text =>
    match flag? text with
    | some on => .ok { s with deadlockDetection := on }
    | none => .error (.detectionNotFlag text)

/-- The default settings, overridden by the variables that are set, then checked. -/
def ofEnvironment (valueOf : String → Option String) : Except HostError Settings :=
  let read := do
    let s ← default.withWorkersText (valueOf workersVariable)
    s.withDetectionText (valueOf detectionVariable)
  match read with
  | .ok s => s.validate
  | .error flaw => .error flaw.error

end Settings

end Tasking
