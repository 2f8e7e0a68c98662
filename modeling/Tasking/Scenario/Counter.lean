import Tasking.Scenario.Basic
import Tasking.Value

/-! # Counting together

A number of tasks increment one shared counter, each of them once and while it owns the
counter.  However they are interleaved, the counter ends at the number of tasks.
-/

namespace Tasking.Scenario.Counter

/-- The values that are passed about. -/
inductive Datum where
  | unit
  | count (n : UInt64)
  /-- The complaint of a task that reached the counter without owning it. -/
  | intrusion
  deriving DecidableEq

namespace Datum

instance : Inhabited Datum := ⟨.unit⟩

/-- The type of a value; unit has none. -/
def type? : Datum → Option PayloadType
  | unit => none
  | count _ => some .u64
  | intrusion => some .str

instance : Describe Datum := ⟨fun d => Value.describeType (d.type?.map PayloadType.name)⟩

/-- The count; other values count as zero. -/
def toCount : Datum → UInt64
  | count n => n
  | _ => 0

end Datum

/-- Nothing is kept in memory cells. -/
abbrev Piece (α : Type) := Code Datum Empty α

/-- The code that increments the counter. -/
def increment (x : ExclusiveId) : Body Datum Empty := fun context _ error =>
  Code.program do
    match error with
    | some error => return .throw error
    | none =>
      let add := Code.program do
        let counter ← Code.ask (.exclusive x)
        Code.ask (.setPayload x (.count (counter.payload.toCount + 1)))
        return .done .unit
      match ← Code.within x context.task add with
      | some _ => return .done .unit
      | none => return .throw (.thrown .intrusion)

/-- Create and start so many tasks that each increment the counter. -/
def startTasks (s : SchedulerId) (r : ResourceId) (x : ExclusiveId) : Nat → Piece Unit
  | 0 => pure ()
  | n + 1 => do
    let body ← Code.newFrame "increment" (increment x)
    let entry ← Code.ask (.newGuard r body)
    let _ ← Code.run s entry
    startTasks s r x n

/-- Create the counter and the tasks. -/
def work (tasks : Nat) (s : SchedulerId) : Piece Unit := do
  let r ← Code.ask (.newResource none)
  let x ← Code.ask (.newExclusive r (.count 0))
  startTasks s r x tasks

/-- What came of the scenario. -/
structure Result where
  /-- How many tasks there were. -/
  tasks : Nat
  /-- Every task has an outcome. -/
  finished : Bool
  /-- How many tasks did not end with a value. -/
  failed : Nat
  /-- What the counter shows. -/
  total : UInt64
  load : Load
  deriving DecidableEq

/-- Whether every increment was counted. -/
def Result.passed (r : Result) : Bool :=
  r.finished && r.total = r.tasks.toUInt64 && r.failed = 0

/-- More steps than the scenario makes. -/
def stepLimit (tasks : Nat) : Nat := 64 * (tasks + 1)

/-- Read the result off a state. -/
def Result.ofState (tasks : Nat) (st : State Datum Empty) : Result where
  tasks := tasks
  finished := (outcomes st).all Option.isSome
  failed := (outcomes st).countP fun outcome => !outcome.any Outcome.isDone
  total := ((st.exclusives.get? ⟨1⟩).map fun counter => counter.payload.toCount).getD 0
  load := .ofState st

/-- Run the scenario. -/
def run (settings : Settings) (parallelism tasks : Nat) : Result :=
  .ofState tasks (finalState (stepLimit tasks) parallelism (program settings (work tasks)))

end Tasking.Scenario.Counter
