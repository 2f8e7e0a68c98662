import Tasking.Scenario.Basic
import Tasking.Value

/-! # A ring of requests

As many tasks as there are resources stand in a ring: each takes one resource, waits until
every task holds one, and then asks for the resource of its neighbour.  The last request
would close a cycle.  It is refused, and the task that made it gives up its resource, so
that the others can go on.

Two tasks that take two resources in opposite order are the ring of size two.
-/

namespace Tasking.Scenario.Ring

instance : Describe Unit := ⟨fun _ => Value.describeType none⟩

/-- No values are passed about, and memory cells hold numbers. -/
abbrev Piece (α : Type) := Code Unit Nat α

/-- The code inside the second resource. -/
def innermost : Body Unit Nat := fun _ value error => .answer (.forward value error)

/-- What a task of a ring remembers: how many tasks hold a resource, which all of them share,
    whether it was counted itself, and whether it asked for its second resource. -/
structure Memory where
  holding : CellId
  counted : CellId
  asked : CellId
  deriving DecidableEq

/-- Count the running task among those that hold a resource, unless that was done before. -/
def countOnce (m : Memory) : Piece Unit := do
  if (← Code.ask (.read m.counted)) = 0 then
    Code.ask (.write m.counted 1)
    Code.ask (.update m.holding (· + 1))

/-- The code inside the first resource: wait until all `size` tasks hold one, then ask for the
    second. -/
def rendezvous (size : Nat) (m : Memory) (second : ResourceId) : Body Unit Nat :=
  fun context value error => Code.program do
    match error with
    | some error => return .throw error
    | none =>
      if (← Code.ask (.read m.asked)) ≠ 0 then
        return .done value
      else
        countOnce m
        if (← Code.ask (.read m.holding)) < size then
          Code.ask (.yield context.task)
          return .suspended
        else
          Code.ask (.write m.asked 1)
          let body ← Code.newFrame "frame" innermost
          let guarded ← Code.ask (.newGuard second body)
          Code.call context guarded ()

/-- Create and start a task that takes two resources in turn. -/
def startTask (s : SchedulerId) (size : Nat) (holding : CellId) (first second : ResourceId) :
    Piece Unit := do
  let counted ← Code.ask (.newCell 0)
  let asked ← Code.ask (.newCell 0)
  let body ← Code.newFrame "rendezvous" (rendezvous size ⟨holding, counted, asked⟩ second)
  let entry ← Code.ask (.newGuard first body)
  let _ ← Code.run s entry

/-- Create resources with these names. -/
def newResources : List String → Piece (List ResourceId)
  | [] => pure []
  | name :: names => do
    let r ← Code.ask (.newResource (some name))
    return r :: (← newResources names)

/-- Every resource with the next one; the last with the first. -/
def neighbours (rs : List ResourceId) : List (ResourceId × ResourceId) :=
  rs.zip (rs.drop 1 ++ rs.take 1)

/-- Create and start tasks that take two resources each. -/
def startTasks (s : SchedulerId) (size : Nat) (holding : CellId) :
    List (ResourceId × ResourceId) → Piece Unit
  | [] => pure ()
  | (first, second) :: rest => do
    startTask s size holding first second
    startTasks s size holding rest

/-- Create the resources and the tasks. -/
def work (names : List String) (s : SchedulerId) : Piece Unit := do
  let rs ← newResources names
  let holding ← Code.ask (.newCell 0)
  startTasks s names.length holding (neighbours rs)

/-- What came of the scenario. -/
structure Result where
  outcomes : List (Option (Outcome Unit))
  /-- Every resource is free. -/
  released : Bool
  load : Load

/-- More steps than the scenario makes. -/
def stepLimit (size : Nat) : Nat := 256 * (size + 1)

/-- Read the result off a state. -/
def Result.ofState (st : State Unit Nat) : Result where
  outcomes := Scenario.outcomes st
  released := st.resources.entries.all fun resource => resource.owner.isNone
  load := .ofState st

/-- Run the scenario with resources of these names. -/
def run (settings : Settings) (parallelism : Nat) (names : List String) : Result :=
  .ofState (finalState (stepLimit names.length) parallelism (program settings (work names)))

end Tasking.Scenario.Ring
