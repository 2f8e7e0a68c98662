import Tasking.State

/-! # The wait graph

A task that waits for a resource points at the resource's owner, and a task that joins
another points at that task.  Before a task waits, the chain that starts at what it is
about to wait for is followed; if it leads back to the task, waiting would never end.

Owners are looked up among the unfinished tasks of the scheduler of the task that asks,
and the walk makes no more steps than that scheduler has tasks, and one.
-/

namespace Tasking.State

variable {V C : Type}

/-- The task that a wait target depends on, seen from a scheduler. -/
def blocker (st : State V C) (s : SchedulerId) : WaitTarget → Option TaskId
  | .resource r => do
    let resource ← st.resources.get? r
    let owner ← resource.owner
    let _ ← st.listedTask? s owner
    some owner
  | .task t => do
    let task ← st.tasks.get? t
    if task.isFinished then none else some t
  | .external => none

/-- The task that a task waits for, seen from a scheduler. -/
def nextWaited (st : State V C) (s : SchedulerId) (t : TaskId) : Option TaskId := do
  let task ← st.tasks.get? t
  let target ← task.waiting
  st.blocker s target

/-- Follow the wait graph from `current` for at most `bound` tasks.  The result is the tasks
    met up to `requester`, if it is met. -/
def walk (st : State V C) (s : SchedulerId) (requester : TaskId) :
    Nat → TaskId → Option (List TaskId)
  | 0, _ => none
  | bound + 1, current =>
    if current = requester then
      some [current]
    else do
      let next ← st.nextWaited s current
      let rest ← st.walk s requester bound next
      some (current :: rest)

/-- The cycle that waiting for a target would close, starting and ending with the requester. -/
def findCycle (st : State V C) (requester : TaskId) (target : WaitTarget) :
    Option (List TaskId) := do
  let task ← st.tasks.get? requester
  let scheduler ← st.schedulers.get? task.scheduler
  let first ← st.blocker task.scheduler target
  let met ← st.walk task.scheduler requester (scheduler.tasks.toNat + 1) first
  some (requester :: met)

/-- Whether a scheduler refuses requests that would close a cycle. -/
def detects (st : State V C) (s : SchedulerId) : Bool :=
  (st.schedulers.get? s).any fun scheduler => scheduler.settings.deadlockDetection

/-- The refusal of a request to wait, if it is refused. -/
def refusal? (st : State V C) (requester : TaskId) (target : WaitTarget) :
    Option Deadlock := do
  let task ← st.tasks.get? requester
  if st.detects task.scheduler then
    let path ← st.findCycle requester target
    some ⟨requester, path⟩
  else
    none

/-- Publish what a task is about to wait for. -/
def announceWait (st : State V C) (t : TaskId) (target : WaitTarget) : State V C :=
  st.modifyTask t fun task => { task with waiting := some target }

end Tasking.State
