import Tasking.State

/-! # Starting, waking and parking tasks

A ready task without a thread of its own sits in the ready queue of its scheduler.  A
task that was woken while still running is only marked; `park` finds the mark and makes
the task ready again in place of parking it, so no wake is lost.
-/

namespace Tasking.State

variable {V C : Type}

/-- Mark a task as sitting in a queue.  A task sits in at most one. -/
def claimLink (st : State V C) (t : TaskId) : Attempt V C (State V C) := do
  let task ← st.task t
  if task.linked then st.fail .alreadyLinked
  pure (st.modifyTask t fun task => { task with linked := true })

/-- Mark a task as taken out of its queue. -/
def dropLink (st : State V C) (t : TaskId) : State V C :=
  st.modifyTask t fun task => { task with linked := false }

/-- Hand a ready task to whoever runs it: its own thread looks at the task itself, any other
    task goes to the end of the ready queue. -/
def schedule (st : State V C) (t : TaskId) : Attempt V C (State V C) := do
  let task ← st.task t
  if task.bound.isSome then
    pure st
  else
    let st ← st.claimLink t
    pure (st.modifyScheduler task.scheduler fun s => { s with ready := s.ready.push t })

/-- Forget what a task waits for. -/
def finishWait (st : State V C) (t : TaskId) : Attempt V C (State V C) := do
  let task ← st.task t
  let st := st.modifyTask t fun task => { task with waiting := none, external := false }
  if task.external then st.adjust task.scheduler .external (-1) else pure st

/-- Set the stage of a task, which also takes back a pending wake. -/
def setLife (st : State V C) (t : TaskId) (life : Life) : State V C :=
  st.modifyTask t fun task => { task with life := life, notified := false }

/-- Move a task that must be in the given stage to another one. -/
def advance (st : State V C) (t : TaskId) (source target : Life) :
    Attempt V C (State V C) := do
  let task ← st.task t
  if task.life ≠ source ∨ source.canMove target = false then
    st.fail (.wrongMove t source target task.life)
  pure (st.setLife t target)

/-- Move a task along an edge of its life cycle, or report that there is no such edge. -/
def move (st : State V C) (t : TaskId) (target : Life) :
    Attempt V C (Except IllegalMove Life × State V C) := do
  let task ← st.task t
  if task.life.canMove target then
    pure (.ok task.life, st.setLife t target)
  else
    pure (.error ⟨task.life, target⟩, st)

/-- Make a new task ready. -/
def start (st : State V C) (t : TaskId) : Attempt V C (State V C) := do
  let task ← st.task t
  let st ← st.advance t .init .ready
  let st ← st.adjust task.scheduler .runnable 1
  st.schedule t

/-- Wake a task.  A parked task becomes ready.  A running one has arranged to wait but is not
    parked yet; it is marked, and does not park. -/
def ready (st : State V C) (t : TaskId) : Attempt V C (State V C) := do
  let task ← st.task t
  match task.life with
  | .waiting =>
    let st ← (st.setLife t .ready).adjust task.scheduler .runnable 1
    let st ← st.finishWait t
    st.schedule t
  | .running =>
    (st.modifyTask t fun task => { task with notified := true }).finishWait t
  | life => st.fail (.wokenWhile t life)

/-- Announce that a running task waits for an event outside the scheduler. -/
def waitExternal (st : State V C) (t : TaskId) : Attempt V C (State V C) := do
  let task ← st.task t
  if task.life ≠ .running then st.fail (.externalWhile t task.life)
  let st := st.modifyTask t fun task =>
    { task with waiting := some .external, external := true }
  if task.external then pure st else st.adjust task.scheduler .external 1

/-- Let a running task run again after the tasks that are ready now. -/
def yield (st : State V C) (t : TaskId) : Attempt V C (State V C) := do
  let task ← st.task t
  let st := st.modifyTask t fun task => { task with notified := true }
  if task.life ≠ .running then st.fail (.yieldWhileIdle t)
  pure st

/-- Take the oldest task out of a ready queue. -/
def takeReady (st : State V C) (s : SchedulerId) :
    Attempt V C (Option TaskId × State V C) := do
  let scheduler ← st.scheduler s
  match scheduler.ready.pop? with
  | none => pure (none, st)
  | some (t, rest) =>
    let st := st.modifyScheduler s fun scheduler => { scheduler with ready := rest }
    pure (some t, st.dropLink t)

/-- A worker takes up a ready task. -/
def beginRun (st : State V C) (t : TaskId) (w : Worker) : Attempt V C (State V C) := do
  let st ← st.advance t .ready .running
  pure (st.modifyTask t fun task => { task with worker := some w })

/-- The worker lets go of a task. -/
def endRun (st : State V C) (t : TaskId) : State V C :=
  st.modifyTask t fun task => { task with worker := none }

/-- Park a task whose top frame suspended, or make it ready again if it was woken or
    yielded. -/
def park (st : State V C) (t : TaskId) : Attempt V C (State V C) := do
  let task ← st.task t
  if task.life ≠ .running then
    st.fail (.parkedWhile t task.life)
  else if task.notified then
    (st.setLife t .ready).schedule t
  else if task.waiting.isNone then
    st.fail (.nothingAwaited t)
  else
    (st.setLife t .waiting).adjust task.scheduler .runnable (-1)

/-- Wake some tasks in order. -/
def readyAll (st : State V C) : List TaskId → Attempt V C (State V C)
  | [] => pure st
  | t :: rest => do
    let st ← st.ready t
    st.readyAll rest

/-- Take a finished task off its scheduler's books. -/
def retire (st : State V C) (t : TaskId) : Attempt V C (State V C) := do
  let task ← st.task t
  let st := st.modifyTask t fun task => { task with listed := false }
  let st ← st.adjust task.scheduler .tasks (-1)
  st.adjust task.scheduler .runnable (-1)

/-- How a task ends whose last frame finished with the given result. -/
def outcomeOf (t : TaskId) : Except (Error V) V → Outcome V
  | .ok value => .done value
  | .error error => .failed ⟨t, error⟩

/-- The last stage of a task whose last frame finished with the given result. -/
def finalLife : Except (Error V) V → Life
  | .ok _ => .done
  | .error _ => .failed

/-- End a task whose last frame finished: keep its outcome, wake those that joined it, and
    take it off the books. -/
def finish [Inhabited V] (st : State V C) (t : TaskId) (result : Except (Error V) V) :
    Attempt V C (State V C) := do
  let task ← st.task t
  if task.life ≠ .running then st.fail (.finishedWhile t task.life)
  let st := (st.setLife t (finalLife result)).modifyTask t fun task =>
    { task with
        top := none, value := default, error := none,
        outcome := some (outcomeOf t result), joiners := .empty }
  let st ← st.readyAll task.joiners.toList
  st.retire t

/-- Create a task of a scheduler; `bound` is the index of its own thread, if it has one. -/
def addTask [Inhabited V] (st : State V C) (s : SchedulerId) (entry : FrameId)
    (bound : Option Nat) : TaskId × State V C :=
  (st.tasks.next, { st with tasks := st.tasks.add (.new s entry bound) })

/-- Enter a task on the books of its scheduler. -/
def enlist (st : State V C) (s : SchedulerId) (t : TaskId) : State V C :=
  (st.modifyTask t fun task => { task with listed := true }).modifyScheduler s fun scheduler =>
    { scheduler with tasks := scheduler.tasks + 1 }

/-- Create a task that will begin at a frame. -/
def spawn [Inhabited V] (st : State V C) (s : SchedulerId) (entry : FrameId) :
    Attempt V C (Except HostError TaskId × State V C) := do
  let scheduler ← st.scheduler s
  if scheduler.isShutDown then
    pure (.error .shutDown, st)
  else
    let (t, st) := st.addTask s entry none
    pure (.ok t, st.enlist s t)

/-- Give a new task of a scheduler a thread of its own, and start both. -/
def startBound (st : State V C) (s : SchedulerId) (t : TaskId) : Attempt V C (State V C) :=
  let st := st.modifyScheduler s fun scheduler =>
    { scheduler with bound := scheduler.bound ++ [t] }
  (st.enlist s t).start t

/-- Create and start a task with a thread of its own.  The numbers of the task and of its thread
    are used up even if the thread cannot be started. -/
def spawnBound [Inhabited V] (st : State V C) (s : SchedulerId) (entry : FrameId) :
    Attempt V C (Except HostError TaskId × State V C) := do
  let scheduler ← st.scheduler s
  if scheduler.isShutDown then
    pure (.error .shutDown, st)
  else
    let index := scheduler.nextThread
    let st := st.modifyScheduler s fun scheduler => { scheduler with nextThread := index + 1 }
    let (t, st) := st.addTask s entry (some index)
    match scheduler.settings.threadObstacle? index with
    | some (.refused e) => pure (.error e, st)
    | some (.fault fault) => st.fail fault
    | none =>
      let st ← st.startBound s t
      pure (.ok t, st)

/-- Mark some tasks as taken out of their queue. -/
def dropLinks (st : State V C) : List TaskId → State V C
  | [] => st
  | t :: rest => (st.dropLink t).dropLinks rest

/-- Stop a scheduler: it takes no more tasks, and the ready ones are dropped. -/
def stop (st : State V C) (s : SchedulerId) : Attempt V C (State V C) := do
  let scheduler ← st.scheduler s
  let st := st.modifyScheduler s fun s => { s with isShutDown := true, ready := .empty }
  pure (st.dropLinks scheduler.ready.toList)

end Tasking.State
