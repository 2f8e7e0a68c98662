import Tasking.Error
import Tasking.Line
import Tasking.Text.Record

/-! # Tasks

What the runtime remembers of a task: where it is in its life, the top of its chain of
frames with what the top is resumed with next, what it waits for, and how it ended.

`notified` records a wake that arrived while the task was still running, after it had
arranged to wait and before it was parked; parking consumes it.
-/

namespace Tasking

/-- What a parked task waits for. -/
inductive WaitTarget where
  | resource (resource : ResourceId)
  | task (task : TaskId)
  /-- A timer, input, or anything else outside the scheduler. -/
  | external
  deriving DecidableEq

/-- How a wait target is shown. -/
def WaitTarget.text : WaitTarget → String
  | .resource r => Text.tagged "Resource" r.text
  | .task t => Text.tagged "Task" t.text
  | .external => "External"

/-- Who runs tasks: the thread that embeds the runtime, or a thread of the scheduler. -/
inductive Worker where
  | embedded
  | thread (index : Nat)
  deriving DecidableEq

namespace Worker

/-- The name of a worker. -/
def text : Worker → String
  | embedded => "embedded"
  | thread index => "worker-" ++ toString index

/-- The index of a worker.  The embedding thread has the largest there is. -/
def index : Worker → Nat
  | embedded => UInt64.size - 1
  | thread index => index

/-- A worker in diagnostics. -/
def diagnostic (w : Worker) : String :=
  Text.record "Worker" [("id", Text.tagged "WorkerId" (toString w.index))]

end Worker

/-- A task. -/
structure Task (V : Type) where
  /-- The scheduler that spawned the task. -/
  scheduler : SchedulerId
  life : Life
  /-- A wake arrived while the task was running. -/
  notified : Bool
  /-- The top of the chain of frames. -/
  top : Option FrameId
  /-- What the top frame is resumed with next. -/
  value : V
  /-- The error the top frame is resumed with next, if any. -/
  error : Option (Error V)
  /-- Who runs the task right now. -/
  worker : Option Worker
  waiting : Option WaitTarget
  /-- The task is in its scheduler's count of external waits. -/
  external : Bool
  /-- The index of the task's own thread, if it has one. -/
  bound : Option Nat
  outcome : Option (Outcome V)
  /-- The tasks to wake when this one finishes, in the order in which they asked. -/
  joiners : Line TaskId
  /-- The task sits in a ready queue or in a wait queue. -/
  linked : Bool
  /-- The task is on its scheduler's list of unfinished tasks. -/
  listed : Bool

namespace Task

variable {V : Type}

/-- A new task of a scheduler, which will begin at the frame `entry`.  It is not on the
    scheduler's list yet. -/
def new [Inhabited V] (s : SchedulerId) (entry : FrameId) (bound : Option Nat) : Task V where
  scheduler := s
  life := .init
  notified := false
  top := some entry
  value := default
  error := none
  worker := none
  waiting := none
  external := false
  bound := bound
  outcome := none
  joiners := .empty
  linked := false
  listed := false

/-- Whether the task is done or failed. -/
def isFinished (task : Task V) : Bool := task.life.isTerminal

/-- Whether the task is parked on a resource or on another task. -/
def isBlocked (task : Task V) : Bool :=
  task.life = .waiting && task.waiting ≠ some .external

/-- A task in diagnostics. -/
def diagnostic (task : Task V) (t : TaskId) : String :=
  Text.record "Task"
    [("id", t.diagnostic), ("state", task.life.name), ("bound", Text.flag task.bound.isSome)]

end Task

end Tasking
