import Tasking.Program
import Tasking.Script.Command

/-! # What a session sees and keeps

A `Result` is what a command finds out, an `Event` what running code reports, and an
`Entry` what is written down about one command of the host: its result, the events of its
time, and a snapshot of the runtime after it.

The names that a session has given out, and its reports, are its `World`.  The world and
the registers of running frames live in memory cells of the runtime.
-/

namespace Tasking.Script

/-- What can be seen of a task. -/
structure TaskView where
  id : TaskId
  task : Task Datum
  top : Option Frame.View

/-- What can be seen of a scheduler's counters. -/
structure LoadView where
  stats : Stats
  workers : Nat
  isShutDown : Bool
  deriving DecidableEq

/-- What a command finds out. -/
inductive Result where
  | nothing
  | spawned (t : TaskId)
  | refused (e : HostError)
  | moved (source : Life)
  | illegal (m : IllegalMove)
  /-- What waiting for a task found at once. -/
  | found (outcome : Option (Outcome Datum))
  | deadlock (refusal : Deadlock)
  | task (view : TaskView)
  | life (life : Life)
  | value (value : Datum)
  | outcome (outcome : Option (Outcome Datum))
  | worker (worker : Option Worker)
  | grant (grant : Grant)
  | flag (b : Bool)
  | resource (r : ResourceId) (resource : Resource)
  /-- The payload after a use of it, or nothing if it could not be opened. -/
  | payload (payload : Option Datum)
  | diagnostic (text : String)
  | path (path : Option (List TaskId))
  /-- A frame, with the label of its caller. -/
  | frame (view : Frame.View) (caller : Option String)
  | symbol (symbol : Option Symbol)
  | name (name : Option String)
  | registry (view : Registry.View)
  | runs (n : Nat)
  /-- How many runs the embedding thread made as a worker. -/
  | embedded (n : Nat)
  | load (view : LoadView)
  | scheduler (scheduler : Scheduler) (stats : Stats)
  /-- The host would wait for ever. -/
  | wouldBlock

/-- What running code reports. -/
inductive Event where
  /-- A frame was resumed. -/
  | resumed (label : String) (t : TaskId) (value : Datum) (error : Option (Error Datum))
  | logged (value : Datum)
  /-- The registers were shown. -/
  | shown (value : Datum) (error : Option (Error Datum))
  /-- A native function could not be called. -/
  | nativeRefused (e : HostError)
  /-- Whether the running frame was its task's top frame. -/
  | isTop (b : Bool)
  /-- The name of the running thread. -/
  | thread (name : String)
  /-- An actor began to handle a message. -/
  | handled (t : TaskId) (message state : Datum)
  /-- A native function was called by a frame with the given label. -/
  | called (label : String) (arguments : List Datum)
  /-- Running code gave a command. -/
  | performed (command : String) (result : Result)

/-- What a snapshot says of a task. -/
structure TaskLine where
  name : String
  id : TaskId
  life : Life
  waiting : Option WaitTarget
  deriving DecidableEq

/-- What a snapshot says of a resource. -/
structure ResourceLine where
  name : String
  owner : Option TaskId
  waiters : Nat
  deriving DecidableEq

/-- The runtime at one moment: tasks and resources in the order of their creation, and the
    counters of the schedulers that were not dropped. -/
structure Snapshot where
  tasks : List TaskLine
  resources : List ResourceLine
  stats : List (Option Stats)
  deriving DecidableEq

/-- What is written down about one command of the host. -/
inductive Entry where
  | completed (result : Result) (events : List Event) (snapshot : Option Snapshot)
  /-- The command led to a fault, after these events. -/
  | faulted (fault : Fault) (events : List Event)

/-- The names given out so far, newest first, and the reports. -/
structure World where
  tasks : List (String × TaskId)
  frames : List (String × FrameId)
  /-- The latest symbol given out for each name, by any registry. -/
  symbols : List (String × Symbol)
  /-- The events since the last entry, newest first. -/
  events : List Event
  /-- The entries so far, newest first. -/
  entries : List Entry
  /-- The schedulers that were dropped. -/
  dropped : List SchedulerId
  /-- The schedulers that somebody uses, once for every use. -/
  inUse : List SchedulerId

namespace World

/-- Nothing has a name yet. -/
def empty : World := ⟨[], [], [], [], [], [], []⟩

/-- Drop a scheduler: it cannot be named any more. -/
def drop (w : World) (s : SchedulerId) : World := { w with dropped := s :: w.dropped }

/-- Begin to use a scheduler. -/
def use (w : World) (s : SchedulerId) : World := { w with inUse := s :: w.inUse }

/-- End a use of a scheduler. -/
def letGo (w : World) (s : SchedulerId) : World := { w with inUse := w.inUse.erase s }

/-- Whether a scheduler was dropped and nobody uses it any more. -/
def isAbandoned (w : World) (s : SchedulerId) : Bool :=
  w.dropped.contains s && !w.inUse.contains s

/-- Report an event. -/
def report (w : World) (e : Event) : World := { w with events := e :: w.events }

/-- Write down a command, with the events since the one before. -/
def close (w : World) (result : Result) (snapshot : Option Snapshot) : World :=
  { w with
      events := []
      entries := .completed result w.events.reverse snapshot :: w.entries }

end World

/-- The registers of a script frame that outlive a resume: the step to run next, and how often
    each step was jumped to. -/
structure Progress where
  next : Nat
  jumps : List (Nat × Nat)
  deriving DecidableEq

namespace Progress

/-- At the first step. -/
def initial : Progress := ⟨0, []⟩

/-- How often a step was jumped to. -/
def jumpsTo (p : Progress) (step : Nat) : Nat := (p.jumps.lookup step).getD 0

/-- Jump to a step. -/
def goto (p : Progress) (step : Nat) : Progress :=
  ⟨step, (step, p.jumpsTo step + 1) :: p.jumps.filter (·.1 ≠ step)⟩

end Progress

/-- What a session keeps in memory cells. -/
inductive Memory where
  | world (w : World)
  | progress (p : Progress)
  /-- How often a frame was resumed without an error. -/
  | count (n : Nat)

namespace Memory

/-- The world in a cell. -/
def toWorld : Memory → World
  | world w => w
  | _ => .empty

/-- The progress in a cell. -/
def toProgress : Memory → Progress
  | progress p => p
  | _ => .initial

/-- The count in a cell. -/
def toCount : Memory → Nat
  | count n => n
  | _ => 0

end Memory

end Tasking.Script
