import Tasking.Task
import Tasking.Thread

/-! # Schedulers

A scheduler owns one queue of tasks that are ready to run and three counters: its
unfinished tasks, those that are ready or running, and those that wait for an event
outside.  It is quiescent when nothing is runnable and nothing waits outside; tasks that
are blocked on each other do not keep it busy.

A counter below zero is a fault, but it keeps its value; it then shows as zero.
-/

namespace Tasking

/-- A scheduler. -/
structure Scheduler where
  settings : Settings
  registry : RegistryId
  /-- How many background workers share the ready queue. -/
  workers : Nat
  /-- Unfinished tasks. -/
  tasks : Int
  /-- Tasks that are ready or running. -/
  runnable : Int
  /-- Tasks that wait for an external event. -/
  external : Int
  /-- Ready tasks without a thread of their own, in the order in which they run. -/
  ready : Line TaskId
  /-- The tasks with threads of their own, in the order of their creation. -/
  bound : List TaskId
  /-- The index that the next thread of a bound task gets. -/
  nextThread : Nat
  isShutDown : Bool
  deriving DecidableEq

namespace Scheduler

/-- A scheduler without tasks. -/
def new (settings : Settings) (registry : RegistryId) (workers : Nat) : Scheduler where
  settings := settings
  registry := registry
  workers := workers
  tasks := 0
  runnable := 0
  external := 0
  ready := .empty
  bound := []
  nextThread := workers
  isShutDown := false

/-- The value of a counter. -/
def count (s : Scheduler) : Counter → Int
  | .tasks => s.tasks
  | .runnable => s.runnable
  | .external => s.external

/-- The scheduler with another value of a counter. -/
def withCount (s : Scheduler) (c : Counter) (n : Int) : Scheduler :=
  match c with
  | .tasks => { s with tasks := n }
  | .runnable => { s with runnable := n }
  | .external => { s with external := n }

/-- Whether nothing is runnable and nothing waits for an external event. -/
def isQuiescent (s : Scheduler) : Bool := s.runnable ≤ 0 && s.external ≤ 0

end Scheduler

/-- The counters of a scheduler at one moment. -/
structure Stats where
  tasks : Nat
  runnable : Nat
  external : Nat
  /-- Tasks parked on a resource or on another task. -/
  blocked : Nat
  ready : Nat
  deriving DecidableEq

namespace Stats

/-- Whether nothing was runnable and nothing waited for an external event. -/
def isQuiescent (s : Stats) : Bool := s.runnable = 0 && s.external = 0

/-- Counters in diagnostics. -/
def diagnostic (s : Stats) : String :=
  Text.record "Stats"
    [("tasks", toString s.tasks),
     ("runnable", toString s.runnable),
     ("waiting_external", toString s.external),
     ("blocked", toString s.blocked),
     ("ready_queue", toString s.ready)]

end Stats

/-- A scheduler in diagnostics. -/
def Scheduler.diagnostic (s : Scheduler) (stats : Stats) : String :=
  Text.record "Scheduler"
    [("workers", toString s.workers), ("stats", stats.diagnostic)]

end Tasking
