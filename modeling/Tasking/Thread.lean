import Tasking.Settings

/-! # Threads

Code runs on the thread that embeds the runtime, or on a thread that a scheduler started:
one of its workers, or the thread of a bound task.  The threads of a scheduler are numbered
from zero, the workers first.

`Settings.threadObstacle?` says what keeps a thread from being started.
-/

namespace Tasking

/-- A thread. -/
inductive Thread where
  /-- The thread that embeds the runtime. -/
  | host
  /-- A thread that a scheduler started. -/
  | background (s : SchedulerId) (index : Nat)
  deriving DecidableEq

/-- What keeps a thread from being started. -/
inductive Obstacle where
  | refused (e : HostError)
  | fault (fault : Fault)
  deriving DecidableEq

namespace Settings

/-- The name of the thread with the given index. -/
def nameOfThread (s : Settings) (index : Nat) : String :=
  s.threadName ++ "-" ++ toString index

/-- The size of the page that guards a stack, in bytes. -/
def guardSize : Nat := 4096

/-- How many bytes of memory there are. -/
def memorySize : Nat := 32 * 1024 * 1024 * 1024

/-- The refusal of a stack of the given size, if it is refused: its size and that of the guard
    page must fit in a word, and both must fit in memory. -/
def stackRefusal? (size : Nat) : Option HostError :=
  if UInt64.size ≤ size + guardSize then
    some (.thread "Invalid argument (os error 22)")
  else if memorySize < size + guardSize then
    some (.thread "Resource temporarily unavailable (os error 11)")
  else
    none

/-- What keeps the thread with the given index from being started, if anything does: first its
    name, then the size of its stack. -/
def threadObstacle? (s : Settings) (index : Nat) : Option Obstacle :=
  let name := s.nameOfThread index
  if '\x00' ∈ name.toList then
    some (.fault (.nulInThreadName name))
  else
    (s.stackSize.bind stackRefusal?).map .refused

/-- What keeps a scheduler with these settings from being created, if anything does: the
    settings are refused, or its first worker cannot be started. -/
def obstacle? (s : Settings) (parallelism : Nat) : Option Obstacle :=
  match s.validate with
  | .error e => some (.refused e)
  | .ok s => if 0 < s.resolvedWorkers parallelism then s.threadObstacle? 0 else none

end Settings

end Tasking
