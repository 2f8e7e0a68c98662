import Tasking.Program

/-! # The state of the runtime

All tables together.  The accessors below look a thing up by its number or report that
nothing has that number; the `modify` functions change one thing and are no-ops for
unused numbers, so they are applied after a look-up.

What may meet a fault is an `Attempt`: it delivers its result or ends in a `Crash`, which
keeps what was done up to the fault.
-/

namespace Tasking

/-- Everything the runtime remembers. -/
structure State (V C : Type) where
  tasks : Table .task (Task V)
  frames : Table .frame (Frame V (Body V C))
  resources : Table .resource Resource
  exclusives : Table .exclusive (Exclusive V)
  actors : Table .actor (Actor (Handler V C))
  schedulers : Table .scheduler Scheduler
  registries : Table .registry (Registry (Native V C))
  cells : Table .cell C
  /-- How many threads the machine runs at once. -/
  parallelism : Nat
  /-- The thread that is running. -/
  running : Thread

/-- A fault, and the state in which it left the runtime. -/
structure Crash (V C : Type) where
  fault : Fault
  state : State V C

/-- What delivers a result unless it meets a fault. -/
abbrev Attempt (V C α : Type) := Except (Crash V C) α

namespace State

variable {V C : Type}

/-- Nothing exists yet. -/
def initial (parallelism : Nat) : State V C where
  tasks := .empty
  frames := .empty
  resources := .empty
  exclusives := .empty
  actors := .empty
  schedulers := .empty
  registries := .empty
  cells := .empty
  parallelism := parallelism
  running := .host

/-- A fault met in this state. -/
def fail {α : Type} (st : State V C) (fault : Fault) : Attempt V C α := .error ⟨fault, st⟩

/-- What a table has under a number. -/
def find {kind : Kind} {α : Type} (st : State V C) (table : Table kind α) (i : Id kind) :
    Attempt V C α :=
  match table.get? i with
  | some a => .ok a
  | none => st.fail (.unknown kind i.number)

def task (st : State V C) (t : TaskId) : Attempt V C (Task V) := st.find st.tasks t
def frame (st : State V C) (f : FrameId) : Attempt V C (Frame V (Body V C)) :=
  st.find st.frames f
def resource (st : State V C) (r : ResourceId) : Attempt V C Resource :=
  st.find st.resources r
def exclusive (st : State V C) (x : ExclusiveId) : Attempt V C (Exclusive V) :=
  st.find st.exclusives x
def actor (st : State V C) (a : ActorId) : Attempt V C (Actor (Handler V C)) :=
  st.find st.actors a
def scheduler (st : State V C) (s : SchedulerId) : Attempt V C Scheduler :=
  st.find st.schedulers s
def registry (st : State V C) (g : RegistryId) : Attempt V C (Registry (Native V C)) :=
  st.find st.registries g
def cell (st : State V C) (i : CellId) : Attempt V C C := st.find st.cells i

def modifyTask (st : State V C) (t : TaskId) (f : Task V → Task V) : State V C :=
  { st with tasks := st.tasks.modify t f }

def modifyFrame (st : State V C) (i : FrameId)
    (f : Frame V (Body V C) → Frame V (Body V C)) : State V C :=
  { st with frames := st.frames.modify i f }

def modifyResource (st : State V C) (r : ResourceId) (f : Resource → Resource) :
    State V C :=
  { st with resources := st.resources.modify r f }

def modifyExclusive (st : State V C) (x : ExclusiveId)
    (f : Exclusive V → Exclusive V) : State V C :=
  { st with exclusives := st.exclusives.modify x f }

def modifyScheduler (st : State V C) (s : SchedulerId) (f : Scheduler → Scheduler) :
    State V C :=
  { st with schedulers := st.schedulers.modify s f }

def modifyRegistry (st : State V C) (g : RegistryId)
    (f : Registry (Native V C) → Registry (Native V C)) : State V C :=
  { st with registries := st.registries.modify g f }

/-- Create a frame; its number is the next one of the table. -/
def addFrame (st : State V C) (frame : Frame V (Body V C)) : FrameId × State V C :=
  (st.frames.next, { st with frames := st.frames.add frame })

/-- Create a resource. -/
def addResource (st : State V C) (name : Option String) : ResourceId × State V C :=
  (st.resources.next, { st with resources := st.resources.add (.new name) })

/-- Put a payload behind a resource. -/
def addExclusive (st : State V C) (r : ResourceId) (payload : V) :
    ExclusiveId × State V C :=
  (st.exclusives.next, { st with exclusives := st.exclusives.add (.new r payload) })

/-- Create an actor, with a resource of its own. -/
def addActor (st : State V C) (first : V) (handler : Handler V C) : ActorId × State V C :=
  let (r, st) := st.addResource none
  let (x, st) := st.addExclusive r first
  (st.actors.next, { st with actors := st.actors.add ⟨x, handler⟩ })

/-- Change a counter of a scheduler.  A counter that drops below zero is a fault. -/
def adjust (st : State V C) (s : SchedulerId) (c : Counter) (change : Int) :
    Attempt V C (State V C) := do
  let scheduler ← st.scheduler s
  let n := scheduler.count c + change
  let st := st.modifyScheduler s (·.withCount c n)
  if n < 0 then st.fail (.negativeCount c)
  pure st

/-- The unfinished task of a scheduler with the given number. -/
def listedTask? (st : State V C) (s : SchedulerId) (t : TaskId) : Option (Task V) :=
  (st.tasks.get? t).filter fun task => task.listed && task.scheduler = s

/-- How many tasks of a scheduler are parked on a resource or on another task. -/
def blockedCount (st : State V C) (s : SchedulerId) : Nat :=
  st.tasks.entries.foldl
    (fun n task => if task.listed && task.scheduler = s && task.isBlocked then n + 1 else n) 0

/-- The counters of a scheduler. -/
def statsOf (st : State V C) (s : SchedulerId) (scheduler : Scheduler) : Stats where
  tasks := scheduler.tasks.toNat
  runnable := scheduler.runnable.toNat
  external := scheduler.external.toNat
  blocked := st.blockedCount s
  ready := scheduler.ready.length

end State

end Tasking
