import Tasking.Frame
import Tasking.Registry
import Tasking.Resource
import Tasking.Scheduler

/-! # Programs

Everything that code outside the runtime does, whether it is the code of a frame, a native
function, the handler of an actor, or the program that embeds the runtime, is a
`Program`: a tree of requests.  A program either answers, or makes a request and goes on
with the reply.

A `Request` is served at once, without running any other code.  The remaining
constructors of `Program` are those that create code or run code: an unwind resumes the
frames it cancels, driving a scheduler runs its tasks, calling a native function runs
that function.

`V` is the type of host values and `C` the type of what the host keeps in memory cells.
Nothing is assumed about either: a theorem about all programs is a theorem about all code
a host could write.
-/

namespace Tasking

/-- A request that is served without running other code. -/
inductive Request (V C : Type) where
  /-- Create a task that will begin at a frame. -/
  | spawn (s : SchedulerId) (entry : FrameId)
  /-- Create and start a task that has a thread to itself. -/
  | spawnBound (s : SchedulerId) (entry : FrameId)
  /-- Make a new task ready. -/
  | start (t : TaskId)
  /-- Wake a parked task, or one that is about to park. -/
  | ready (t : TaskId)
  /-- Ask to run again after the tasks that are ready now. -/
  | yield (t : TaskId)
  /-- Announce that the task waits for an event outside the scheduler. -/
  | waitExternal (t : TaskId)
  /-- Make a frame the top of the task's chain. -/
  | pause (t : TaskId) (f : FrameId)
  /-- Move a task along an edge of its life cycle. -/
  | move (t : TaskId) (target : Life)
  /-- Get the outcome of another task, or wait for it. -/
  | waitFor (t child : TaskId)
  /-- Look at a task. -/
  | task (t : TaskId)
  /-- Create a guard that runs a body while its task owns a resource. -/
  | newGuard (r : ResourceId) (body : FrameId)
  /-- Create a frame that waits for a task and finishes as that task did. -/
  | newJoin (child : TaskId)
  /-- Create a frame that delivers a message to an actor. -/
  | newMessage (a : ActorId) (message : V)
  /-- Set the caller of a frame. -/
  | attach (f : FrameId) (caller : Option FrameId)
  /-- Look at a frame. -/
  | frame (f : FrameId)
  /-- Create a resource. -/
  | newResource (name : Option String)
  /-- Take a resource if it is free. -/
  | tryAcquire (r : ResourceId) (t : TaskId)
  /-- Take a resource, or queue for it. -/
  | acquire (r : ResourceId) (t : TaskId)
  /-- Give up a resource. -/
  | release (r : ResourceId) (t : TaskId)
  /-- Look at a resource. -/
  | resource (r : ResourceId)
  /-- Look for a cycle that waiting for a target would close. -/
  | findCycle (t : TaskId) (target : WaitTarget)
  /-- Put a payload behind a resource. -/
  | newExclusive (r : ResourceId) (payload : V)
  /-- Look at a payload. -/
  | exclusive (x : ExclusiveId)
  /-- Replace a payload. -/
  | setPayload (x : ExclusiveId) (payload : V)
  /-- The payload that holds an actor's state. -/
  | actorState (a : ActorId)
  /-- Create a registry. -/
  | newRegistry
  /-- Give a name a symbol. -/
  | intern (g : RegistryId) (name : String)
  /-- Look up the symbol of a name. -/
  | lookup (g : RegistryId) (name : String)
  /-- Look up the name of a symbol. -/
  | nameOf (g : RegistryId) (symbol : Symbol)
  /-- Ask whether a native function has a name. -/
  | findNative (g : RegistryId) (name : String)
  /-- Close a registry. -/
  | closeRegistry (g : RegistryId)
  /-- Look at a registry. -/
  | registry (g : RegistryId)
  /-- Create a scheduler. -/
  | newScheduler (settings : Settings) (g : RegistryId)
  /-- Look at a scheduler. -/
  | scheduler (s : SchedulerId)
  /-- Look at a scheduler's counters. -/
  | stats (s : SchedulerId)
  /-- Take no more tasks, and drop those that are ready. -/
  | stop (s : SchedulerId)
  /-- Ask which thread is running. -/
  | thread
  /-- Create a memory cell. -/
  | newCell (content : C)
  /-- Read a memory cell. -/
  | read (i : CellId)
  /-- Write a memory cell. -/
  | write (i : CellId) (content : C)
  /-- Change what a memory cell holds, with nothing in between. -/
  | update (i : CellId) (f : C → C)

/-- The type of the reply to a request. -/
@[reducible] def Request.Reply {V C : Type} : Request V C → Type
  | spawn _ _ | spawnBound _ _ => Except HostError TaskId
  | move _ _ => Except IllegalMove Life
  | waitFor _ _ => Except Deadlock (Option (Outcome V))
  | task _ => Task V
  | newGuard _ _ | newJoin _ | newMessage _ _ => FrameId
  | frame _ => Frame.View
  | newResource _ => ResourceId
  | tryAcquire _ _ => Bool
  | acquire _ _ => Except Deadlock Grant
  | resource _ => Resource
  | findCycle _ _ => Option (List TaskId)
  | newExclusive _ _ | actorState _ => ExclusiveId
  | exclusive _ => Exclusive V
  | newRegistry => RegistryId
  | intern _ _ => Except HostError Symbol
  | lookup _ _ => Except HostError (Option Symbol)
  | nameOf _ _ => Except HostError (Option String)
  | findNative _ _ => Except HostError Unit
  | registry _ => Registry.View
  | newScheduler _ _ => Except HostError SchedulerId
  | scheduler _ => Scheduler
  | stats _ => Stats
  | thread => Thread
  | newCell _ => CellId
  | read _ => C
  | start _ | ready _ | yield _ | waitExternal _ | pause _ _ | attach _ _ | release _ _
  | setPayload _ _ | closeRegistry _ | stop _ | write _ _ | update _ _ => Unit

/-- What a thread can wait for while other threads run. -/
inductive Until where
  /-- Until the task has an outcome. -/
  | outcome (t : TaskId)
  /-- Until the scheduler is quiescent.  A scheduler without workers is driven meanwhile. -/
  | quiescent (s : SchedulerId)
  /-- Until the task is in a stage and nothing of the scheduler is runnable. -/
  | stage (t : TaskId) (life : Life) (s : SchedulerId)
  deriving DecidableEq

/-- Code as a tree of requests. -/
inductive Program (V C : Type) where
  /-- Finish with an answer. -/
  | answer (a : Answer V)
  /-- Make a request and go on with the reply. -/
  | ask (request : Request V C) (next : request.Reply → Program V C)
  /-- Create a frame with code of its own. -/
  | newFrame (label : String) (body : Context → V → Option (Error V) → Program V C)
      (next : FrameId → Program V C)
  /-- Create an actor from its first state and its handler. -/
  | newActor (state : V) (handler : Context → ExclusiveId → V → Program V C)
      (next : ActorId → Program V C)
  /-- Register a native function under a name. -/
  | register (g : RegistryId) (name : String) (native : Context → List V → Program V C)
      (next : Except HostError Symbol → Program V C)
  /-- Call a native function on behalf of a frame. -/
  | callNative (g : RegistryId) (name : String) (context : Context) (arguments : List V)
      (next : Except HostError (Answer V) → Program V C)
  /-- Cancel the frames above `target` and go on there with a value. -/
  | unwind (t : TaskId) (target : FrameId) (value : V) (next : Program V C)
  /-- Run the ready tasks of a scheduler until there is none; the reply counts the runs. -/
  | drive (s : SchedulerId) (next : Nat → Program V C)
  /-- Run code with a payload open, if the task owns the payload's resource. -/
  | within (x : ExclusiveId) (t : TaskId) (inside : Program V C)
      (next : Option (Answer V) → Program V C)
  /-- Let other threads run until something holds, for at most so many milliseconds if there is a
      limit. -/
  | await (condition : Until) (limit : Option Nat) (next : Program V C)

/-- The code of a frame. -/
abbrev Body (V C : Type) := Context → V → Option (Error V) → Program V C

/-- The code of an actor, run on each message, with the payload that holds the actor's state. -/
abbrev Handler (V C : Type) := Context → ExclusiveId → V → Program V C

/-- A native function. -/
abbrev Native (V C : Type) := Context → List V → Program V C

/-! ## Writing programs

`Code V C α` is a piece of a program that delivers an `α` to the rest of it.  A piece may
also answer on its own, and then the rest is not run. -/

/-- A piece of a program, given as what it does with the rest. -/
def Code (V C α : Type) := (α → Program V C) → Program V C

namespace Code

variable {V C α : Type}

instance : Monad (Code V C) where
  pure a := fun next => next a
  bind piece f := fun next => piece fun a => f a next

/-- Make a request. -/
def ask (request : Request V C) : Code V C request.Reply := Program.ask request

/-- Finish here. -/
def answer (a : Answer V) : Code V C α := fun _ => Program.answer a

/-- A whole program from a piece that delivers its answer. -/
def program (piece : Code V C (Answer V)) : Program V C := piece Program.answer

/-- Create a frame with code of its own. -/
def newFrame (label : String) (body : Body V C) : Code V C FrameId := Program.newFrame label body

/-- Create an actor. -/
def newActor (state : V) (handler : Handler V C) : Code V C ActorId :=
  Program.newActor state handler

/-- Register a native function. -/
def register (g : RegistryId) (name : String) (native : Native V C) :
    Code V C (Except HostError Symbol) := Program.register g name native

/-- Call a native function. -/
def callNative (g : RegistryId) (name : String) (context : Context) (arguments : List V) :
    Code V C (Except HostError (Answer V)) := Program.callNative g name context arguments

/-- Cancel the frames above a target. -/
def unwind (t : TaskId) (target : FrameId) (value : V) : Code V C Unit :=
  fun next => Program.unwind t target value (next ())

/-- Run the ready tasks of a scheduler. -/
def drive (s : SchedulerId) : Code V C Nat := Program.drive s

/-- Run code with a payload open. -/
def within (x : ExclusiveId) (t : TaskId) (inside : Program V C) :
    Code V C (Option (Answer V)) := Program.within x t inside

/-- Let other threads run until something holds, for at most so many milliseconds if there is a
    limit. -/
def await (condition : Until) (limit : Option Nat) : Code V C Unit :=
  fun next => Program.await condition limit (next ())

/-! ### What frames do -/

/-- Call another frame: it becomes the top of the chain, with the calling frame as its
    caller, and the calling frame is resumed with its result. -/
def call (context : Context) (callee : FrameId) (value : V) : Code V C α := do
  ask (.attach callee (some context.frame))
  ask (.pause context.task callee)
  answer (.jump callee value)

/-- Put another frame in the place of the running one: it returns to the same caller. -/
def continueIn (context : Context) (next : FrameId) : Code V C Unit := do
  let view ← ask (.frame context.frame)
  ask (.attach next view.caller)
  ask (.pause context.task next)

/-! ### What hosts do -/

/-- Create a task and make it ready. -/
def run (s : SchedulerId) (entry : FrameId) : Code V C (Except HostError TaskId) := do
  match ← ask (.spawn s entry) with
  | .ok t =>
    ask (.start t)
    pure (.ok t)
  | .error e => pure (.error e)

/-- Wait until a scheduler is quiescent, then stop it. -/
def shutdown (s : SchedulerId) : Code V C Unit := do
  await (.quiescent s) none
  ask (.stop s)

/-- Shut a scheduler down unless that was done before. -/
def drop (s : SchedulerId) : Code V C Unit := do
  let scheduler ← ask (.scheduler s)
  if scheduler.isShutDown then pure () else shutdown s

end Code

end Tasking
