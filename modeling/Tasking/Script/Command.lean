import Tasking.Script.Datum
import Tasking.Task.Life

/-! # The session language

A session exercises the runtime from outside: it creates tasks, wakes them, drives
schedulers and looks at everything there is to see.  What the tasks do is written in the
same language, as frames made of steps made of actions.

An `Operation` acts on things that have names already.  A `Command` is an operation, or
one of the few that build frames or native functions first.  Every command can be given by
the host and by running code alike.

Names stand for the latest thing that got them.  For running code, `self` is the running task
or frame, and `caller` is the caller of the running frame; for the host these are names like
any other.  Schedulers are named by their position.
-/

namespace Tasking.Script

/-- What `cycle` supposes a task to wait for. -/
inductive Target where
  | resource (name : String)
  | task (t : String)
  | external
  deriving DecidableEq

/-- Operations on things that have names. -/
inductive Operation where
  | start (t : String)
  | ready (t : String)
  | yield (t : String)
  | waitExternal (t : String)
  | transition (t : String) (target : Life)
  | waitFor (t child : String)
  | inspect (t : String)
  | state (t : String)
  | value (t : String)
  | outcome (t : String)
  | worker (t : String)
  /-- Get the outcome of a task, waiting for it for at most so many milliseconds if there is a
      limit. -/
  | join (t : String) (limit : Option Nat)
  /-- Wait for a while until a task is in a stage and nothing runs. -/
  | await (t : String) (life : Life) (s : Nat)
  | acquire (r : String) (t : String)
  | tryAcquire (r : String) (t : String)
  | owned (r : String) (t : String)
  | release (r : String) (t : String)
  | resource (r : String)
  | same (a b : String)
  /-- Add to a payload. -/
  | within (r : String) (t : String) (amount : Int64)
  /-- Open a payload while it is open. -/
  | withinNested (r : String) (t : String)
  /-- Add to the state of an actor. -/
  | withState (a : String) (t : String) (amount : Int64)
  | cellDebug (r : String)
  | actorDebug (a : String)
  | cycle (t : String) (target : Target)
  | wouldDeadlock (t : String) (r : String)
  | forgetFrame (name : String)
  | intern (s : Nat) (name : String)
  | lookup (s : Nat) (name : String)
  | nameOf (s : Nat) (name : String)
  | hasNative (s : Nat) (name : String)
  | registry (s : Nat)
  | closeRegistry (s : Nat)
  | runUntilEmpty (s : Nat)
  | embedded (s : Nat)
  | stats (s : Nat)
  | schedulerInfo (s : Nat)
  | waitQuiescent (s : Nat)
  | shutdown (s : Nat)
  | drop (s : Nat)
  deriving DecidableEq

/-- How an operation is spelled. -/
def Operation.name : Operation → String
  | start _ => "start"
  | ready _ => "ready"
  | yield _ => "yield"
  | waitExternal _ => "wait_external"
  | transition _ _ => "transition"
  | waitFor _ _ => "wait_for"
  | inspect _ => "inspect"
  | state _ => "state"
  | value _ => "value"
  | outcome _ => "outcome"
  | worker _ => "worker"
  | join _ _ => "join"
  | await _ _ _ => "await"
  | acquire _ _ => "acquire"
  | tryAcquire _ _ => "try_acquire"
  | owned _ _ => "owned"
  | release _ _ => "release"
  | resource _ => "res"
  | same _ _ => "same"
  | within _ _ _ => "with"
  | withinNested _ _ => "with_nested"
  | withState _ _ _ => "with_state"
  | cellDebug _ => "cell_debug"
  | actorDebug _ => "actor_debug"
  | cycle _ _ => "cycle"
  | wouldDeadlock _ _ => "would_deadlock"
  | forgetFrame _ => "forget_frame"
  | intern _ _ => "intern"
  | lookup _ _ => "lookup"
  | nameOf _ _ => "name_of"
  | hasNative _ _ => "has_native"
  | registry _ => "registry"
  | closeRegistry _ => "close_registry"
  | runUntilEmpty _ => "run_until_empty"
  | embedded _ => "embedded"
  | stats _ => "stats"
  | schedulerInfo _ => "sched_info"
  | waitQuiescent _ => "wait_quiescent"
  | shutdown _ => "shutdown"
  | drop _ => "drop"

/-- The kinds of errors that code can tell apart. -/
inductive ErrorKind where
  | thrown | deadlock | cancelled | any
  deriving DecidableEq

/-- Whether an error is of a kind. -/
def ErrorKind.includes {V : Type} : ErrorKind → Error V → Bool
  | .any, _ => true
  | .thrown, .thrown _ => true
  | .deadlock, .deadlock _ => true
  | .cancelled, .cancelled => true
  | _, _ => false

mutual

/-- Expressions for frames. -/
inductive FrameExpr where
  /-- The frame that a name stands for. -/
  | named (name : String)
  /-- A new frame that runs one step at each resume without an error, and `onError` at each
      resume with one.  A quiet frame does not report its resumes. -/
  | script (label : String) (quiet : Bool) (steps : List (List Action))
      (onError : List Action)
  /-- A new guard around a body. -/
  | acquire (r : String) (body : FrameExpr)
  /-- A new frame that waits for a task. -/
  | join (t : String)
  /-- A new frame that sends a message to an actor. -/
  | send (a : String) (message : Datum)
  /-- A new frame that calls a newly built frame a number of times. -/
  | again (times : Nat) (frame : FrameExpr)
  /-- A new frame that calls one like itself, down to a leaf. -/
  | nest (depth : Nat) (leaf : FrameExpr)

/-- What running code does, one thing at a time.  Values left out stand for the value
    register. -/
inductive Action where
  | set (value : Datum)
  | add (amount : Int64)
  /-- Forget the error. -/
  | clear
  | log (value : Datum)
  | showRegisters
  /-- Choose the step that the next resume runs. -/
  | goto (step : Nat)
  /-- Like `goto`, but only until there were `limit` jumps to that step. -/
  | gotoTimes (step limit : Nat)
  | ifEq (value : Datum) (actions : List Action)
  | ifError (kind : ErrorKind) (actions : List Action)
  | done (value : Option Datum)
  | throw (value : Option Datum)
  | cancel
  | forward
  | suspend
  | jump (frame : FrameExpr) (value : Option Datum)
  | call (frame : FrameExpr) (value : Option Datum)
  | continueIn (frame : FrameExpr)
  | native (name : String) (arguments : List Datum)
  /-- Take a resource, or wait for it. -/
  | claim (r : String)
  /-- Get the value of a task, or wait for it. -/
  | wait (t : String)
  | isTop
  | thread
  | stateAdd (amount : Int64)
  | stateAddValue
  | stateSet (n : Int64)
  | stateGet
  | perform (command : Command)

/-- What the host does, and running code too. -/
inductive Command where
  | spawn (t : String) (entry : FrameExpr) (s : Nat)
  | run (t : String) (entry : FrameExpr) (s : Nat)
  | spawnBound (t : String) (entry : FrameExpr) (s : Nat)
  | pause (t : String) (frame : FrameExpr)
  | unwind (t : String) (target : FrameExpr) (value : Datum)
  /-- Store a frame under a name. -/
  | frame (name : String) (frame : FrameExpr)
  | attach (frame : FrameExpr) (caller : Option FrameExpr)
  | frameInfo (frame : FrameExpr)
  | register (s : Nat) (name : String) (actions : List Action)
  | operation (op : Operation)

end

/-- How a command is spelled. -/
def Command.name : Command → String
  | spawn _ _ _ => "spawn"
  | run _ _ _ => "run"
  | spawnBound _ _ _ => "spawn_bound"
  | pause _ _ => "pause"
  | unwind _ _ _ => "unwind"
  | frame _ _ => "frame"
  | attach _ _ => "attach"
  | frameInfo _ => "frame_info"
  | register _ _ _ => "register"
  | operation op => op.name

end Tasking.Script
