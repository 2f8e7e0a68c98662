import Tasking.Fault

/-! # Errors

An `Error` travels through a chain of frames like a value does: task code throws it,
catches it, or lets it pass.  A `HostError` answers the program that embeds the runtime.

Errors carry host values, of which the runtime knows nothing but how to show them:
that is what the class `Describe` is for.
-/

namespace Tasking

/-- Host values that can be shown in a diagnostic. -/
class Describe (V : Type) where
  describe : V → String

export Describe (describe)

/-- Blocking would have closed a cycle in the wait graph.  The path lists the tasks along
    the cycle, starting and ending with the one that asked. -/
structure Deadlock where
  requester : TaskId
  path : List TaskId
  deriving DecidableEq

/-- The wording of a refusal: the tasks along the cycle. -/
def Deadlock.message (d : Deadlock) : String :=
  "deadlock detected: " ++ " -> ".intercalate (d.path.map TaskId.text)

/-- What a frame can be resumed with in place of a value. -/
inductive Error (V : Type) where
  /-- Thrown by task code. -/
  | thrown (value : V)
  /-- A request to wait that was refused. -/
  | deadlock (refusal : Deadlock)
  /-- Given to the frames that an unwind skips, so that they can clean up. -/
  | cancelled
  deriving DecidableEq

namespace Error

variable {V : Type}

/-- Whether the error came from an unwind. -/
def isCancelled : Error V → Bool
  | cancelled => true
  | _ => false

/-- The value, if task code threw one. -/
def thrown? : Error V → Option V
  | thrown value => some value
  | _ => none

/-- The wording of an error. -/
def message [Describe V] : Error V → String
  | thrown value => "thrown " ++ describe value
  | deadlock refusal => refusal.message
  | cancelled => "frame cancelled by unwind"

end Error

/-- An error that no frame of a task caught. -/
structure Uncaught (V : Type) where
  task : TaskId
  error : Error V
  deriving DecidableEq

/-- The wording of an uncaught error, which names the task. -/
def Uncaught.message {V : Type} [Describe V] (u : Uncaught V) : String :=
  "task " ++ u.task.text ++ " failed: " ++ u.error.message

/-- How a task ended. -/
inductive Outcome (V : Type) where
  | done (value : V)
  | failed (failure : Uncaught V)
  deriving DecidableEq

namespace Outcome

variable {V : Type}

/-- Whether the task ended with a value. -/
def isDone : Outcome V → Bool
  | done _ => true
  | failed _ => false

/-- The value, if the task ended with one. -/
def value? : Outcome V → Option V
  | done value => some value
  | failed _ => none

end Outcome

/-- Why the runtime refuses a request of the program that embeds it. -/
inductive HostError where
  /-- A worker thread could not be started. -/
  | thread (reason : String)
  /-- The settings are not usable. -/
  | settings (reason : String)
  /-- The registry is closed. -/
  | registryClosed
  /-- A native function of this name exists already. -/
  | duplicateNative (name : String)
  /-- No native function has this name. -/
  | unknownNative (name : String)
  /-- The scheduler takes no new tasks. -/
  | shutDown
  deriving DecidableEq

/-- The wording of a refusal. -/
def HostError.message : HostError → String
  | .thread reason => "failed to spawn worker thread: " ++ reason
  | .settings reason => "config error: " ++ reason
  | .registryClosed => "registry is shut down"
  | .duplicateNative name => "native function `" ++ name ++ "` is already registered"
  | .unknownNative name => "unknown native function `" ++ name ++ "`"
  | .shutDown => "scheduler is shut down"

end Tasking
