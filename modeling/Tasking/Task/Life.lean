/-! # The life of a task

A task is created in `init`, becomes `ready` when it is started, `running` while its
frames run, and `waiting` while it is parked on a resource, another task or an event
outside the scheduler.  It ends `done` or `failed` and then stays so.

```text
init --start--> ready --picked up--> running --finished-------> done
                  ^                     |  \---uncaught error--> failed
                  |                     |---suspended----------> waiting
                  +-------woken---------+---yielded------------> ready
```
-/

namespace Tasking

/-- The stages of a task's life. -/
inductive Life where
  | init | ready | running | waiting | done | failed
  deriving DecidableEq

namespace Life

/-- The name of a stage, as messages show it. -/
def name : Life → String
  | .init => "Init"
  | .ready => "Ready"
  | .running => "Running"
  | .waiting => "Waiting"
  | .done => "Done"
  | .failed => "Failed"

/-- A task that is done or failed has finished. -/
def isTerminal : Life → Bool
  | .done | .failed => true
  | _ => false

/-- Whether a task may go from the first stage directly to the second. -/
def canMove : Life → Life → Bool
  | .init, .ready => true
  | .ready, .running => true
  | .running, .waiting => true
  | .running, .ready => true
  | .running, .done => true
  | .running, .failed => true
  | .waiting, .ready => true
  | _, _ => false

/-- Nothing comes after the end. -/
theorem canMove_of_isTerminal {a b : Life} (h : a.isTerminal) : a.canMove b = false := by
  cases a <;> cases b <;> simp_all [isTerminal, canMove]

end Life

/-- A request to move a task between two stages that no edge joins. -/
structure IllegalMove where
  source : Life
  target : Life
  deriving DecidableEq

/-- The wording of a refused move. -/
def IllegalMove.message (m : IllegalMove) : String :=
  "illegal task transition " ++ m.source.name ++ " -> " ++ m.target.name

end Tasking
