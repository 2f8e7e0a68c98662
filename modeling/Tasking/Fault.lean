import Tasking.Table
import Tasking.Task.Life
import Tasking.Text.Quoted

/-! # Faults

A fault means that the runtime's own bookkeeping can no longer be trusted: a task was
moved against its life cycle, a frame answered out of turn, a counter went below zero.
Faults are neither values nor errors of task code.  The thread that meets one does nothing
more, and leaves behind what it had done up to then.

`Fault.message` gives each cause its wording.
-/

namespace Tasking

/-- How a task is shown: `#` and its number. -/
def TaskId.text (t : TaskId) : String := "#" ++ toString t.number

/-- How a resource is shown: `@` and its number. -/
def ResourceId.text (r : ResourceId) : String := "@" ++ toString r.number

/-- Tasks in the order of their numbers. -/
def TaskId.sorted (ts : List TaskId) : List TaskId := ts.mergeSort fun a b => a.number ≤ b.number

/-- A task's number in diagnostics. -/
def TaskId.diagnostic (t : TaskId) : String := "TaskId(" ++ toString t.number ++ ")"

/-- A resource's number in diagnostics. -/
def ResourceId.diagnostic (r : ResourceId) : String :=
  "ResourceId(" ++ toString r.number ++ ")"

/-- The counters that every scheduler keeps. -/
inductive Counter where
  | tasks | runnable | external
  deriving DecidableEq

/-- The name of a counter in messages. -/
def Counter.name : Counter → String
  | .tasks => "tasks"
  | .runnable => "runnable"
  | .external => "waiting_external"

/-- The ways in which bookkeeping breaks. -/
inductive Fault where
  /-- An integer was added to a word that holds a pointer. -/
  | addToPointer
  /-- A thing that is in a queue was put into a queue. -/
  | alreadyLinked
  /-- A task left its life cycle. -/
  | wrongMove (task : TaskId) (source target actual : Life)
  /-- A task that is neither parked nor running was woken. -/
  | wokenWhile (task : TaskId) (life : Life)
  /-- A task that does not run waits for an external event. -/
  | externalWhile (task : TaskId) (life : Life)
  /-- A task that does not run yields. -/
  | yieldWhileIdle (task : TaskId)
  /-- A task was unwound in a stage that has no frames to unwind safely. -/
  | unwindWhile (task : TaskId) (life : Life)
  /-- The frame to unwind to is not below the task's top frame. -/
  | targetOffChain
  /-- A frame finished that is not the task's top frame. -/
  | finishedBelowTop
  /-- A task was parked that does not run. -/
  | parkedWhile (task : TaskId) (life : Life)
  /-- A task suspended with nothing that could wake it. -/
  | nothingAwaited (task : TaskId)
  /-- A task's last frame finished while the task does not run. -/
  | finishedWhile (task : TaskId) (life : Life)
  /-- A running task has no frame. -/
  | noFrames (task : TaskId)
  /-- A frame was made its own caller, directly or through others. -/
  | attachedBelowItself
  /-- A resource was released by a task that does not own it. -/
  | foreignRelease (task : TaskId) (resource : ResourceId) (owner : Option TaskId)
  /-- A parked guard was resumed with an error. -/
  | errorWhileParked
  /-- A parked guard was resumed before its task owned the resource. -/
  | wokenWithoutOwnership
  /-- A guard was resumed after it had let go. -/
  | resumedAfterRelease
  /-- A payload was opened while it was open. -/
  | reentrantAccess
  /-- A message was delivered to a task that does not own the actor. -/
  | handlerWithoutOwnership
  /-- A joining frame was resumed before the joined task had finished. -/
  | joinedTooEarly
  /-- A counter dropped below zero. -/
  | negativeCount (counter : Counter)
  /-- A thread was given a name with a NUL character in it. -/
  | nulInThreadName (name : String)
  /-- An environment variable cannot be set. -/
  | badVariable (name value reason : String)
  /-- Something was named by a number that was never given out. -/
  | unknown (kind : Kind) (number : Nat)
  deriving DecidableEq

namespace Fault

/-- The complaint about a text with a NUL character: where its first one is among the bytes of
    the text, and those bytes. -/
def nulComplaint (text : String) : String :=
  let bytes := text.toUTF8.data.toList
  "NulError(" ++ toString (bytes.idxOf 0) ++ ", [" ++
    ", ".intercalate (bytes.map fun byte => toString byte.toNat) ++ "])"

/-- The wording of each cause. -/
def reason : Fault → String
  | addToPointer => "fetch_add on a pointer cell"
  | alreadyLinked => "queue node is already linked"
  | wrongMove task source target actual =>
      "task " ++ task.text ++ " cannot go " ++ source.name ++ " -> " ++ target.name ++
        " (state is " ++ actual.name ++ ")"
  | wokenWhile task life => "task " ++ task.text ++ " woken while " ++ life.name
  | externalWhile task life =>
      "task " ++ task.text ++ " waits on an external event while " ++ life.name
  | yieldWhileIdle task => "task " ++ task.text ++ " yields while not running"
  | unwindWhile task life => "unwinding task " ++ task.text ++ " while " ++ life.name
  | targetOffChain => "unwind target is not on the task's frame chain"
  | finishedBelowTop => "finished frame is not on top of its task's chain"
  | parkedWhile task life => "parking task " ++ task.text ++ " while " ++ life.name
  | nothingAwaited task =>
      "task " ++ task.text ++ " suspended without anything to wait for"
  | finishedWhile task life => "task " ++ task.text ++ " finished while " ++ life.name
  | noFrames task => "running task " ++ task.text ++ " has no frames"
  | attachedBelowItself => "attaching a frame below itself"
  | foreignRelease task resource owner =>
      "task " ++ task.text ++ " released resource " ++ resource.text ++ " owned by " ++
        (match owner with
          | some t => "Some(" ++ t.diagnostic ++ ")"
          | none => "None")
  | errorWhileParked => "error delivered to a task parked on a resource"
  | wokenWithoutOwnership => "woken without ownership of the awaited resource"
  | resumedAfterRelease => "scoped acquisition resumed after release"
  | reentrantAccess => "reentrant access to an exclusive payload"
  | handlerWithoutOwnership => "actor handler ran without owning its state"
  | joinedTooEarly => "join resumed before the child finished"
  | negativeCount counter => counter.name ++ " counter went negative"
  | nulInThreadName name =>
      "thread name may not contain interior null bytes: " ++ nulComplaint name
  | badVariable name value reason =>
      "failed to set environment variable `" ++ Text.quotedStrictly name ++ "` to `" ++
        Text.quotedStrictly value ++ "`: " ++ reason
  | unknown kind number => "there is no " ++ kind.name ++ " " ++ toString number

/-- A reason as it is announced. -/
def announce (reason : String) : String := "invariant violation: " ++ reason

/-- The announced wording of a fault.  Complaints about a text that the system does not take stand
    as they are. -/
def message (f : Fault) : String :=
  match f with
  | nulInThreadName _ | badVariable _ _ _ => f.reason
  | _ => announce f.reason

end Fault

end Tasking
