import Tasking.Error
import Tasking.Text.Quoted
import Tasking.Text.Record

/-! # Frames

A frame is a resumable piece of task code.  It is resumed with a value or an error and
answers what is to happen next; whoever it called or whatever woke it comes back as its
next resume.  A frame points to its caller, and a task's frames form the chain from its
top frame downwards.

The code of a frame is either written by the host, or one of three ready-made kinds: the
guard that runs a body while its task owns a resource, the delivery of a message to an
actor, and the join that waits for another task.
-/

namespace Tasking

/-- What a frame answers to a resume. -/
inductive Answer (V : Type) where
  /-- The frame is finished; its caller goes on with the value. -/
  | done (value : V)
  /-- The frame is finished; its caller is resumed with the error. -/
  | throw (error : Error V)
  /-- The task arranged to be woken and stops running. -/
  | suspended
  /-- Go on at another frame of the chain. -/
  | jump (target : FrameId) (value : V)

/-- Pass on whatever came in: the error, if there is one. -/
def Answer.forward {V : Type} (value : V) : Option (Error V) → Answer V
  | some error => .throw error
  | none => .done value

/-- Which frame runs, and for which task. -/
structure Context where
  task : TaskId
  frame : FrameId
  deriving DecidableEq

/-- How far a guard has come. -/
inductive Phase (V : Type) where
  /-- Not resumed yet. -/
  | start (body : FrameId)
  /-- Parked in the wait queue, holding the value meant for the body. -/
  | waiting (body : FrameId) (value : V)
  /-- The task owns the resource and the body was called. -/
  | held
  /-- Nothing is held any more. -/
  | released

/-- The code of a frame.  `B` is the type of what the host writes. -/
inductive Frame.Code (V B : Type) where
  | host (body : B)
  | guard (resource : ResourceId) (phase : Phase V)
  | message (actor : ActorId) (message : V) (delivered : Bool)
  | join (child : TaskId) (parked : Bool)

/-- A frame, and where it returns to. -/
structure Frame (V B : Type) where
  label : String
  caller : Option FrameId
  code : Frame.Code V B

/-- What can be seen of a frame: its label, its caller, and how many frames there are from
    it down to the root. -/
structure Frame.View where
  label : String
  caller : Option FrameId
  depth : Nat
  deriving DecidableEq

/-- A frame in diagnostics. -/
def Frame.View.diagnostic (view : Frame.View) : String :=
  Text.record "Frame"
    [("label", Text.quoted view.label), ("has_caller", Text.flag view.caller.isSome)]

end Tasking
