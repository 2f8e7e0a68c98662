import Tasking.Chain
import Tasking.Joining
import Tasking.Ownership

/-! # Resuming frames

Resuming a frame runs its code.  The code of the ready-made frames, guards and joins, is
served at once; the code the host wrote, and the handler of an actor, is a program still
to be run.

A guard asks for its resource when it is first resumed, parks if somebody else owns it,
calls its body once it owns it, and gives the resource up as soon as the body comes back,
with a value or with an error.  An error that arrives before the guard asked passes
through.
-/

namespace Tasking

variable {V C : Type}

/-- What is to be run when a frame is resumed: a program, and the payload that is open while
    it runs. -/
structure Resumption (V C : Type) where
  program : Program V C
  opened : Option ExclusiveId

namespace State

/-- Replace the code of a frame. -/
def setCode (st : State V C) (f : FrameId) (code : Frame.Code V (Body V C)) : State V C :=
  st.modifyFrame f fun frame => { frame with code := code }

/-- Call a frame from another: it becomes the top of the chain with the other as its caller. -/
def callFrame (st : State V C) (t : TaskId) (f callee : FrameId) (value : V) :
    Attempt V C (Answer V × State V C) := do
  let st ← st.attach callee (some f)
  let st ← st.pause t callee
  pure (.jump callee value, st)

/-- Create a guard that runs a body while its task owns a resource. -/
def addGuard (st : State V C) (r : ResourceId) (body : FrameId) : FrameId × State V C :=
  st.addFrame ⟨"scoped-acquire", none, .guard r (.start body)⟩

/-- Create a frame that waits for a task and finishes as that task did. -/
def addJoin (st : State V C) (child : TaskId) : FrameId × State V C :=
  st.addFrame ⟨"join", none, .join child false⟩

/-- Create a guard on an actor's resource whose body delivers a message. -/
def addMessage (st : State V C) (a : ActorId) (message : V) :
    Attempt V C (FrameId × State V C) := do
  let actor ← st.actor a
  let state ← st.exclusive actor.state
  let (body, st) := st.addFrame ⟨"actor-message", none, .message a message false⟩
  pure (st.addGuard state.resource body)

/-- Whether a task may open a payload: it must own the resource, and then nobody may have the
    payload open. -/
def mayOpen (st : State V C) (x : ExclusiveId) (t : TaskId) : Attempt V C Bool := do
  let exclusive ← st.exclusive x
  if st.owns t exclusive.resource then
    if exclusive.inUse then st.fail .reentrantAccess
    pure true
  else
    pure false

/-- Open a payload. -/
def openPayload (st : State V C) (x : ExclusiveId) : State V C :=
  st.modifyExclusive x fun exclusive => { exclusive with inUse := true }

/-- Close a payload. -/
def closePayload (st : State V C) (x : ExclusiveId) : State V C :=
  st.modifyExclusive x fun exclusive => { exclusive with inUse := false }

/-- Resume a guard.  Until it is clear what comes of it, the guard counts as one that has let
    go. -/
def resumeGuard (st : State V C) (t : TaskId) (f : FrameId) (r : ResourceId)
    (phase : Phase V) (value : V) (error : Option (Error V)) :
    Attempt V C (Answer V × State V C) :=
  let st := st.setCode f (.guard r .released)
  match phase with
  | .start body =>
    match error with
    | some error => pure (.throw error, st)
    | none => do
      let (granted, st) ← st.acquire r t
      match granted with
      | .ok .acquired => (st.setCode f (.guard r .held)).callFrame t f body value
      | .ok .blocked => pure (.suspended, st.setCode f (.guard r (.waiting body value)))
      | .error refusal => pure (.throw (.deadlock refusal), st)
  | .waiting body kept => do
    if error.isSome then st.fail .errorWhileParked
    if st.owns t r = false then st.fail .wokenWithoutOwnership
    (st.setCode f (.guard r .held)).callFrame t f body kept
  | .held => do
    let st ← st.release r t
    pure (.forward value error, st)
  | .released => st.fail .resumedAfterRelease

/-- The answer of a frame that finishes as a task did. -/
def answerOf : Outcome V → Answer V
  | .done value => .done value
  | .failed failure => .throw failure.error

/-- Resume a join. -/
def resumeJoin (st : State V C) (t : TaskId) (f : FrameId) (child : TaskId)
    (parked : Bool) (error : Option (Error V)) : Attempt V C (Answer V × State V C) :=
  match error with
  | some error => pure (.throw error, st)
  | none => do
    if parked then
      let awaited ← st.task child
      match awaited.outcome with
      | some outcome => pure (answerOf outcome, st)
      | none => st.fail .joinedTooEarly
    else
      let (reply, st) ← st.waitFor t child
      match reply with
      | .ok (some outcome) => pure (answerOf outcome, st)
      | .ok none => pure (.suspended, st.setCode f (.join child true))
      | .error refusal => pure (.throw (.deadlock refusal), st)

/-- Resume the delivery of a message.  Later resumes bring the result of whatever the handler
    called. -/
def resumeMessage (st : State V C) (t : TaskId) (f : FrameId) (a : ActorId) (message : V)
    (delivered : Bool) (value : V) (error : Option (Error V)) :
    Attempt V C (Resumption V C × State V C) := do
  if delivered then
    pure (⟨.answer (.forward value error), none⟩, st)
  else
    let st := st.setCode f (.message a message true)
    match error with
    | some error => pure (⟨.answer (.throw error), none⟩, st)
    | none =>
      let actor ← st.actor a
      if ← st.mayOpen actor.state t then
        let resumption := ⟨actor.handler ⟨t, f⟩ actor.state message, some actor.state⟩
        pure (resumption, st.openPayload actor.state)
      else
        st.fail .handlerWithoutOwnership

/-- Resume a frame of a task with a value or an error. -/
def resume (st : State V C) (t : TaskId) (f : FrameId) (value : V)
    (error : Option (Error V)) : Attempt V C (Resumption V C × State V C) := do
  let frame ← st.frame f
  match frame.code with
  | .host body => pure (⟨body ⟨t, f⟩ value error, none⟩, st)
  | .guard r phase =>
    let (answer, st) ← st.resumeGuard t f r phase value error
    pure (⟨.answer answer, none⟩, st)
  | .join child parked =>
    let (answer, st) ← st.resumeJoin t f child parked error
    pure (⟨.answer answer, none⟩, st)
  | .message a message delivered => st.resumeMessage t f a message delivered value error

end State

end Tasking
