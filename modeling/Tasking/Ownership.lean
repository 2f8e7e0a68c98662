import Tasking.WaitGraph
import Tasking.Waking

/-! # Owning resources

A free resource goes to whoever asks.  A task that asks for a resource in use announces
what it waits for and queues; when the owner gives the resource up, it goes straight to
the task that has waited longest, which is woken as its owner.  A resource is thus never
free while somebody waits for it.
-/

namespace Tasking.State

variable {V C : Type}

/-- Make a task the owner of a resource. -/
def setOwner (st : State V C) (r : ResourceId) (owner : Option TaskId) : State V C :=
  st.modifyResource r fun resource => { resource with owner := owner }

/-- Take a resource if it is free. -/
def tryAcquire (st : State V C) (r : ResourceId) (t : TaskId) :
    Attempt V C (Bool × State V C) := do
  let resource ← st.resource r
  let _ ← st.task t
  if resource.owner.isNone then
    pure (true, st.setOwner r (some t))
  else
    pure (false, st)

/-- Put a task at the end of a wait queue. -/
def joinQueue (st : State V C) (r : ResourceId) (t : TaskId) :
    Attempt V C (State V C) := do
  let st ← st.claimLink t
  pure (st.modifyResource r fun resource =>
    { resource with waiters := resource.waiters.push t })

/-- Take a resource, or queue for it.  A request that would close a cycle in the wait graph
    is refused and changes nothing. -/
def acquire (st : State V C) (r : ResourceId) (t : TaskId) :
    Attempt V C (Except Deadlock Grant × State V C) := do
  let (taken, st) ← st.tryAcquire r t
  if taken then
    pure (.ok .acquired, st)
  else
    match st.refusal? t (.resource r) with
    | some refusal => pure (.error refusal, st)
    | none =>
      let st ← (st.announceWait t (.resource r)).joinQueue r t
      pure (.ok .blocked, st)

/-- Give up a resource that the task owns.  The longest waiter, if any, becomes its owner and
    is woken. -/
def release (st : State V C) (r : ResourceId) (t : TaskId) : Attempt V C (State V C) := do
  let resource ← st.resource r
  if resource.owner ≠ some t then st.fail (.foreignRelease t r resource.owner)
  match resource.waiters.pop? with
  | none => pure (st.setOwner r none)
  | some (next, rest) =>
    let st := st.modifyResource r fun resource =>
      { resource with owner := some next, waiters := rest }
    (st.dropLink next).ready next

/-- Whether a task owns a resource. -/
def owns (st : State V C) (t : TaskId) (r : ResourceId) : Bool :=
  (st.resources.get? r).any fun resource => resource.owner = some t

end Tasking.State
