import Tasking.WaitGraph

/-! # Joining tasks

A task that finished keeps its outcome.  A task that waits for another one that has not
finished is entered among its joiners, which are woken in the order in which they asked.
-/

namespace Tasking.State

variable {V C : Type}

/-- Get the outcome of a task, or wait for it: without an outcome and without a refusal the
    waiting task must suspend. -/
def waitFor (st : State V C) (t child : TaskId) :
    Attempt V C (Except Deadlock (Option (Outcome V)) × State V C) := do
  let awaited ← st.task child
  let _ ← st.task t
  match awaited.outcome with
  | some outcome => pure (.ok (some outcome), st)
  | none =>
    match st.refusal? t (.task child) with
    | some refusal => pure (.error refusal, st)
    | none =>
      let st := st.announceWait t (.task child)
      pure (.ok none, st.modifyTask child fun task =>
        { task with joiners := task.joiners.push t })

end Tasking.State
