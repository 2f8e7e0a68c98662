import Tasking.Serve

/-! # One thread of control

What a thread is about to do is its `Focus`; what waits for the code in focus to answer is a
stack of `Activation`s.  Programs nest without limit: a frame may drive a scheduler, whose
tasks unwind other tasks, whose cancelled frames drive the scheduler again.  The stack holds
all of that, so one step is always a simple thing and needs no recursion.

A `Config` is a thread between two steps, together with the state that it shares with other
threads.  `Config.step` makes one step.  A thread that waits for something stays as it is
until that holds; `Tasking.Pool` gives other threads their turns meanwhile.
-/

namespace Tasking

variable {V C : Type}

/-- What a thread is about to do. -/
inductive Focus (V C : Type) where
  /-- Run a program. -/
  | code (program : Program V C)
  /-- Resume the top frame of a running task; `after` is what follows the task's run. -/
  | trampoline (t : TaskId) (after : Focus V C)
  /-- Take the next ready task of a scheduler; `runs` tasks were run so far. -/
  | drain (s : SchedulerId) (runs : Nat) (next : Nat → Program V C)
  /-- Wait until something holds, for at most so many milliseconds if there is a limit. -/
  | waiting (condition : Until) (limit : Option Nat) (next : Program V C)
  /-- Run the oldest ready task of a scheduler, as its worker with the given index. -/
  | work (s : SchedulerId) (index : Nat)
  /-- Run a ready task on its own thread, which has the given index. -/
  | own (t : TaskId) (index : Nat)
  /-- Nothing. -/
  | rest

/-- What waits for an answer. -/
inductive Activation (V C : Type) where
  /-- The run of a task, for the frame it resumed. -/
  | frame (t : TaskId) (f : FrameId) (after : Focus V C)
  /-- An unwind, for a frame it cancelled; `doomed` are the frames still to cancel. -/
  | cancel (t : TaskId) (doomed : List FrameId) (target : FrameId) (value : V)
      (after : Focus V C)
  /-- A program that called for the answer. -/
  | call (next : Answer V → Program V C)
  /-- An open payload, to be closed before the answer goes on. -/
  | opened (x : ExclusiveId)

/-- A thread between two steps, and the state. -/
structure Config (V C : Type) where
  state : State V C
  focus : Focus V C
  stack : List (Activation V C)

namespace Config

/-- A thread that is about to run a program. -/
def start (st : State V C) (p : Program V C) : Config V C := ⟨st, .code p, []⟩

/-- Change the state. -/
@[inline] def mapState (c : Config V C) (f : State V C → State V C) : Config V C :=
  { c with state := f c.state }

/-- Change the state, unless that leads to a fault. -/
@[inline] def tryState (c : Config V C) (f : State V C → Attempt V C (State V C)) :
    Attempt V C (Config V C) :=
  match c with
  | ⟨st, focus, stack⟩ => do
    let st ← f st
    pure ⟨st, focus, stack⟩

/-- Go on with something else. -/
@[inline] def goTo (c : Config V C) (focus : Focus V C) : Config V C := { c with focus := focus }

/-- Let something wait for the answer of the code in focus. -/
@[inline] def push (c : Config V C) (activation : Activation V C) : Config V C :=
  { c with stack := activation :: c.stack }

/-- The answer of the program that the thread was started with, once it is there. -/
def answer? (c : Config V C) : Option (Answer V) :=
  match c.focus, c.stack with
  | .code (.answer a), [] => some a
  | _, _ => none

/-! ## Runs of tasks -/

/-- Resume a frame of a task; `activation` waits for its answer. -/
def resumeFrame (c : Config V C) (t : TaskId) (f : FrameId) (value : V)
    (error : Option (Error V)) (activation : Activation V C) :
    Attempt V C (Config V C) :=
  match c with
  | ⟨st, _, stack⟩ => do
    let (resumption, st) ← st.resume t f value error
    let c : Config V C := ⟨st, .code resumption.program, activation :: stack⟩
    match resumption.opened with
    | some x => pure (c.push (.opened x))
    | none => pure c

/-- Resume the top frame of a task with what it is to be resumed with. -/
def resumeTop [Inhabited V] (c : Config V C) (t : TaskId) (after : Focus V C) :
    Attempt V C (Config V C) := do
  let task ← c.state.task t
  match task.top with
  | none => c.state.fail (.noFrames t)
  | some f =>
    let c := c.mapState (·.modifyTask t fun task => { task with value := default, error := none })
    c.resumeFrame t f task.value task.error (.frame t f after)

/-- The run of a task is over: it suspended. -/
def suspendRun (c : Config V C) (t : TaskId) (after : Focus V C) :
    Attempt V C (Config V C) := do
  let c ← c.tryState fun st => (st.endRun t).park t
  pure (c.goTo after)

/-- The run of a task is over: its last frame finished. -/
def finishRun [Inhabited V] (c : Config V C) (t : TaskId) (result : Except (Error V) V)
    (after : Focus V C) : Attempt V C (Config V C) := do
  let c ← c.tryState fun st => (st.endRun t).finish t result
  pure (c.goTo after)

/-- Hand the result of a finished frame to its caller. -/
def returnTo (task : Task V) (caller : FrameId) : Except (Error V) V → Task V
  | .ok value => { task with top := some caller, value := value }
  | .error error => { task with top := some caller, error := some error }

/-- A frame finished: its caller is resumed with the result, or the task is at its end. -/
def finishFrame [Inhabited V] (c : Config V C) (t : TaskId) (f : FrameId)
    (result : Except (Error V) V) (after : Focus V C) : Attempt V C (Config V C) := do
  let task ← c.state.task t
  if task.top ≠ some f then c.state.fail .finishedBelowTop
  let frame ← c.state.frame f
  match frame.caller with
  | none =>
    (c.mapState (·.modifyTask t fun task => { task with top := none })).finishRun t result after
  | some caller =>
    let c := c.mapState (·.modifyTask t fun task => returnTo task caller result)
    pure (c.goTo (.trampoline t after))

/-! ## Unwinding -/

/-- Let a task go on at a frame with a value. -/
def landAt (st : State V C) (t : TaskId) (target : FrameId) (value : V) : State V C :=
  st.modifyTask t fun task => { task with top := some target, value := value, error := none }

/-- Cancel the next of the frames that an unwind skips, or go on at its target. -/
def cancelNext [Inhabited V] (c : Config V C) (t : TaskId) (doomed : List FrameId)
    (target : FrameId) (value : V) (after : Focus V C) : Attempt V C (Config V C) :=
  match doomed with
  | [] => pure ((c.mapState (landAt · t target value)).goTo after)
  | f :: rest =>
    c.resumeFrame t f default (some .cancelled) (.cancel t rest target value after)

/-- Cancel the frames of a task above a target, then go on at the target with a value. -/
def unwind [Inhabited V] (c : Config V C) (t : TaskId) (target : FrameId) (value : V)
    (after : Focus V C) : Attempt V C (Config V C) := do
  let task ← c.state.task t
  if task.life ≠ .init ∧ task.life ≠ .running then c.state.fail (.unwindWhile t task.life)
  match c.state.framesAbove task.top target with
  | some doomed => c.cancelNext t doomed target value after
  | none => c.state.fail .targetOffChain

/-- A frame answered with a jump.  A frame that jumps elsewhere without having put another
    frame on top is finished. -/
def jump [Inhabited V] (c : Config V C) (t : TaskId) (f target : FrameId) (value : V)
    (after : Focus V C) : Attempt V C (Config V C) := do
  let task ← c.state.task t
  let frame ← c.state.frame f
  let top := if task.top = some f ∧ f ≠ target then frame.caller else task.top
  let c := c.mapState (·.modifyTask t fun task => { task with top := top })
  let again : Focus V C := .trampoline t after
  if top = some target then
    pure ((c.mapState (landAt · t target value)).goTo again)
  else
    c.unwind t target value again

/-- Deal with the answer of the frame that a task's run resumed. -/
def takeAnswer [Inhabited V] (c : Config V C) (t : TaskId) (f : FrameId) (a : Answer V)
    (after : Focus V C) : Attempt V C (Config V C) :=
  match a with
  | .done value => c.finishFrame t f (.ok value) after
  | .throw error => c.finishFrame t f (.error error) after
  | .suspended => c.suspendRun t after
  | .jump target value => c.jump t f target value after

/-- Begin the run of a ready task. -/
def beginRun (c : Config V C) (t : TaskId) (w : Worker) (after : Focus V C) :
    Attempt V C (Config V C) := do
  let c ← c.tryState (·.beginRun t w)
  pure (c.goTo (.trampoline t after))

/-- Begin the run of the oldest ready task of a scheduler and go on with `after`, or go on with
    `otherwise` if no task is ready. -/
def runReady (c : Config V C) (s : SchedulerId) (w : Worker) (after otherwise : Focus V C) :
    Attempt V C (Config V C) :=
  match c with
  | ⟨st, focus, stack⟩ => do
    let (next?, st) ← st.takeReady s
    let c : Config V C := ⟨st, focus, stack⟩
    match next? with
    | some t => c.beginRun t w after
    | none => pure (c.goTo otherwise)

/-! ## Waiting -/

/-- Whether a condition to wait for holds.  A thread that drives a scheduler itself first runs
    all of its ready tasks. -/
def holds (st : State V C) : Until → Bool
  | .outcome t => (st.tasks.get? t).any fun task => task.outcome.isSome
  | .quiescent s => (st.schedulers.get? s).any fun scheduler =>
      scheduler.isQuiescent && (0 < scheduler.workers || scheduler.ready.isEmpty)
  | .stage t life s =>
      (st.tasks.get? t).any (fun task => task.life = life) &&
        (st.schedulers.get? s).any fun scheduler => scheduler.runnable ≤ 0

/-- The scheduler with something to run that a thread drives while it waits. -/
def driven? (st : State V C) : Until → Option SchedulerId
  | .quiescent s =>
    if (st.schedulers.get? s).any fun scheduler =>
        scheduler.workers = 0 && !scheduler.ready.isEmpty then
      some s
    else
      none
  | _ => none

/-- Go on if a condition holds, or run a task if the thread drives a scheduler meanwhile. -/
def keepWaiting (c : Config V C) (condition : Until) (next : Program V C) :
    Attempt V C (Config V C) :=
  if holds c.state condition then
    pure (c.goTo (.code next))
  else
    match driven? c.state condition with
    | some s =>
      let again := c.focus
      c.runReady s .embedded again again
    | none => pure c

/-- Whether a thread with this focus can only wait. -/
def mustWait (st : State V C) : Focus V C → Bool
  | .waiting condition _ _ => !holds st condition && (driven? st condition).isNone
  | _ => false

/-! ## Steps -/

/-- Deal with an answer: hand it to whatever waits for it. -/
def deliver [Inhabited V] (c : Config V C) (a : Answer V) : Attempt V C (Config V C) :=
  match c with
  | ⟨st, focus, []⟩ => pure ⟨st, focus, []⟩
  | ⟨st, focus, .frame t f after :: stack⟩ =>
    (⟨st, focus, stack⟩ : Config V C).takeAnswer t f a after
  | ⟨st, focus, .cancel t doomed target value after :: stack⟩ =>
    (⟨st, focus, stack⟩ : Config V C).cancelNext t doomed target value after
  | ⟨st, _, .call next :: stack⟩ => pure ⟨st, .code (next a), stack⟩
  | ⟨st, _, .opened x :: stack⟩ => pure ⟨st.closePayload x, .code (.answer a), stack⟩

/-- One step of a program. -/
def stepCode [Inhabited V] (c : Config V C) (p : Program V C) :
    Attempt V C (Config V C) :=
  match p with
  | .answer a => c.deliver a
  | .unwind t target value next => c.unwind t target value (.code next)
  | .drive s next => pure (c.goTo (.drain s 0 next))
  | .await condition limit next => pure (c.goTo (.waiting condition limit next))
  | .callNative g name context arguments next => do
    let registry ← c.state.registry g
    match registry.native name with
    | .error e => pure (c.goTo (.code (next (.error e))))
    | .ok native =>
      pure ((c.push (.call fun a => next (.ok a))).goTo (.code (native context arguments)))
  | .ask request next =>
    match c with
    | ⟨st, _, stack⟩ => do
      let (reply, st) ← st.serve request
      pure ⟨st, .code (next reply), stack⟩
  | .newFrame label body next =>
    match c with
    | ⟨st, _, stack⟩ =>
      let (f, st) := st.addFrame ⟨label, none, .host body⟩
      pure ⟨st, .code (next f), stack⟩
  | .newActor first handler next =>
    match c with
    | ⟨st, _, stack⟩ =>
      let (a, st) := st.addActor first handler
      pure ⟨st, .code (next a), stack⟩
  | .register g name native next =>
    match c with
    | ⟨st, _, stack⟩ => do
      let (reply, st) ← st.register g name native
      pure ⟨st, .code (next reply), stack⟩
  | .within x t inside next => do
    if ← c.state.mayOpen x t then
      let c := c.mapState (·.openPayload x)
      pure (((c.push (.call fun a => next (some a))).push (.opened x)).goTo (.code inside))
    else
      pure (c.goTo (.code (next none)))

/-- One step.  A thread whose program has answered, that rests, or that can only wait, stays as
    it is. -/
def step [Inhabited V] (c : Config V C) : Attempt V C (Config V C) :=
  match c.focus with
  | .code p => c.stepCode p
  | .trampoline t after => c.resumeTop t after
  | .drain s runs next => c.runReady s .embedded (.drain s (runs + 1) next) (.code (next runs))
  | .waiting condition _ next => c.keepWaiting condition next
  | .work s index => c.runReady s (.thread index) .rest .rest
  | .own t index => c.beginRun t (.thread index) .rest
  | .rest => pure c

end Config

end Tasking
