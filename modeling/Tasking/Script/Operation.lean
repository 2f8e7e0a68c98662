import Tasking.Script.Scene

/-! # The meaning of operations

`Operation.perform` is the program that an operation stands for, up to the result that it
delivers.  Most operations are one request; the others look twice, or wait.
-/

namespace Tasking.Script

open Code (ask)

/-- Report a refusal, or go on. -/
def Result.ofRefusable {α : Type} (f : α → Result) : Except HostError α → Result
  | .ok a => f a
  | .error e => .refused e

namespace Operation

/-- For how many milliseconds a task may take to come to a stage. -/
def patience : Nat := 5000

/-- Whether a task is in a stage and its scheduler runs nothing. -/
def hasCome (t : TaskId) (life : Life) (s : SchedulerId) : Piece Bool := do
  let task ← ask (.task t)
  let stats ← ask (.stats s)
  return task.life = life && stats.runnable = 0

/-- Add to a payload, if the task may open it. -/
def addWithin (x : ExclusiveId) (t : TaskId) (amount : Int64) : Piece Result := do
  let inside := Code.program do
    let exclusive ← ask (.exclusive x)
    let payload := exclusive.payload.plus amount
    ask (.setPayload x payload)
    return .done payload
  match ← Code.within x t inside with
  | some (.done payload) => return .payload (some payload)
  | _ => return .payload none

/-- Open a payload within a use of it. -/
def openTwice (x : ExclusiveId) (t : TaskId) : Piece Result := do
  let inside := Code.program do
    let _ ← Code.within x t (.answer (.done .unit))
    return .done .unit
  let _ ← Code.within x t inside
  return .payload none

/-- Drive a scheduler that has no workers; whether waiting for quiescence would then end. -/
def settle (s : SchedulerId) : Piece Bool := do
  let scheduler ← ask (.scheduler s)
  if scheduler.workers = 0 then
    let _ ← Code.drive s
    return (← ask (.stats s)).isQuiescent
  else
    return true

/-- Do something that waits for a scheduler to be quiescent, unless that would never end. -/
def onceSettled (s : SchedulerId) (act : Piece Unit) : Piece Result := do
  if ← settle s then
    act
    return .nothing
  else
    return .wouldBlock

/-- Get the outcome of a task.  Waiting for a finished one has no limit. -/
def joinTask (t : TaskId) (limit : Option Nat) : Piece Result := do
  let task ← ask (.task t)
  Code.await (.outcome t) (if task.isFinished then none else limit)
  return .outcome (← ask (.task t)).outcome

/-- What `cycle` supposes a task to wait for. -/
def target (scene : Scene) (site : Site) : Target → Piece WaitTarget
  | .resource name => return .resource (scene.resource name)
  | .task t => return .task (← scene.task site t)
  | .external => return .external

/-- Carry an operation out. -/
def perform (scene : Scene) (site : Site) : Operation → Piece Result
  | .start t => do
    ask (.start (← scene.task site t))
    return .nothing
  | .ready t => do
    ask (.ready (← scene.task site t))
    return .nothing
  | .yield t => do
    ask (.yield (← scene.task site t))
    return .nothing
  | .waitExternal t => do
    ask (.waitExternal (← scene.task site t))
    return .nothing
  | .transition t life => do
    match ← ask (.move (← scene.task site t) life) with
    | .ok source => return .moved source
    | .error m => return .illegal m
  | .waitFor t child => do
    let t ← scene.task site t
    let child ← scene.task site child
    match ← ask (.waitFor t child) with
    | .ok result => return .found result
    | .error refusal => return .deadlock refusal
  | .inspect t => do return .task (← Scene.taskView (← scene.task site t))
  | .state t => do return .life (← ask (.task (← scene.task site t))).life
  | .value t => do return .value (← ask (.task (← scene.task site t))).value
  | .outcome t => do return .outcome (← ask (.task (← scene.task site t))).outcome
  | .worker t => do return .worker (← ask (.task (← scene.task site t))).worker
  | .join t limit => do joinTask (← scene.task site t) limit
  | .await t life s => do
    let t ← scene.task site t
    let s := scene.scheduler s
    scene.whileUsing s do
      Code.await (.stage t life s) (some patience)
      return .flag (← hasCome t life s)
  | .acquire r t => do
    match ← ask (.acquire (scene.resource r) (← scene.task site t)) with
    | .ok grant => return .grant grant
    | .error refusal => return .deadlock refusal
  | .tryAcquire r t => do
    return .flag (← ask (.tryAcquire (scene.resource r) (← scene.task site t)))
  | .owned r t => do
    let t ← scene.task site t
    let resource ← ask (.resource (scene.resource r))
    return .flag (resource.owner = some t)
  | .release r t => do
    ask (.release (scene.resource r) (← scene.task site t))
    return .nothing
  | .resource r => do
    return .resource (scene.resource r) (← ask (.resource (scene.resource r)))
  | .same a b => return .flag (scene.resource a = scene.resource b)
  | .within r t amount => do addWithin (scene.payload r) (← scene.task site t) amount
  | .withinNested r t => do openTwice (scene.payload r) (← scene.task site t)
  | .withState a t amount => do
    addWithin (← ask (.actorState (scene.actor a))) (← scene.task site t) amount
  | .cellDebug r => do
    let resource ← ask (.resource (scene.resource r))
    return .diagnostic (Exclusive.diagnostic resource (scene.resource r))
  | .actorDebug a => do
    let state ← ask (.exclusive (← ask (.actorState (scene.actor a))))
    let resource ← ask (.resource state.resource)
    return .diagnostic (Actor.diagnostic resource state.resource)
  | .cycle t goal => do
    let t ← scene.task site t
    return .path (← ask (.findCycle t (← target scene site goal)))
  | .wouldDeadlock t r => do
    let path ← ask (.findCycle (← scene.task site t) (.resource (scene.resource r)))
    return .flag path.isSome
  | .forgetFrame name => do
    scene.forgetFrame name
    return .nothing
  | .intern s name => do
    let reply ← ask (.intern (scene.registry s) name)
    if let .ok symbol := reply then scene.storeSymbol name symbol
    return .ofRefusable (fun symbol => .symbol (some symbol)) reply
  | .lookup s name => return .ofRefusable .symbol (← ask (.lookup (scene.registry s) name))
  | .nameOf s name => do
    let symbol ← scene.symbol name
    return .ofRefusable .name (← ask (.nameOf (scene.registry s) symbol))
  | .hasNative s name =>
    return .ofRefusable (fun _ => .flag true) (← ask (.findNative (scene.registry s) name))
  | .registry s => return .registry (← ask (.registry (scene.registry s)))
  | .closeRegistry s => do
    ask (.closeRegistry (scene.registry s))
    return .nothing
  | .runUntilEmpty s => do
    let s := scene.scheduler s
    return .runs (← scene.whileUsing s (Code.drive s))
  | .embedded s => do
    let s := scene.scheduler s
    return .embedded (← scene.whileUsing s (Code.drive s))
  | .stats s => do
    let scheduler ← ask (.scheduler (scene.scheduler s))
    let stats ← ask (.stats (scene.scheduler s))
    return .load ⟨stats, scheduler.workers, scheduler.isShutDown⟩
  | .schedulerInfo s => do
    let scheduler ← ask (.scheduler (scene.scheduler s))
    return .scheduler scheduler (← ask (.stats (scene.scheduler s)))
  | .waitQuiescent s => do
    let s := scene.scheduler s
    scene.whileUsing s (onceSettled s (Code.await (.quiescent s) none))
  | .shutdown s => do
    let s := scene.scheduler s
    scene.whileUsing s (onceSettled s (Code.shutdown s))
  | .drop s => do
    scene.drop (scene.scheduler s)
    return .nothing

end Operation

end Tasking.Script
