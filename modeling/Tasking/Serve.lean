import Tasking.Resume

/-! # Serving requests

`State.serve` gives the reply to every request, with the state after it, or the fault the
request leads to.
-/

namespace Tasking.State

variable {V C : Type}

/-- Create a scheduler with its workers, if its settings are usable. -/
def addScheduler (st : State V C) (settings : Settings) (g : RegistryId) :
    Attempt V C (Except HostError SchedulerId × State V C) :=
  match settings.obstacle? st.parallelism with
  | some (.refused e) => pure (.error e, st)
  | some (.fault fault) => st.fail fault
  | none =>
    let scheduler := Scheduler.new settings g (settings.resolvedWorkers st.parallelism)
    pure (.ok st.schedulers.next, { st with schedulers := st.schedulers.add scheduler })

/-- Create a registry. -/
def addRegistry (st : State V C) : RegistryId × State V C :=
  (st.registries.next, { st with registries := st.registries.add .new })

/-- Give a name a symbol. -/
def intern (st : State V C) (g : RegistryId) (name : String) :
    Attempt V C (Except HostError Symbol × State V C) := do
  let registry ← st.registry g
  match registry.intern name with
  | .ok (symbol, registry) => pure (.ok symbol, st.modifyRegistry g fun _ => registry)
  | .error e => pure (.error e, st)

/-- Register a native function under a name. -/
def register (st : State V C) (g : RegistryId) (name : String) (native : Native V C) :
    Attempt V C (Except HostError Symbol × State V C) := do
  let registry ← st.registry g
  let (reply, registry) := registry.register name native
  pure (reply, st.modifyRegistry g fun _ => registry)

/-- The reply to a request and the state after it. -/
def serve [Inhabited V] (st : State V C) :
    (request : Request V C) → Attempt V C (request.Reply × State V C)
  | .spawn s entry => st.spawn s entry
  | .spawnBound s entry => st.spawnBound s entry
  | .start t => return ((), ← st.start t)
  | .ready t => return ((), ← st.ready t)
  | .yield t => return ((), ← st.yield t)
  | .waitExternal t => return ((), ← st.waitExternal t)
  | .pause t f => return ((), ← st.pause t f)
  | .move t target => st.move t target
  | .waitFor t child => st.waitFor t child
  | .task t => return (← st.task t, st)
  | .newGuard r body => return st.addGuard r body
  | .newJoin child => return st.addJoin child
  | .newMessage a message => st.addMessage a message
  | .attach f caller => return ((), ← st.attach f caller)
  | .frame f => return (← st.frameView f, st)
  | .newResource name => return st.addResource name
  | .tryAcquire r t => st.tryAcquire r t
  | .acquire r t => st.acquire r t
  | .release r t => return ((), ← st.release r t)
  | .resource r => return (← st.resource r, st)
  | .findCycle t target => return (st.findCycle t target, st)
  | .newExclusive r payload => return st.addExclusive r payload
  | .exclusive x => return (← st.exclusive x, st)
  | .setPayload x payload =>
    return ((), st.modifyExclusive x fun exclusive => { exclusive with payload := payload })
  | .actorState a => return ((← st.actor a).state, st)
  | .newRegistry => return st.addRegistry
  | .intern g name => st.intern g name
  | .lookup g name => return ((← st.registry g).lookup name, st)
  | .nameOf g symbol => return ((← st.registry g).nameOf symbol, st)
  | .findNative g name => return (((← st.registry g).native name).map fun _ => (), st)
  | .closeRegistry g => return ((), st.modifyRegistry g Registry.close)
  | .registry g => return ((← st.registry g).view, st)
  | .newScheduler settings g => st.addScheduler settings g
  | .scheduler s => return (← st.scheduler s, st)
  | .stats s => return (st.statsOf s (← st.scheduler s), st)
  | .stop s => return ((), ← st.stop s)
  | .thread => return (st.running, st)
  | .newCell content => return (st.cells.next, { st with cells := st.cells.add content })
  | .read i => return (← st.cell i, st)
  | .write i content =>
    return ((), { st with cells := st.cells.modify i fun _ => content })
  | .update i f => return ((), { st with cells := st.cells.modify i f })

end Tasking.State
