import Tasking.Script.World

/-! # Names in a session

A `Scene` holds the names that are fixed once the session is set up, a `Site` says where
code runs.  Both are needed to find out what a name stands for.  A name that stands for
nothing leads to the number zero, which nothing has.
-/

namespace Tasking.Script

/-- A part of a script's program. -/
abbrev Piece (α : Type) := Code Datum Memory α

/-- A payload behind a resource, under the name of either. -/
structure Place where
  name : String
  resource : ResourceId
  payload : ExclusiveId
  deriving DecidableEq

/-- The names that are fixed for a session. -/
structure Scene where
  /-- The cell with the names that are not fixed. -/
  world : CellId
  /-- The resources, then the resources of the actors. -/
  places : List Place
  actors : List (String × ActorId)
  /-- The schedulers, each with its registry. -/
  schedulers : List (SchedulerId × RegistryId)
  deriving DecidableEq

/-- Where code runs. -/
structure Site where
  /-- The running task and frame; the host has none. -/
  context : Option Context
  /-- The registers of the running script frame. -/
  progress : Option CellId
  /-- The state of the actor whose handler runs. -/
  state : Option ExclusiveId
  deriving DecidableEq

namespace Site

/-- The host. -/
def host : Site := ⟨none, none, none⟩

/-- Code that runs for a frame. -/
def within (context : Context) : Site := ⟨some context, none, none⟩

/-- The running task and frame, or numbers that nothing has. -/
def here (site : Site) : Context := site.context.getD ⟨⟨0⟩, ⟨0⟩⟩

end Site

namespace Scene

/-- The world of the session. -/
def getWorld (scene : Scene) : Piece World := do
  return (← Code.ask (.read scene.world)).toWorld

/-- Change the world. -/
def modifyWorld (scene : Scene) (f : World → World) : Piece Unit :=
  Code.ask (.update scene.world fun content => .world (f content.toWorld))

/-- Report an event. -/
def report (scene : Scene) (e : Event) : Piece Unit := scene.modifyWorld (·.report e)

/-- The place with a name. -/
def place (scene : Scene) (name : String) : Place :=
  (scene.places.find? (·.name = name)).getD ⟨name, ⟨0⟩, ⟨0⟩⟩

/-- The resource with a name. -/
def resource (scene : Scene) (name : String) : ResourceId := (scene.place name).resource

/-- The payload with a name. -/
def payload (scene : Scene) (name : String) : ExclusiveId := (scene.place name).payload

/-- The actor with a name. -/
def actor (scene : Scene) (name : String) : ActorId :=
  (scene.actors.lookup name).getD ⟨0⟩

/-- The scheduler at a position. -/
def scheduler (scene : Scene) (s : Nat) : SchedulerId :=
  (scene.schedulers[s]?.map (·.1)).getD ⟨0⟩

/-- The registry of the scheduler at a position. -/
def registry (scene : Scene) (s : Nat) : RegistryId :=
  (scene.schedulers[s]?.map (·.2)).getD ⟨0⟩

/-- The task that was given a name. -/
def namedTask (scene : Scene) (name : String) : Piece TaskId := do
  return ((← scene.getWorld).tasks.lookup name).getD ⟨0⟩

/-- The task that a name stands for. -/
def task (scene : Scene) (site : Site) (name : String) : Piece TaskId :=
  match site.context with
  | some here => if name = "self" then pure here.task else scene.namedTask name
  | none => scene.namedTask name

/-- The frame stored under a name. -/
def storedFrame (scene : Scene) (name : String) : Piece FrameId := do
  return ((← scene.getWorld).frames.lookup name).getD ⟨0⟩

/-- The caller of the running frame; one without a caller leaves the name `caller` free. -/
def caller (scene : Scene) (here : Context) : Piece FrameId := do
  match (← Code.ask (.frame here.frame)).caller with
  | some caller => return caller
  | none => scene.storedFrame "caller"

/-- The frame that a name stands for. -/
def frame (scene : Scene) (site : Site) (name : String) : Piece FrameId :=
  match site.context with
  | some here =>
    if name = "self" then pure here.frame
    else if name = "caller" then scene.caller here
    else scene.storedFrame name
  | none => scene.storedFrame name

/-- The latest symbol of a name. -/
def symbol (scene : Scene) (name : String) : Piece Symbol := do
  return ((← scene.getWorld).symbols.lookup name).getD ⟨0⟩

/-- Give a task a name. -/
def nameTask (scene : Scene) (name : String) (t : TaskId) : Piece Unit :=
  scene.modifyWorld fun w => { w with tasks := (name, t) :: w.tasks }

/-- Store a frame under a name. -/
def storeFrame (scene : Scene) (name : String) (f : FrameId) : Piece Unit :=
  scene.modifyWorld fun w => { w with frames := (name, f) :: w.frames }

/-- Forget the frame stored under a name. -/
def forgetFrame (scene : Scene) (name : String) : Piece Unit :=
  scene.modifyWorld fun w => { w with frames := w.frames.filter (·.1 ≠ name) }

/-- Remember the symbol that a name got. -/
def storeSymbol (scene : Scene) (name : String) (symbol : Symbol) : Piece Unit :=
  scene.modifyWorld fun w => { w with symbols := (name, symbol) :: w.symbols }

/-- Shut a scheduler down if it was dropped and nobody uses it any more. -/
def retire (scene : Scene) (s : SchedulerId) : Piece Unit := do
  if (← scene.getWorld).isAbandoned s then Code.drop s

/-- Use a scheduler.  One that is dropped meanwhile is shut down after its last use. -/
def whileUsing {α : Type} (scene : Scene) (s : SchedulerId) (act : Piece α) : Piece α := do
  scene.modifyWorld (·.use s)
  let a ← act
  scene.modifyWorld (·.letGo s)
  scene.retire s
  return a

/-- Drop a scheduler, unless that was done before. -/
def drop (scene : Scene) (s : SchedulerId) : Piece Unit := do
  if !(← scene.getWorld).dropped.contains s then
    scene.modifyWorld (·.drop s)
    scene.retire s

/-- What can be seen of a task. -/
def taskView (t : TaskId) : Piece TaskView := do
  let task ← Code.ask (.task t)
  match task.top with
  | none => return ⟨t, task, none⟩
  | some f => return ⟨t, task, some (← Code.ask (.frame f))⟩

/-- What a snapshot says of the tasks. -/
def taskLines : List (String × TaskId) → Piece (List TaskLine)
  | [] => pure []
  | (name, t) :: rest => do
    let task ← Code.ask (.task t)
    return ⟨name, t, task.life, task.waiting⟩ :: (← taskLines rest)

/-- What a snapshot says of the resources. -/
def resourceLines : List Place → Piece (List ResourceLine)
  | [] => pure []
  | place :: rest => do
    let resource ← Code.ask (.resource place.resource)
    return ⟨place.name, resource.owner, resource.waiters.length⟩ :: (← resourceLines rest)

/-- What a snapshot says of the schedulers. -/
def statsLines (dropped : List SchedulerId) :
    List (SchedulerId × RegistryId) → Piece (List (Option Stats))
  | [] => pure []
  | (s, _) :: rest => do
    let line ← if s ∈ dropped then pure none else some <$> Code.ask (.stats s)
    return line :: (← statsLines dropped rest)

/-- The runtime at this moment. -/
def snapshot (scene : Scene) : Piece Snapshot := do
  let w ← scene.getWorld
  let tasks ← taskLines w.tasks.reverse
  let resources ← resourceLines scene.places
  let stats ← statsLines w.dropped scene.schedulers
  return ⟨tasks, resources, stats⟩

end Scene

end Tasking.Script
