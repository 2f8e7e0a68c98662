import Tasking.Pool
import Tasking.Script.Meaning

/-! # Sessions

A session sets up schedulers, resources and actors, and then gives commands one after the
other.  `Session.run` is what is written down about it.  A scheduler that cannot be created
keeps the session from starting; a fault on the host's thread ends it, with an entry of its
own for the command that led to it.
-/

namespace Tasking.Script

open Code (ask)

/-- A scheduler to set up. -/
structure SchedulerSpec where
  settings : Settings
  /-- The position of an earlier scheduler whose registry is shared. -/
  sharedWith : Option Nat
  deriving DecidableEq

/-- A resource to set up, with a payload behind it. -/
structure ResourceSpec where
  key : String
  name : Option String
  payload : Int64
  deriving DecidableEq

/-- An actor to set up. -/
structure ActorSpec where
  key : String
  state : Int64
  handler : List Action

/-- A session. -/
structure Session where
  schedulers : List SchedulerSpec
  resources : List ResourceSpec
  actors : List ActorSpec
  commands : List Command
  /-- Whether a snapshot is taken after each command. -/
  snapshots : Bool

namespace Session

/-! ## What everything will be numbered -/

/-- The registries of the schedulers.  New ones are numbered in order. -/
def registries (specs : List SchedulerSpec) : List RegistryId :=
  specs.foldl (fun ids spec =>
    let fresh : RegistryId := ⟨(ids.map Id.number).foldl max 0 + 1⟩
    ids ++ [(spec.sharedWith.bind fun k => ids[k]?).getD fresh]) []

/-- The payload created at a position, with its resource. -/
def placeAt (key : String) (position : Nat) : Place := ⟨key, ⟨position + 1⟩, ⟨position + 1⟩⟩

/-- The keys of the resources and the actors, in the order of their creation. -/
def keys (session : Session) : List String :=
  session.resources.map ResourceSpec.key ++ session.actors.map ActorSpec.key

/-- The names of the session. -/
def scene (session : Session) : Scene where
  world := ⟨1⟩
  places := session.keys.mapIdx fun i key => placeAt key i
  actors := session.actors.mapIdx fun i actor => (actor.key, ⟨i + 1⟩)
  schedulers :=
    (registries session.schedulers).mapIdx fun i registry => (⟨i + 1⟩, registry)

/-! ## The program of the host -/

/-- Create schedulers, and the registries that they do not share. -/
def setUpSchedulers : List (SchedulerSpec × RegistryId) → Piece Unit
  | [] => pure ()
  | (spec, registry) :: rest => do
    if spec.sharedWith.isNone then
      let _ ← ask .newRegistry
    let _ ← ask (.newScheduler spec.settings registry)
    setUpSchedulers rest

/-- Create resources with their payloads. -/
def setUpResources : List ResourceSpec → Piece Unit
  | [] => pure ()
  | spec :: rest => do
    let r ← ask (.newResource spec.name)
    let _ ← ask (.newExclusive r (.int spec.payload))
    setUpResources rest

/-- Create actors. -/
def setUpActors (scene : Scene) : List ActorSpec → Piece Unit
  | [] => pure ()
  | spec :: rest => do
    let _ ← Code.newActor (.int spec.state) (handlerOf scene (runAll scene spec.handler))
    setUpActors scene rest

/-- Create everything that exists before the first command. -/
def setUp (session : Session) : Piece Unit := do
  let scene := session.scene
  let _ ← ask (.newCell (.world .empty))
  setUpSchedulers (session.schedulers.zip (registries session.schedulers))
  setUpResources session.resources
  setUpActors scene session.actors

/-- Give commands in order, and write down what comes of each. -/
def perform (scene : Scene) (snapshots : Bool) : List Command → Piece Unit
  | [] => pure ()
  | command :: rest => do
    let result ← command.perform scene .host
    let snapshot ← if snapshots then some <$> scene.snapshot else pure none
    scene.modifyWorld (·.close result snapshot)
    perform scene snapshots rest

/-- The program of the host. -/
def program (session : Session) : Program Datum Memory := Code.program do
  session.setUp
  perform session.scene session.snapshots session.commands
  return .done .unit

/-! ## Running a session -/

/-- What keeps the first scheduler that cannot be created from being created. -/
def obstacle? (session : Session) : Option Obstacle :=
  session.schedulers.findSome? fun spec => spec.settings.obstacle? 1

/-- More steps than a session makes that comes to an end. -/
def stepLimit : Nat := 1000000000000000

/-- The world that a host keeps in its memory. -/
def worldOf (session : Session) (memory : Table .cell Memory) : World :=
  match memory.get? session.scene.world with
  | some content => content.toWorld
  | none => .empty

/-- Everything written down about a session, from what its threads came to. -/
def entries (session : Session) (verdict : Verdict Datum Memory) : List Entry :=
  let w := session.worldOf verdict.state.cells
  match verdict with
  | .faulted fault _ => (.faulted fault w.events.reverse :: w.entries).reverse
  | _ => w.entries.reverse

/-- What comes of a session. -/
inductive Report where
  /-- The session did not start. -/
  | prevented (obstacle : Obstacle)
  | kept (entries : List Entry)

/-- Run a session. -/
def run (session : Session) : Report :=
  match session.obstacle? with
  | some obstacle => .prevented obstacle
  | none => .kept (session.entries (Pool.run stepLimit (.start (.initial 1) session.program)))

end Session

end Tasking.Script
