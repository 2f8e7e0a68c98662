import Tasking.Script.Operation

/-! # The meaning of frames, actions and commands

`FrameExpr.build` creates the frame that an expression stands for, `Action.run` does what
an action says, and `Command.perform` carries a command out.  They need each other: a
command builds frames, a frame runs actions, and an action may give a command.  The
recursion follows the text of the session, which is finite although what it describes may
run for ever.

Running code goes from one action to the next with two registers.  An action that answers
the resume ends the code at once.
-/

namespace Tasking.Script

open Code (ask)

/-- What one action leaves to the next. -/
structure Registers where
  value : Datum
  error : Option (Error Datum)

/-- Actions in a row: what they do with the registers at a site. -/
abbrev Step := Site → Registers → Piece Registers

/-! ## Frames from their parts -/

/-- Create a frame that runs one step at each resume. -/
def newScript (scene : Scene) (label : String) (quiet : Bool) (steps : List Step)
    (onError : Step) : Piece FrameId := do
  let cell ← ask (.newCell (.progress .initial))
  Code.newFrame label fun context value error => Code.program do
    if !quiet then scene.report (.resumed label context.task value error)
    let site : Site := ⟨some context, some cell, none⟩
    let registers : Registers := ⟨value, error⟩
    let registers ←
      if error.isSome then
        onError site registers
      else do
        let progress := (← ask (.read cell)).toProgress
        ask (.write cell (.progress { progress with next := progress.next + 1 }))
        match steps[progress.next]? with
        | some step => step site registers
        | none => pure registers
    return .forward registers.value registers.error

/-- Create a frame that calls a newly built frame with unit at each of its first resumes, and
    then finishes with what the last call delivered. -/
def newAgain (times : Nat) (build : Site → Piece FrameId) : Piece FrameId := do
  let cell ← ask (.newCell (.count 0))
  Code.newFrame "repeat" fun context value error => Code.program do
    match error with
    | some error => return .throw error
    | none =>
      let made := (← ask (.read cell)).toCount
      if made < times then
        ask (.write cell (.count (made + 1)))
        let callee ← build (.within context)
        Code.call context callee .unit
      else
        return .done value

/-- Create a frame that calls another one at its first resume and passes on what comes back. -/
def newRelay (build : Site → Piece FrameId) : Piece FrameId := do
  let cell ← ask (.newCell (.count 0))
  Code.newFrame "recurse" fun context value error => Code.program do
    let made := (← ask (.read cell)).toCount
    if error.isNone && made = 0 then
      ask (.write cell (.count 1))
      let callee ← build (.within context)
      Code.call context callee value
    else
      return .forward value error

/-- Create a frame that relays to one like itself, `depth` times, and then to a leaf. -/
def newNest (leaf : Site → Piece FrameId) : Nat → Piece FrameId
  | 0 => newRelay leaf
  | depth + 1 => newRelay fun _ => newNest leaf depth

/-! ## Actions from their parts -/

/-- Change the registers of the running script frame, if it has some. -/
def modifyProgress (site : Site) (f : Progress → Progress) : Piece Unit :=
  match site.progress with
  | none => pure ()
  | some cell => ask (.update cell fun content => .progress (f content.toProgress))

/-- Change the state of the actor whose handler runs, if one does. -/
def modifyState (site : Site) (f : Datum → Datum) : Piece Unit :=
  match site.state with
  | none => pure ()
  | some x => do
    let state ← ask (.exclusive x)
    ask (.setPayload x (f state.payload))

/-- Call a native function of the scheduler that runs the task, and answer what it answers. -/
def callNative (scene : Scene) (site : Site) (name : String) (arguments : List Datum) :
    Piece Unit := do
  let task ← ask (.task site.here.task)
  let scheduler ← ask (.scheduler task.scheduler)
  match ← Code.callNative scheduler.registry name site.here arguments with
  | .ok a => Code.answer a
  | .error e => scene.report (.nativeRefused e)

/-- Take a resource, or wait for it. -/
def claim (site : Site) (r : ResourceId) : Piece Unit := do
  match ← ask (.acquire r site.here.task) with
  | .ok .acquired => return
  | .ok .blocked => Code.answer .suspended
  | .error refusal => Code.answer (.throw (.deadlock refusal))

/-- Get the value of a task, or wait for the task. -/
def waitValue (site : Site) (child : TaskId) : Piece Datum := do
  match ← ask (.waitFor site.here.task child) with
  | .ok none => Code.answer .suspended
  | .ok (some (.done value)) => return value
  | .ok (some (.failed failure)) => Code.answer (.throw failure.error)
  | .error refusal => Code.answer (.throw (.deadlock refusal))

/-- The name of the running thread. -/
def threadName : Piece String := do
  match ← ask .thread with
  | .host => return "main"
  | .background s index => return (← ask (.scheduler s)).settings.nameOfThread index

/-- Remember a new task under its name. -/
def announceTask (scene : Scene) (name : String) : Except HostError TaskId → Piece Result
  | .ok t => do
    scene.nameTask name t
    return .spawned t
  | .error e => return .refused e

/-- What can be seen of a frame. -/
def frameResult (f : FrameId) : Piece Result := do
  let view ← ask (.frame f)
  match view.caller with
  | none => return .frame view none
  | some caller => return .frame view (some (← ask (.frame caller)).label)

/-- A native function that runs actions and finishes with the value register. -/
def nativeOf (scene : Scene) (step : Step) : Native Datum Memory :=
  fun context arguments => Code.program do
    let view ← ask (.frame context.frame)
    scene.report (.called view.label arguments)
    let registers ← step (.within context) ⟨arguments.headD .unit, none⟩
    return .done registers.value

/-- The handler of an actor that runs actions and finishes with the value register. -/
def handlerOf (scene : Scene) (step : Step) : Handler Datum Memory :=
  fun context state message => Code.program do
    let before ← ask (.exclusive state)
    scene.report (.handled context.task message before.payload)
    let registers ← step ⟨some context, none, some state⟩ ⟨message, none⟩
    return .done registers.value

/-! ## The meaning of a text -/

mutual

/-- Create the frame that an expression stands for, or find it. -/
def FrameExpr.build (scene : Scene) : FrameExpr → Site → Piece FrameId
  | .named name, site => scene.frame site name
  | .script label quiet steps onError, _ =>
    newScript scene label quiet (stepsOf scene steps)
      fun site registers => runAll scene onError site registers
  | .acquire r body, site => do
    let body ← body.build scene site
    ask (.newGuard (scene.resource r) body)
  | .join t, site => do ask (.newJoin (← scene.task site t))
  | .send a message, _ => ask (.newMessage (scene.actor a) message)
  | .again times frame, _ => newAgain times fun site => frame.build scene site
  | .nest depth leaf, _ => newNest (fun site => leaf.build scene site) depth

/-- The steps of a script. -/
def stepsOf (scene : Scene) : List (List Action) → List Step
  | [] => []
  | actions :: rest =>
    (fun site registers => runAll scene actions site registers) :: stepsOf scene rest

/-- Do what actions say, in their order. -/
def runAll (scene : Scene) : List Action → Site → Registers → Piece Registers
  | [], _, registers => pure registers
  | action :: rest, site, registers => do
    let registers ← action.run scene site registers
    runAll scene rest site registers

/-- Do what an action says. -/
def Action.run (scene : Scene) : Action → Site → Registers → Piece Registers
  | .set value, _, registers => return { registers with value := value }
  | .add amount, _, registers => return { registers with value := registers.value.plus amount }
  | .clear, _, registers => return { registers with error := none }
  | .log value, _, registers => do
    scene.report (.logged value)
    return registers
  | .showRegisters, _, registers => do
    scene.report (.shown registers.value registers.error)
    return registers
  | .goto step, site, registers => do
    modifyProgress site (·.goto step)
    return registers
  | .gotoTimes step limit, site, registers => do
    modifyProgress site fun p => if p.jumpsTo step < limit then p.goto step else p
    return registers
  | .ifEq value actions, site, registers =>
    if registers.value = value then runAll scene actions site registers else pure registers
  | .ifError kind actions, site, registers =>
    if registers.error.any kind.includes then
      runAll scene actions site registers
    else
      pure registers
  | .done value, _, registers => Code.answer (.done (value.getD registers.value))
  | .throw value, _, registers => Code.answer (.throw (.thrown (value.getD registers.value)))
  | .cancel, _, _ => Code.answer (.throw .cancelled)
  | .forward, _, registers => Code.answer (.forward registers.value registers.error)
  | .suspend, _, _ => Code.answer .suspended
  | .jump frame value, site, registers => do
    let target ← frame.build scene site
    Code.answer (.jump target (value.getD registers.value))
  | .call frame value, site, registers => do
    let callee ← frame.build scene site
    Code.call site.here callee (value.getD registers.value)
  | .continueIn frame, site, registers => do
    let next ← frame.build scene site
    Code.continueIn site.here next
    return registers
  | .native name arguments, site, registers => do
    callNative scene site name arguments
    return registers
  | .claim r, site, registers => do
    claim site (scene.resource r)
    return registers
  | .wait t, site, registers => do
    let value ← waitValue site (← scene.task site t)
    return { registers with value := value }
  | .isTop, site, registers => do
    let task ← ask (.task site.here.task)
    scene.report (.isTop (task.top = some site.here.frame))
    return registers
  | .thread, _, registers => do
    scene.report (.thread (← threadName))
    return registers
  | .stateAdd amount, site, registers => do
    modifyState site (·.plus amount)
    return registers
  | .stateAddValue, site, registers => do
    modifyState site (·.plus registers.value.amount)
    return registers
  | .stateSet n, site, registers => do
    modifyState site fun _ => .int n
    return registers
  | .stateGet, site, registers =>
    match site.state with
    | none => pure registers
    | some x => do return { registers with value := (← ask (.exclusive x)).payload }
  | .perform command, site, registers => do
    let result ← command.perform scene site
    scene.report (.performed command.name result)
    return registers

/-- Carry a command out. -/
def Command.perform (scene : Scene) : Command → Site → Piece Result
  | .spawn t entry s, site => do
    let entry ← entry.build scene site
    announceTask scene t (← ask (.spawn (scene.scheduler s) entry))
  | .run t entry s, site => do
    let entry ← entry.build scene site
    announceTask scene t (← Code.run (scene.scheduler s) entry)
  | .spawnBound t entry s, site => do
    let entry ← entry.build scene site
    announceTask scene t (← ask (.spawnBound (scene.scheduler s) entry))
  | .pause t frame, site => do
    let t ← scene.task site t
    ask (.pause t (← frame.build scene site))
    return .nothing
  | .unwind t target value, site => do
    let t ← scene.task site t
    Code.unwind t (← target.build scene site) value
    return .nothing
  | .frame name frame, site => do
    scene.storeFrame name (← frame.build scene site)
    return .nothing
  | .attach frame none, site => do
    ask (.attach (← frame.build scene site) none)
    return .nothing
  | .attach frame (some below), site => do
    let f ← frame.build scene site
    ask (.attach f (some (← below.build scene site)))
    return .nothing
  | .frameInfo frame, site => do frameResult (← frame.build scene site)
  | .register s name actions, _ => do
    let native := nativeOf scene fun site registers => runAll scene actions site registers
    let reply ← Code.register (scene.registry s) name native
    if let .ok symbol := reply then scene.storeSymbol name symbol
    return .ofRefusable (fun symbol => .symbol (some symbol)) reply
  | .operation op, site => op.perform scene site

end

end Tasking.Script
