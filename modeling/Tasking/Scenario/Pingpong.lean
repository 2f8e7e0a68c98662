import Tasking.Scenario.Basic
import Tasking.Value

/-! # A rally

Two players send messages to one actor, which counts the shots of either.  Each player
sends its shot a number of times and lets the other one run after every reply.

A player is resumed twice for each shot: once to send it, and once with the reply.  It
counts its resumes, so it knows by parity which of the two it is.
-/

namespace Tasking.Scenario.Pingpong

/-- A message. -/
inductive Shot where
  | ping | pong
  deriving DecidableEq

/-- The actor's state. -/
structure Rally where
  pings : Nat
  pongs : Nat
  deriving DecidableEq

namespace Rally

/-- No shot was counted. -/
def initial : Rally := ⟨0, 0⟩

/-- Count a shot. -/
def count (r : Rally) : Shot → Rally
  | .ping => { r with pings := r.pings + 1 }
  | .pong => { r with pongs := r.pongs + 1 }

/-- How many shots were counted. -/
def total (r : Rally) : Nat := r.pings + r.pongs

end Rally

/-- The values that are passed about. -/
inductive Datum where
  | unit
  | shot (s : Shot)
  | rally (r : Rally)
  deriving DecidableEq

namespace Datum

instance : Inhabited Datum := ⟨.unit⟩

/-- The name of a value's type; unit has none. -/
def typeName? : Datum → Option String
  | unit => none
  | shot _ => some "Shot"
  | rally _ => some "Rally"

instance : Describe Datum := ⟨fun d => Value.describeType d.typeName?⟩

/-- The state of the actor; other values count as its first state. -/
def toRally : Datum → Rally
  | rally r => r
  | _ => .initial

end Datum

/-- Memory cells count the resumes of the players. -/
abbrev Piece (α : Type) := Code Datum Nat α

/-- Count a shot in a state; other messages change nothing. -/
def receive (state : Rally) : Datum → Rally
  | .shot s => state.count s
  | _ => state

/-- The handler of the actor: count the shot and reply with the new state. -/
def handler : Handler Datum Nat := fun _ x message => Code.program do
  let state ← Code.ask (.exclusive x)
  let next := receive state.payload.toRally message
  Code.ask (.setPayload x (.rally next))
  return .done (.rally next)

/-- The code of a player that sends its shot `rounds` times; the cell counts its resumes. -/
def player (a : ActorId) (shot : Shot) (rounds : Nat) (resumes : CellId) : Body Datum Nat :=
  fun context value error => Code.program do
    match error with
    | some error => return .throw error
    | none =>
      let n ← Code.ask (.read resumes)
      Code.ask (.write resumes (n + 1))
      if n % 2 = 1 then
        if rounds ≤ (n + 1) / 2 then
          return .done value
        else
          Code.ask (.yield context.task)
          return .suspended
      else if rounds = 0 then
        return .done value
      else
        let delivery ← Code.ask (.newMessage a (.shot shot))
        Code.call context delivery .unit

/-- Create and start a player. -/
def startPlayer (s : SchedulerId) (a : ActorId) (shot : Shot) (rounds : Nat) : Piece Unit := do
  let resumes ← Code.ask (.newCell 0)
  let entry ← Code.newFrame "player" (player a shot rounds resumes)
  let _ ← Code.run s entry

/-- Create the actor and the players. -/
def work (rounds : Nat) (s : SchedulerId) : Piece Unit := do
  let a ← Code.newActor (.rally .initial) handler
  startPlayer s a .ping rounds
  startPlayer s a .pong rounds

/-- What came of the scenario. -/
structure Result where
  rounds : Nat
  outcomes : List (Option (Outcome Datum))
  load : Load

/-- The state with the most shots among replies, and none if every reply has no shots. -/
def latest (replies : List Rally) : Rally :=
  replies.foldl (fun last r => if last.total < r.total then r else last) .initial

/-- The final values of the players, or the first failure among them. -/
def replies : List (Outcome Datum) → Except (Uncaught Datum) (List Rally)
  | [] => .ok []
  | .failed failure :: _ => .error failure
  | .done value :: rest => (replies rest).map (value.toRally :: ·)

/-- Whether every shot was counted. -/
def Result.accepts (r : Result) (last : Rally) : Bool :=
  last.pings = r.rounds && last.pongs = r.rounds

/-- More steps than the scenario makes. -/
def stepLimit (rounds : Nat) : Nat := 256 * (rounds + 1)

/-- Run the scenario. -/
def run (settings : Settings) (parallelism rounds : Nat) : Result :=
  let st := finalState (stepLimit rounds) parallelism (program settings (work rounds))
  ⟨rounds, outcomes st, .ofState st⟩

end Tasking.Scenario.Pingpong
