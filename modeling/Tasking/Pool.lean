import Tasking.Machine

/-! # Threads that take turns

All threads share one state, and one of them runs at a time.  The embedding thread has a lead:
it runs until it has to wait; then the others take turns, the one that has not run for the
longest time first, until what the embedding thread waits for holds.  A turn of a worker is one
task run, and a turn of a bound task's thread is one run of that task; a long run takes several
turns.  The embedding thread has only so many turns in a row while others could go on.  Then it
takes turns like them, so a loop on it that ends by what another thread does comes to its end.

A thread that waits inside a task run keeps its place: a worker that waits runs nothing else.
A thread that meets a fault ends there.  The payloads that it had open are closed, and all
else stays as the fault left it; the other threads go on.  Only a fault of the embedding
thread ends everything.

Time is counted in steps.  It passes as threads run, and when all of them wait, it passes until
the first of them has waited for as long as it would.
-/

namespace Tasking

variable {V C : Type}

/-- Why a thread does not run at the moment. -/
inductive Pause where
  /-- It waits for something, but no longer than until some time if there is a limit. -/
  | waiting (deadline : Option Nat)
  /-- Its turn was over.  It may have `lead` further turns before others have one. -/
  | interrupted (lead : Nat)
  deriving DecidableEq

namespace Pause

/-- How many turns in a row the embedding thread may have while others could go on. -/
def fullLead : Nat := 4

/-- The time at which a thread waits no longer, if there is a limit. -/
def deadline : Pause → Option Nat
  | waiting deadline => deadline
  | interrupted _ => none

/-- How many turns the embedding thread may have before others have one. -/
def lead : Pause → Nat
  | waiting _ => fullLead
  | interrupted lead => lead

/-- Whether a thread was put aside before it had to wait. -/
def isInterrupted : Pause → Bool
  | waiting _ => false
  | interrupted _ => true

end Pause

/-- A thread that does not run at the moment. -/
structure Paused (V C : Type) where
  thread : Thread
  focus : Focus V C
  stack : List (Activation V C)
  reason : Pause

/-- The time at which the thread waits no longer, if there is a limit. -/
def Paused.deadline (p : Paused V C) : Option Nat := p.reason.deadline

/-- Several threads. -/
structure Pool (V C : Type) where
  /-- The running thread. -/
  config : Config V C
  /-- The threads that are in the middle of something. -/
  paused : List (Paused V C)
  /-- The threads that met a fault. -/
  ended : List Thread
  /-- The threads that had a turn, the latest first. -/
  served : List Thread
  /-- The time, in steps. -/
  clock : Nat
  /-- How many steps the running thread may still make in its turn. -/
  allowance : Nat
  /-- How many further turns it may have before others have one, if it is the embedding thread. -/
  lead : Nat

/-- How far a pool came. -/
inductive Verdict (V C : Type) where
  /-- The program of the embedding thread answered. -/
  | answered (a : Answer V) (state : State V C)
  /-- The embedding thread met a fault. -/
  | faulted (fault : Fault) (state : State V C)
  /-- All threads wait, and nothing will end that. -/
  | stuck (state : State V C)
  /-- There is more to do. -/
  | running (pool : Pool V C)

/-- The state at the end. -/
def Verdict.state : Verdict V C → State V C
  | .answered _ state => state
  | .faulted _ state => state
  | .stuck state => state
  | .running pool => pool.config.state

/-! ## Whose turn it is -/

/-- What can be done next. -/
inductive Turn (V C : Type) where
  /-- A paused thread goes on. -/
  | resume (p : Paused V C)
  /-- A worker runs the oldest ready task of its scheduler. -/
  | work (s : SchedulerId) (index : Nat)
  /-- A bound task runs on its own thread. -/
  | own (t : TaskId) (s : SchedulerId) (index : Nat)

namespace Turn

/-- The thread whose turn it is. -/
def thread : Turn V C → Thread
  | resume p => p.thread
  | work s index => .background s index
  | own _ s index => .background s index

/-- What a turn begins with.  A thread that waited for as long as it would goes on. -/
def focus (now : Nat) : Turn V C → Focus V C
  | resume p =>
    match p.focus with
    | .waiting _ _ next => if p.deadline.any (· ≤ now) then .code next else p.focus
    | focus => focus
  | work s index => .work s index
  | own t _ index => .own t index

/-- What waits for an answer when a turn begins. -/
def stack : Turn V C → List (Activation V C)
  | resume p => p.stack
  | work _ _ => []
  | own _ _ _ => []

/-- How many turns the thread may have, this one included, before others have one. -/
def lead : Turn V C → Nat
  | resume p => if p.thread = .host then p.reason.lead else 0
  | work _ _ => 0
  | own _ _ _ => 0

end Turn

namespace Pool

/-- How many steps make a millisecond. -/
def stepsPerMillisecond : Nat := 2048

/-- How many steps a turn has at most. -/
def turnLength : Nat := 512

/-- A pool whose embedding thread is about to run a program. -/
def start (st : State V C) (p : Program V C) : Pool V C :=
  ⟨.start st p, [], [], [], 0, turnLength, Pause.fullLead⟩

/-- The paused threads that need not wait. -/
def resumable (st : State V C) (paused : List (Paused V C)) (now : Nat) : List (Turn V C) :=
  (paused.filter fun p =>
    p.reason.isInterrupted || p.deadline.any (· ≤ now) || !Config.mustWait st p.focus).map .resume

/-- The first worker of a scheduler that is not among some threads. -/
def freeWorker? (s : SchedulerId) (workers : Nat) (busy : List Thread) : Option Nat :=
  (List.range (min workers (busy.length + 1))).find? fun index =>
    !busy.contains (.background s index)

/-- The workers that have a ready task to run, one of each scheduler. -/
def workTurns (st : State V C) (busy : List Thread) : List (Turn V C) :=
  st.schedulers.ids.filterMap fun s => do
    let scheduler ← st.schedulers.get? s
    if scheduler.ready.isEmpty || scheduler.isShutDown then
      none
    else
      let index ← freeWorker? s scheduler.workers busy
      some (.work s index)

/-- The bound tasks of a scheduler that are ready. -/
def boundTurns (st : State V C) (s : SchedulerId) (busy : List Thread) : List TaskId →
    List (Turn V C) :=
  List.filterMap fun t => do
    let task ← st.tasks.get? t
    let index ← task.bound
    if task.life = .ready ∧ busy.contains (.background s index) = false then
      some (.own t s index)
    else
      none

/-- The threads of bound tasks that have their task to run. -/
def ownTurns (st : State V C) (busy : List Thread) : List (Turn V C) :=
  st.schedulers.ids.flatMap fun s =>
    match st.schedulers.get? s with
    | none => []
    | some scheduler =>
      if scheduler.isShutDown then [] else boundTurns st s busy scheduler.bound

/-- Everything that can be done next. -/
def turns (st : State V C) (paused : List (Paused V C)) (ended : List Thread) (now : Nat) :
    List (Turn V C) :=
  let busy := paused.map Paused.thread ++ ended
  resumable st paused now ++ workTurns st busy ++ ownTurns st busy

/-- The turn of the thread that was not served for the longest time; among threads that never
    were, the first one. -/
def longestWaiting (served : List Thread) : List (Turn V C) → Option (Turn V C)
  | [] => none
  | turn :: rest =>
    match longestWaiting served rest with
    | none => some turn
    | some other =>
      if served.idxOf turn.thread < served.idxOf other.thread then some other else some turn

/-- The next turn.  The embedding thread goes first if it has a lead. -/
def nextTurn? (served : List Thread) (able : List (Turn V C)) : Option (Turn V C) :=
  match able.find? fun turn => 0 < turn.lead with
  | some turn => some turn
  | none => longestWaiting served able

/-- The paused thread that waits no longer first. -/
def earliest? : List (Paused V C) → Option (Nat × Paused V C)
  | [] => none
  | p :: rest =>
    match p.deadline, earliest? rest with
    | none, found => found
    | some time, none => some (time, p)
    | some time, some (other, q) => if other < time then some (other, q) else some (time, p)

/-- The lead that is left after a turn.  While no other thread can go on, it does not shrink. -/
def leadAfter (turn : Turn V C) : List (Turn V C) → Nat
  | [_] => Pause.fullLead
  | _ => turn.lead - 1

/-- Begin a turn, one of those that can be next. -/
def beginTurn (st : State V C) (paused : List (Paused V C)) (ended served : List Thread)
    (now : Nat) (able : List (Turn V C)) (turn : Turn V C) : Pool V C where
  config := ⟨{ st with running := turn.thread }, turn.focus now, turn.stack⟩
  paused := paused.filter (·.thread ≠ turn.thread)
  ended := ended
  served := turn.thread :: served.filter (· ≠ turn.thread)
  clock := now
  allowance := turnLength
  lead := leadAfter turn able

/-- Give somebody the next turn, at once or when the first thread has waited long enough. -/
def dispatch (st : State V C) (paused : List (Paused V C)) (ended served : List Thread)
    (now : Nat) : Verdict V C :=
  let able := turns st paused ended now
  match nextTurn? served able with
  | some turn => .running (beginTurn st paused ended served now able turn)
  | none =>
    match earliest? paused with
    | some (time, p) => .running (beginTurn st paused ended served time [.resume p] (.resume p))
    | none => .stuck st

/-! ## Steps -/

/-- What a fault does to a thing that waits for an answer on the thread that met it. -/
def abandon (st : State V C) : Activation V C → State V C
  | .opened x => st.closePayload x
  | _ => st

/-- What the running thread is up to. -/
inductive Status (V : Type) where
  | busy
  | resting
  /-- The thread can only wait. -/
  | blocked (limit : Option Nat)
  | answered (a : Answer V)

/-- What the running thread is up to. -/
def status (c : Config V C) : Status V :=
  match c.answer?, c.focus with
  | some a, _ => .answered a
  | none, .rest => .resting
  | none, .waiting _ limit _ => if Config.mustWait c.state c.focus then .blocked limit else .busy
  | none, _ => .busy

/-- One step of the running thread. -/
def advance [Inhabited V] (c : Config V C) (paused : List (Paused V C))
    (ended served : List Thread) (clock allowance lead : Nat) : Verdict V C :=
  let stack := c.stack
  match c.step with
  | .ok c => .running ⟨c, paused, ended, served, clock + 1, allowance, lead⟩
  | .error ⟨fault, st⟩ =>
    if st.running = .host then
      .faulted fault st
    else
      dispatch (stack.foldl abandon st) paused (st.running :: ended) served clock

/-- Put the running thread aside. -/
def pause (c : Config V C) (reason : Pause) : Paused V C :=
  ⟨c.state.running, c.focus, c.stack, reason⟩

/-- One step. -/
def step [Inhabited V] (p : Pool V C) : Verdict V C :=
  match p with
  | ⟨c, paused, ended, served, clock, allowance, lead⟩ =>
    match status c with
    | .answered a => .answered a c.state
    | .resting => dispatch c.state paused ended served clock
    | .blocked limit =>
      let deadline := limit.map fun limit => clock + limit * stepsPerMillisecond
      dispatch c.state (paused ++ [pause c (.waiting deadline)]) ended served clock
    | .busy =>
      match allowance with
      | 0 => dispatch c.state (paused ++ [pause c (.interrupted lead)]) ended served clock
      | allowance + 1 => advance c paused ended served clock allowance lead

/-- Make at most `steps` steps. -/
def run [Inhabited V] : Nat → Pool V C → Verdict V C
  | 0, p => .running p
  | steps + 1, p =>
    match p.step with
    | .running p => p.run steps
    | verdict => verdict

end Pool

end Tasking
