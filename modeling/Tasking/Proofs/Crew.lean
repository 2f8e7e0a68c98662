import Tasking.Proofs.Picture

/-! # Crews

A crew is any number of threads of control that share one state: threads that run the program of
a host, workers that take a turn, threads of bound tasks.  They take their steps one at a time
and in any order, which covers every order of task runs, and in particular a single thread that
drives schedulers one inside the other.  A step that meets a fault ends the run.

`Crew.Run` is a run of a crew from the beginning.  Each of its steps resumes at most one frame of
a task, which `Agent.resumed?` tells beforehand.

`Crew.Guarded` is what guarded programs keep to.
-/

namespace Tasking

variable {V C : Type}

/-- The run of a task that a thread is about to go on with. -/
def Focus.run? : Focus V C → Option (TaskId × Stage)
  | .trampoline t _ => some (t, .next)
  | _ => none

/-- The run of a task that waits for an answer. -/
def Activation.run? : Activation V C → Option (TaskId × Stage)
  | .frame t f _ => some (t, .inside f)
  | .cancel t doomed target _ _ => some (t, .unwinding doomed target)
  | _ => none

/-- A thread of control between two steps. -/
structure Agent (V C : Type) where
  focus : Focus V C
  stack : List (Activation V C)

namespace Agent

/-- The thread together with the state. -/
def config (a : Agent V C) (st : State V C) : Config V C := ⟨st, a.focus, a.stack⟩

/-- The runs in progress on a thread, the innermost first. -/
def runs (a : Agent V C) : List (TaskId × Stage) :=
  a.focus.run?.toList ++ a.stack.filterMap Activation.run?

/-- A thread that has done nothing yet: it will run a program of the host, take a turn as a
    worker, or run a bound task. -/
inductive IsNew : Agent V C → Prop where
  | code (p : Program V C) : IsNew ⟨.code p, []⟩
  | work (s : SchedulerId) (index : Nat) : IsNew ⟨.work s index, []⟩
  | own (t : TaskId) (index : Nat) : IsNew ⟨.own t index, []⟩

/-- The top of a task's chain after a frame of it jumped away. -/
def topAfterJump (st : State V C) (t : TaskId) (f target : FrameId) : Option FrameId :=
  if st.top t = some f ∧ f ≠ target then st.caller f else st.top t

/-- The frame that the next step resumes, if it resumes one, and the task it does that for. -/
def resumed? (a : Agent V C) (st : State V C) : Option (TaskId × FrameId) :=
  match a.focus, a.stack with
  | .trampoline t _, _ => (st.top t).map fun f => (t, f)
  | .code (.answer _), .cancel t (f :: _) _ _ _ :: _ => some (t, f)
  | .code (.answer (.jump target _)), .frame t f _ :: _ =>
    let top := topAfterJump st t f target
    if top = some target then none else top.map fun g => (t, g)
  | _, _ => none

end Agent

/-- Threads of control that share a state. -/
structure Crew (V C : Type) where
  state : State V C
  agents : List (Agent V C)

namespace Crew

/-- All runs in progress. -/
def runs (c : Crew V C) : List (TaskId × Stage) := c.agents.flatMap Agent.runs

/-- Where the run of a task is, if it runs. -/
def stage (c : Crew V C) (t : TaskId) : Option Stage := c.runs.lookup t

/-- Chains, guards and owners of a crew. -/
def picture (c : Crew V C) : Picture V := c.state.picture c.stage

/-- Nothing exists yet and nobody does anything. -/
def initial (parallelism : Nat) : Crew V C := ⟨.initial parallelism, []⟩

variable [Inhabited V]

/-- One step of a crew.  If a thread makes it, it is a step that the thread is allowed to make and
    that meets no fault.  The label is the frame that the step resumes. -/
inductive Step (allowed : Crew V C → Agent V C → Prop) :
    Crew V C → Option (TaskId × FrameId) → Crew V C → Prop where
  | act {st : State V C} {before after : List (Agent V C)} {a : Agent V C} {config : Config V C}
      (permitted : allowed ⟨st, before ++ a :: after⟩ a)
      (step : (a.config st).step = .ok config) :
      Step allowed ⟨st, before ++ a :: after⟩ (a.resumed? st)
        ⟨config.state, before ++ ⟨config.focus, config.stack⟩ :: after⟩
  /-- Another thread joins. -/
  | join {st : State V C} {agents : List (Agent V C)} {a : Agent V C} (new : a.IsNew) :
      Step allowed ⟨st, agents⟩ none ⟨st, agents ++ [a]⟩
  /-- A thread has waited for as long as it would. -/
  | lapse {st : State V C} {before after : List (Agent V C)} {condition : Until}
      {limit : Option Nat} {next : Program V C} {stack : List (Activation V C)} :
      Step allowed ⟨st, before ++ ⟨.waiting condition limit next, stack⟩ :: after⟩ none
        ⟨st, before ++ ⟨.code next, stack⟩ :: after⟩
  /-- Another thread becomes the running one. -/
  | switch {st : State V C} {agents : List (Agent V C)} (thread : Thread) :
      Step allowed ⟨st, agents⟩ none ⟨{ st with running := thread }, agents⟩

/-- A run of a crew from the beginning, of `length` steps. -/
structure Run (V C : Type) [Inhabited V] (allowed : Crew V C → Agent V C → Prop) where
  length : Nat
  crew : Nat → Crew V C
  resumed : Nat → Option (TaskId × FrameId)
  starts : ∃ parallelism, crew 0 = .initial parallelism
  steps : ∀ i < length, Step allowed (crew i) (resumed i) (crew (i + 1))

variable {allowed allowed' : Crew V C → Agent V C → Prop}

/-- Whoever keeps to strict rules keeps to lax ones. -/
theorem Step.mono {c c' : Crew V C} {label : Option (TaskId × FrameId)}
    (lax : ∀ c a, allowed c a → allowed' c a) (step : Step allowed c label c') :
    Step allowed' c label c' := by
  cases step with
  | act permitted step => exact .act (lax _ _ permitted) step
  | join new => exact .join new
  | lapse => exact .lapse
  | switch thread => exact .switch thread

/-- A run under strict rules is one under lax ones. -/
def Run.mono (run : Run V C allowed) (lax : ∀ c a, allowed c a → allowed' c a) : Run V C allowed' where
  length := run.length
  crew := run.crew
  resumed := run.resumed
  starts := run.starts
  steps i bound := (run.steps i bound).mono lax

end Crew

/-! ## A thread on its own -/

/-- The thread between two steps. -/
def Config.agent (config : Config V C) : Agent V C := ⟨config.focus, config.stack⟩

/-- A crew of one thread. -/
def Config.alone (config : Config V C) : Crew V C := ⟨config.state, [config.agent]⟩

variable [Inhabited V]

/-- A thread after so many steps; a fault ends them. -/
def Config.after (config : Config V C) : Nat → Config V C
  | 0 => config
  | n + 1 =>
    match (config.after n).step with
    | .ok next => next
    | .error _ => config.after n

theorem Config.step_after {config : Config V C} {n : Nat} (ok : (config.after n).step.isOk = true) :
    (config.after n).step = .ok (config.after (n + 1)) := by
  rw [Config.after]
  cases step : (config.after n).step with
  | ok next => rfl
  | error crash => simp [step, Except.isOk, Except.toBool] at ok

theorem Config.after_add (config : Config V C) (m n : Nat) :
    config.after (m + n) = (config.after m).after n := by
  induction n with
  | zero => rfl
  | succ n inductionHypothesis => rw [← Nat.add_assoc, after, inductionHypothesis, after]

/-- The run of a host that has no other threads. -/
def Crew.Run.ofHost {allowed : Crew V C → Agent V C → Prop} (parallelism : Nat) (p : Program V C)
    (length : Nat)
    (ok : ∀ n < length, ((Config.start (.initial parallelism) p).after n).step.isOk = true)
    (permitted : ∀ n < length, allowed ((Config.start (.initial parallelism) p).after n).alone
      ((Config.start (.initial parallelism) p).after n).agent) : Crew.Run V C allowed where
  length := length + 1
  crew
    | 0 => .initial parallelism
    | n + 1 => ((Config.start (.initial parallelism) p).after n).alone
  resumed
    | 0 => none
    | n + 1 =>
      let config := (Config.start (.initial parallelism) p).after n
      config.agent.resumed? config.state
  starts := ⟨parallelism, rfl⟩
  steps
    | 0, _ => @Step.join _ _ _ _ _ [] _ (.code p)
    | n + 1, bound =>
      have bound := Nat.lt_of_succ_lt_succ bound
      @Step.act _ _ _ _ _ [] [] _ _ (permitted n bound) (Config.step_after (ok n bound))

/-! ## Guarded programs -/

/-- What guarded programs may ask for.  Resources are taken by guards alone.  Chains change by
    calls and continuations alone: a frame that is put on a chain is on none, and it returns to
    the running frame or to the caller of the running frame.  `runner` is the run that the code
    belongs to, if it is not a host's. -/
def Picture.Permits (p : Picture V) (runner : Option (TaskId × Stage)) : Request V C → Prop
  | .tryAcquire _ _ | .acquire _ _ | .release _ _ | .move _ _ => False
  | .spawn _ entry | .spawnBound _ entry => ∀ f, Reaches p.caller entry f → p.Idle f
  | .attach f caller => p.caller f = caller ∨
    (∀ k, caller = some k → p.known k ∧
      ∀ r phase, p.guard k = some (r, phase) → phase = .held ∨ phase = .released) ∧
    (p.Idle f ∨ ∃ t g, runner = some (t, .inside g) ∧ p.top t = some f ∧ f ≠ g ∧
      (caller = some g ∨ caller = p.caller g))
  | .pause t f => ∃ stage, runner = some (t, stage) ∧
    (p.Idle f ∨ p.top t = some f ∨ stage = .inside f) ∧
    ∀ g, stage = .inside g → f = g ∨ p.caller f = some g ∨ p.caller f = p.caller g
  | _ => True

/-- What guarded programs keep to.  A guard calls its body only if the body is on no chain, nobody
    unwinds by hand, and the thread of a bound task does not take the task up while it still waits
    in line for a resource. -/
def Crew.Guarded (c : Crew V C) (a : Agent V C) : Prop :=
  match a.focus with
  | .code (.ask request _) => c.picture.Permits a.runs.head? request
  | .code (.unwind _ _ _ _) => False
  | .trampoline t _ => ∀ task f r body, c.state.tasks.get? t = some task →
      task.top = some f → task.error = none →
      (c.state.guard? f = some (r, .start body) ∧ c.state.owner r = none ∨
        ∃ value, c.state.guard? f = some (r, .waiting body value)) →
      c.picture.Idle body
  | .own t _ => (∃ task, c.state.tasks.get? t = some task ∧ task.bound.isSome = true) ∧
      ∀ r, c.state.owner r = some t → t ∉ c.state.waiters r
  | _ => True

end Tasking
