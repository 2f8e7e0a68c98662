import Tasking.Proofs.Crew
import Tasking.Proofs.Lives

/-! # Manners

What programs keep to that use the runtime as it is meant to be used, beyond what they do to chains
and resources.

`Program.Ends may ends` says of a program that whatever replies it gets, it makes only requests of
some kind and comes to an answer of some kind, without letting others run in between.
`Agent.Heads` says so of the answer that the frame will give which a thread runs; `Agent.Parks`
says that the answer will be that the frame suspends.

`Crew.Regular` is about waiting: a frame arranges to wait only if it suspends right after that,
tasks are woken by hand only if they wait for an event outside, and only joins wait for other tasks.
Threads can be had whenever a task wants one of its own, and a scheduler is stopped when it has
nothing to run.
-/

namespace Tasking

variable {V C : Type}

/-- The requests with which a task arranges to wait, or to run again later. -/
def Request.arranges : Request V C → Bool
  | .yield _ | .waitExternal _ => true
  | _ => false

/-- Whatever replies the program gets, it makes only such requests, and comes to such an answer. -/
def Program.Ends (may : Request V C → Prop) (ends : Answer V → Prop) : Program V C → Prop
  | .answer a => ends a
  | .ask request next => may request ∧ ∀ reply, (next reply).Ends may ends
  | .newFrame _ _ next => ∀ f, (next f).Ends may ends
  | .newActor _ _ next => ∀ a, (next a).Ends may ends
  | .register _ _ _ next => ∀ reply, (next reply).Ends may ends
  | _ => False

/-- The answers with which the frame that waits for them will give such an answer itself. -/
def returns (may : Request V C → Prop) (ends : Answer V → Prop) :
    List (Activation V C) → Answer V → Prop
  | .frame _ _ _ :: _, a => ends a
  | .opened _ :: rest, a => returns may ends rest a
  | .call next :: rest, a => (next a).Ends may (returns may ends rest)
  | _, _ => False

namespace Agent

/-- Whatever happens, the frame that the thread runs will give such an answer. -/
def Heads (may : Request V C → Prop) (ends : Answer V → Prop) (a : Agent V C) : Prop :=
  ∃ program, a.focus = .code program ∧ program.Ends may (returns may ends a.stack)

/-- The frame of a task that the thread runs is about to suspend, and arranges nothing more. -/
def Parks (a : Agent V C) (t : TaskId) : Prop :=
  (∃ f, a.runs.head? = some (t, .inside f)) ∧
    a.Heads (fun request => request.arranges = false) (· = .suspended)

end Agent

/-- What regular programs may ask for, and how they may go on. -/
def Crew.Allows (c : Crew V C) (stack : List (Activation V C)) :
    (request : Request V C) → (request.Reply → Program V C) → Prop
  | .ready t, _ => ∃ task, c.state.tasks.get? t = some task ∧ task.external = true
  | .yield t, next | .waitExternal t, next => Agent.Parks ⟨.code (next ()), stack⟩ t
  | .spawnBound s _, _ => ∀ scheduler, c.state.schedulers.get? s = some scheduler →
      scheduler.settings.threadObstacle? scheduler.nextThread = none
  | .stop s, _ => c.state.queue s = []
  | .waitFor _ _, _ => False
  | _, _ => True

/-- What regular programs keep to. -/
def Crew.Regular (c : Crew V C) (a : Agent V C) : Prop :=
  match a.focus with
  | .code (.ask request next) => c.Allows a.stack request next
  | _ => True

/-- Programs that are both guarded and regular. -/
def Crew.Proper (c : Crew V C) (a : Agent V C) : Prop := c.Guarded a ∧ c.Regular a

namespace Agent

variable {may : Request V C → Prop} {ends : Answer V → Prop} {stack : List (Activation V C)}

theorem heads_code {program : Program V C} :
    Agent.Heads may ends ⟨.code program, stack⟩ ↔ program.Ends may (returns may ends stack) := by
  simp [Heads]

theorem heads_answer {a : Answer V} :
    Agent.Heads may ends ⟨.code (.answer a), stack⟩ ↔ returns may ends stack a := heads_code

theorem heads_ask {request : Request V C} {next : request.Reply → Program V C} :
    Agent.Heads may ends ⟨.code (.ask request next), stack⟩ ↔
      may request ∧ ∀ reply, Agent.Heads may ends ⟨.code (next reply), stack⟩ := by
  simp only [heads_code]
  rfl

/-- Handing an answer on to code that called for it changes nothing about the frame's answer. -/
theorem heads_call {a : Answer V} {next : Answer V → Program V C} :
    Agent.Heads may ends ⟨.code (.answer a), .call next :: stack⟩ ↔
      Agent.Heads may ends ⟨.code (next a), stack⟩ := by
  rw [heads_answer, heads_code]
  rfl

theorem heads_opened {a : Answer V} {x : ExclusiveId} :
    Agent.Heads may ends ⟨.code (.answer a), .opened x :: stack⟩ ↔
      Agent.Heads may ends ⟨.code (.answer a), stack⟩ := by
  rw [heads_answer, heads_answer]
  rfl

theorem heads_frame {a : Answer V} {t : TaskId} {f : FrameId} {after : Focus V C} :
    Agent.Heads may ends ⟨.code (.answer a), .frame t f after :: stack⟩ ↔ ends a := heads_answer

/-- Only a thread that runs a frame heads for an answer of it. -/
theorem Heads.focus {a : Agent V C} (heads : a.Heads may ends) : a.focus.run? = none := by
  obtain ⟨program, focus, _⟩ := heads
  rw [focus]
  rfl

end Agent

end Tasking
