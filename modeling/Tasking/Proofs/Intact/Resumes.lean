import Tasking.Proofs.Intact.Requests
import Tasking.Proofs.Intact.Waits

/-! # Frames that can be resumed

`State.Admits` says what a frame needs to be resumed for a task: a guard that calls its body must not be on the
body's chain, a guard that parked or holds must have the resource, one that let go is not resumed at all, a join
that parked needs the outcome that it waited for, and a message needs its actor.
-/

namespace Tasking

open Picture

variable {V C : Type}

namespace State

variable {st : State V C} {t : TaskId} {f : FrameId} {r : ResourceId} {error : Option (Error V)}

/-- A guard can be resumed. -/
def Willing (st : State V C) (t : TaskId) (f : FrameId) (r : ResourceId) (error : Option (Error V)) : Phase V → Prop
  | .start body => error = none → st.owner r = none → ¬ Reaches st.caller f body
  | .waiting body _ => error = none ∧ st.owner r = some t ∧ ¬ Reaches st.caller f body
  | .held => st.owner r = some t
  | .released => False

/-- A frame can be resumed. -/
structure Admits (st : State V C) (t : TaskId) (f : FrameId) (error : Option (Error V)) : Prop where
  balanced : st.Balanced
  acyclic : Acyclic st.caller
  task : ∃ task, st.tasks.get? t = some task ∧ task.life = .running ∧ task.arranged = false
  guard : ∀ {r phase}, st.code? f = some (.guard r phase) → st.Willing t f r error phase
  join : ∀ {child}, st.code? f = some (.join child true) → error = none → st.Settled child
  message : ∀ {a message}, st.code? f = some (.message a message false) → error = none →
    ∃ actor exclusive, st.actors.get? a = some actor ∧ st.exclusives.get? actor.state = some exclusive ∧
      st.owner exclusive.resource = some t ∧ exclusive.inUse = false

theorem callFrame_safe (acyclic : Acyclic st.caller) {body : FrameId} (apart : ¬ Reaches st.caller f body)
    (value : V) : Safe (st.callFrame t f body value) := by
  refine .bind (attach_safe acyclic fun k same => ?_) fun _ _ => .bind (pause_safe t body) fun _ _ => .pure _
  cases same
  exact apart

namespace Admits

theorem resumeGuard_safe (admits : st.Admits t f error) {phase : Phase V}
    (code : st.code? f = some (.guard r phase)) (value : V) : Safe (st.resumeGuard t f r phase value error) := by
  have willing := admits.guard code
  have recoded : (st.setCode f (.guard r .released)).Balanced := admits.balanced.setCode f _
  have callers : (st.setCode f (.guard r .released)).caller = st.caller := caller_setCode f _
  -- The body is called from a state in which all frames return to where they returned.
  have calls {st₁ : State V C} {body : FrameId} (same : st₁.caller = st.caller) (kept : V)
      (apart : ¬ Reaches st.caller f body) : Safe ((st₁.setCode f (.guard r .held)).callFrame t f body kept) := by
    have same' : (st₁.setCode f (.guard r .held)).caller = st.caller := (caller_setCode f _).trans same
    refine callFrame_safe ?_ ?_ kept
    · rw [same']
      exact admits.acyclic
    · rwa [same']
  cases phase with
  | start body =>
    simp only [State.resumeGuard]
    cases error with
    | some error => exact .pure _
    | none =>
      obtain ⟨task, found, live, calm⟩ := admits.task
      refine .bind (recoded.acquire_safe found live calm r) fun reply asked => ?_
      obtain ⟨granted, st₁⟩ := reply
      obtain ⟨_, _, ⟨rfl, nobody, _⟩ | ⟨_, ⟨refusal, rfl, _⟩ | ⟨rfl, _⟩⟩⟩ := acquire_ok asked
      · exact calls ((caller_of_frames (frames_acquire asked)).trans callers) value (willing rfl nobody)
      · exact .pure _
      · exact .pure _
  | waiting body kept =>
    obtain ⟨rfl, owns, apart⟩ := willing
    have owns' : (st.setCode f (.guard r .released)).owns t r = true := owns_iff.2 owns
    unfold State.resumeGuard
    exact .check (by simp) (.check (by simp [owns']) (calls callers kept apart))
  | held => exact .bind (recoded.release_safe willing) fun _ _ => .pure _
  | released => exact willing.elim

theorem resumeJoin_safe (admits : st.Admits t f error) {child : TaskId} {parked : Bool}
    (code : st.code? f = some (.join child parked)) : Safe (st.resumeJoin t f child parked error) := by
  unfold State.resumeJoin
  cases error with
  | some error => exact .pure _
  | none =>
    cases parked with
    | true =>
      obtain ⟨task, found, ended⟩ := admits.join code rfl
      refine .bind (.task child) fun awaited found' => ?_
      obtain rfl := Option.some.inj (found.symm.trans (task_ok.1 found'))
      split
      · exact .pure _
      · next unfinished => exact absurd unfinished ended
    | false =>
      refine .bind (waitFor_safe t child) fun reply _ => ?_
      dsimp only
      split
      · exact .pure _
      · exact .pure _
      · exact .pure _

theorem resumeMessage_safe (admits : st.Admits t f error) {a : ActorId} {message : V} {delivered : Bool}
    (code : st.code? f = some (.message a message delivered)) (value : V) :
    Safe (st.resumeMessage t f a message delivered value error) := by
  unfold State.resumeMessage
  cases delivered with
  | true => exact .pure _
  | false =>
    cases error with
    | some error => exact .pure _
    | none =>
      obtain ⟨actor, exclusive, known, behind, owns, free⟩ := admits.message code rfl
      refine .bind (.actor a) fun actor' known' => ?_
      have there : (st.setCode f (.message a message true)).actors.get? a = some actor' := actor_ok.1 known'
      obtain rfl : actor = actor' := Option.some.inj (known.symm.trans there)
      have may : (st.setCode f (.message a message true)).mayOpen actor.state t = .ok true :=
        mayOpen_owner behind owns free
      rw [may]
      exact .pure _

theorem resume_safe (admits : st.Admits t f error) (value : V) : Safe (st.resume t f value error) := by
  refine .bind (.frame f) fun frame found => ?_
  have code : st.code? f = some frame.code := congrArg (Option.map Frame.code) (frame_ok.1 found)
  split
  · exact .pure _
  · next same => exact .bind (admits.resumeGuard_safe (same ▸ code) value) fun _ _ => .pure _
  · next same => exact .bind (admits.resumeJoin_safe (same ▸ code)) fun _ _ => .pure _
  · next same => exact admits.resumeMessage_safe (same ▸ code) value

end Admits

end State

end Tasking
