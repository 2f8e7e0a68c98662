import Tasking.Proofs.Dealing

/-! # The requests along a run

A thread on its own makes its steps in an order that is fixed.  `Config.Traces` says that it comes from
one configuration to another, and which tasks ask for which resources on the way.
-/

namespace Tasking.Config

variable {V C : Type}

/-- The task that asks for a resource in the next step, and the resource. -/
def asks? (c : Config V C) : Option (TaskId × ResourceId) :=
  match c.agent.dealing? c.state with
  | some (.acquire r t) => some (t, r)
  | _ => none

/-- A thread goes from one configuration to another, and these requests are made on the way. -/
inductive Traces [Inhabited V] : Config V C → List (TaskId × ResourceId) → Config V C → Prop where
  | refl (c : Config V C) : Traces c [] c
  | step {c c' c'' : Config V C} {requests : List (TaskId × ResourceId)} (step : c.step = .ok c')
      (rest : Traces c' requests c'') : Traces c (c.asks?.toList ++ requests) c''

variable {st : State V C} {t : TaskId} {f : FrameId} {task : Task V}

/-- A frame that is cancelled asks for nothing. -/
theorem asks?_answer {a : Answer V} {stack : List (Activation V C)} :
    (⟨st, .code (.answer a), stack⟩ : Config V C).asks? = none := by
  unfold asks? Agent.dealing? agent Agent.resuming?
  cases (⟨.code (.answer a), stack⟩ : Agent V C).resumed? st with
  | none => rfl
  | some resumed =>
    simp only [Option.map_some, Option.bind_some, State.dealing?]
    cases st.guard? resumed.2 with
    | none => rfl
    | some guard =>
      obtain ⟨r, start | waiting | held | released⟩ := guard <;> rfl

/-- What a task asks for when its top frame is resumed. -/
theorem asks?_trampoline {after : Focus V C} {stack : List (Activation V C)}
    (found : st.tasks.get? t = some task) (top : task.top = some f) :
    (⟨st, .trampoline t after, stack⟩ : Config V C).asks? =
      match st.guard? f with
      | some (r, .start _) => if task.error.isNone then some (t, r) else none
      | _ => none := by
  unfold asks? Agent.dealing? agent Agent.resuming?
  simp only [found, top, Option.bind_eq_bind, Option.bind_some, State.dealing?]
  cases st.guard? f with
  | none => rfl
  | some guard =>
    obtain ⟨r, start | waiting | held | released⟩ := guard
    case start => cases task.error <;> rfl
    all_goals rfl

namespace Traces

variable [Inhabited V] {c c' c'' : Config V C} {requests requests' : List (TaskId × ResourceId)}

theorem one (step : c.step = .ok c') : c.Traces c.asks?.toList c' := by
  simpa using Traces.step step (.refl c')

theorem trans (first : c.Traces requests c') (second : c'.Traces requests' c'') :
    c.Traces (requests ++ requests') c'' := by
  induction first with
  | refl c => exact second
  | step step _ inductionHypothesis =>
    rw [List.append_assoc]
    exact .step step (inductionHypothesis second)

/-- A program has a request of its own served that is not one for a resource. -/
theorem ask {request : Request V C} {reply : request.Reply} {next : request.Reply → Program V C} {st' : State V C}
    {stack : List (Activation V C)} (other : request.dealing? = none) (served : st.serve request = .ok (reply, st'))
    (rest : Traces ⟨st', .code (next reply), stack⟩ requests c) :
    Traces ⟨st, .code (.ask request next), stack⟩ requests c := by
  have quiet : (⟨st, .code (.ask request next), stack⟩ : Config V C).asks? = none := by
    simp [asks?, agent, Agent.dealing?, other]
  have stepped : Config.step ⟨st, .code (.ask request next), stack⟩ = .ok ⟨st', .code (next reply), stack⟩ :=
    bind_ok.2 ⟨_, served, rfl⟩
  have whole := Traces.step stepped rest
  rwa [quiet] at whole

/-- A program creates a frame. -/
theorem newFrame {label : String} {body : Body V C} {next : FrameId → Program V C} {stack : List (Activation V C)}
    (rest : Traces ⟨(st.addFrame ⟨label, none, .host body⟩).2, .code (next st.frames.next), stack⟩ requests c) :
    Traces ⟨st, .code (.newFrame label body next), stack⟩ requests c :=
  .step rfl rest

end Traces

end Tasking.Config
