import Tasking.Proofs.Order

/-! # What a step does, in detail

`Config.Does` tells the steps of a thread apart by what the thread is about to do, and says for each what
the next state and the next focus are made of.  `Config.does_of_step` is the only place where the
definition of a step is opened; whatever is to be kept by all steps is then shown case by case.
-/

namespace Tasking

variable {V C : Type}

/-- Nothing that runs in this focus comes to an answer before it has let others run, or let a payload be
opened. -/
def Focus.Detours (focus : Focus V C) : Prop :=
  focus.run? = none ∧ ∀ program, focus = .code program →
    (∀ answer, program ≠ .answer answer) ∧ ∀ may ends, ¬ program.Ends may ends

/-- The activations that belong to one piece of code. -/
def Activation.IsCall : Activation V C → Prop
  | .call _ => True
  | _ => False

namespace Focus

theorem detours_code {program : Program V C} (busy : ∀ answer, program ≠ .answer answer)
    (never : ∀ may ends, ¬ program.Ends may ends) : (Focus.code program).Detours :=
  ⟨rfl, by rintro _ ⟨⟩; exact ⟨busy, never⟩⟩

theorem detours_idle {focus : Focus V C} (idle : focus.run? = none)
    (busy : ∀ program, focus ≠ .code program) : focus.Detours :=
  ⟨idle, fun program same => absurd same (busy program)⟩

end Focus

namespace Config

variable [Inhabited V]

/-- What a step of a thread does. -/
inductive Does : Config V C → Config V C → Prop where
  | serves {st st' : State V C} {request : Request V C} {next : request.Reply → Program V C}
      {reply : request.Reply} {stack : List (Activation V C)} (served : st.serve request = .ok (reply, st')) :
      Does ⟨st, .code (.ask request next), stack⟩ ⟨st', .code (next reply), stack⟩
  | newFrame {st : State V C} {label : String} {body : Body V C} {next : FrameId → Program V C}
      {stack : List (Activation V C)} :
      Does ⟨st, .code (.newFrame label body next), stack⟩
        ⟨(st.addFrame ⟨label, none, .host body⟩).2, .code (next st.frames.next), stack⟩
  | newActor {st : State V C} {first : V} {handler : Handler V C} {next : ActorId → Program V C}
      {stack : List (Activation V C)} :
      Does ⟨st, .code (.newActor first handler next), stack⟩
        ⟨(st.addActor first handler).2, .code (next st.actors.next), stack⟩
  | registers {st : State V C} {g : RegistryId} {registry : Registry (Native V C)} {name : String}
      {native : Native V C} {next : Except HostError Symbol → Program V C} {reply : Except HostError Symbol}
      {stack : List (Activation V C)} :
      Does ⟨st, .code (.register g name native next), stack⟩
        ⟨st.modifyRegistry g fun _ => registry, .code (next reply), stack⟩
  /-- The thread goes on elsewhere, and nothing else happens. -/
  | passes {st : State V C} {focus next : Focus V C} {stack extra : List (Activation V C)}
      (detours : focus.Detours) (idle : next.run? = none) (calls : ∀ x ∈ extra, x.IsCall) :
      Does ⟨st, focus, stack⟩ ⟨st, next, extra ++ stack⟩
  | rests {st : State V C} {answer : Answer V} :
      Does ⟨st, .code (.answer answer), []⟩ ⟨st, .code (.answer answer), []⟩
  /-- An answer goes to the code that called for it. -/
  | hands {st : State V C} {answer : Answer V} {next : Answer V → Program V C}
      {stack : List (Activation V C)} :
      Does ⟨st, .code (.answer answer), .call next :: stack⟩ ⟨st, .code (next answer), stack⟩
  | opens {st : State V C} {x : ExclusiveId} {t : TaskId} {inside : Program V C}
      {next : Option (Answer V) → Program V C} {stack : List (Activation V C)}
      (may : st.mayOpen x t = .ok true) :
      Does ⟨st, .code (.within x t inside next), stack⟩
        ⟨st.openPayload x, .code inside, .opened x :: .call (fun answer => next (some answer)) :: stack⟩
  | closes {st : State V C} {x : ExclusiveId} {answer : Answer V} {stack : List (Activation V C)} :
      Does ⟨st, .code (.answer answer), .opened x :: stack⟩
        ⟨st.closePayload x, .code (.answer answer), stack⟩
  /-- A ready task is taken up. -/
  | begins {st st₁ st₂ : State V C} {focus after : Focus V C} {t : TaskId} {w : Worker}
      {stack : List (Activation V C)} (detours : focus.Detours) (busy : ∀ program, focus ≠ .code program)
      (settled : after.run? = none)
      (taken : (∃ s, st.takeReady s = .ok (some t, st₁)) ∨ (∃ index, focus = .own t index) ∧ st₁ = st)
      (begun : st₁.beginRun t w = .ok st₂) :
      Does ⟨st, focus, stack⟩ ⟨st₂, .trampoline t after, stack⟩
  /-- The top of a chain is resumed. -/
  | resumes {st st' : State V C} {t : TaskId} {f : FrameId} {task : Task V} {after : Focus V C}
      {resumption : Resumption V C} {stack : List (Activation V C)} (found : st.tasks.get? t = some task)
      (top : task.top = some f)
      (resumed : (st.modifyTask t fun task => { task with value := default, error := none }).resume t f
        task.value task.error = .ok (resumption, st')) :
      Does ⟨st, .trampoline t after, stack⟩ ⟨st', .code resumption.program,
        (resumption.opened.map .opened).toList ++ .frame t f after :: stack⟩
  | suspends {st st' : State V C} {t : TaskId} {f : FrameId} {after : Focus V C}
      {stack : List (Activation V C)} (parked : (st.endRun t).park t = .ok st') :
      Does ⟨st, .code (.answer .suspended), .frame t f after :: stack⟩ ⟨st', after, stack⟩
  /-- A frame finished, and its caller is resumed. -/
  | returns {st : State V C} {t : TaskId} {f caller : FrameId} {answer : Answer V}
      {result : Except (Error V) V} {task : Task V} {after : Focus V C} {stack : List (Activation V C)}
      (ends : (∃ value, answer = .done value) ∨ ∃ error, answer = .throw error)
      (found : st.tasks.get? t = some task) (top : task.top = some f) (link : st.caller f = some caller) :
      Does ⟨st, .code (.answer answer), .frame t f after :: stack⟩
        ⟨st.modifyTask t fun task => returnTo task caller result, .trampoline t after, stack⟩
  /-- The last frame of a task finished. -/
  | finishes {st st' : State V C} {t : TaskId} {f : FrameId} {answer : Answer V}
      {result : Except (Error V) V} {task : Task V} {after : Focus V C} {stack : List (Activation V C)}
      (ends : (∃ value, answer = .done value) ∨ ∃ error, answer = .throw error)
      (found : st.tasks.get? t = some task) (top : task.top = some f) (link : st.caller f = none)
      (finished : ((st.modifyTask t fun task => { task with top := none }).endRun t).finish t result =
        .ok st') :
      Does ⟨st, .code (.answer answer), .frame t f after :: stack⟩ ⟨st', after, stack⟩
  /-- A frame jumped to where its chain begins now. -/
  | lands {st : State V C} {t : TaskId} {f target : FrameId} {value : V} {task : Task V}
      {after : Focus V C} {stack : List (Activation V C)} (found : st.tasks.get? t = some task)
      (top : Agent.topAfterJump st t f target = some target) :
      Does ⟨st, .code (.answer (.jump target value)), .frame t f after :: stack⟩
        ⟨landAt (st.modifyTask t fun task => { task with top := some target }) t target value,
          .trampoline t after, stack⟩
  /-- A frame jumped further down, and the first of the frames in between is cancelled. -/
  | leaps {st st' : State V C} {t : TaskId} {f g target : FrameId} {value : V} {task : Task V}
      {rest : List FrameId} {after : Focus V C} {resumption : Resumption V C}
      {stack : List (Activation V C)} (found : st.tasks.get? t = some task)
      (top : Agent.topAfterJump st t f target = some g)
      (path : (g :: rest ++ [target]).IsChain fun f g => st.caller f = some g)
      (resumed : (st.modifyTask t fun task => { task with top := some g }).resume t g default
        (some .cancelled) = .ok (resumption, st')) :
      Does ⟨st, .code (.answer (.jump target value)), .frame t f after :: stack⟩
        ⟨st', .code resumption.program, (resumption.opened.map .opened).toList ++
          .cancel t rest target value (.trampoline t after) :: stack⟩
  /-- A cancelled frame answered, and the next one is cancelled. -/
  | cancels {st st' : State V C} {t : TaskId} {g target : FrameId} {answer : Answer V} {value : V}
      {rest : List FrameId} {after : Focus V C} {resumption : Resumption V C}
      {stack : List (Activation V C)}
      (resumed : st.resume t g default (some .cancelled) = .ok (resumption, st')) :
      Does ⟨st, .code (.answer answer), .cancel t (g :: rest) target value after :: stack⟩
        ⟨st', .code resumption.program, (resumption.opened.map .opened).toList ++
          .cancel t rest target value after :: stack⟩
  /-- The last cancelled frame answered. -/
  | unwinds {st : State V C} {t : TaskId} {target : FrameId} {answer : Answer V} {value : V}
      {after : Focus V C} {stack : List (Activation V C)} :
      Does ⟨st, .code (.answer answer), .cancel t [] target value after :: stack⟩
        ⟨landAt st t target value, after, stack⟩

variable {st : State V C} {focus after otherwise : Focus V C} {stack : List (Activation V C)}
  {config : Config V C}

open State

theorem does_of_runReady {s : SchedulerId} {w : Worker} (detours : focus.Detours)
    (busy : ∀ program, focus ≠ .code program) (settled : after.run? = none)
    (idle : otherwise.run? = none)
    (step : (⟨st, focus, stack⟩ : Config V C).runReady s w after otherwise = .ok config) :
    Does ⟨st, focus, stack⟩ config := by
  simp only [runReady, bind_ok] at step
  obtain ⟨⟨next, st₁⟩, taken, step⟩ := step
  cases next with
  | none =>
    obtain rfl := pure_ok.1 step
    rcases takeReady_ok taken with ⟨_, rfl⟩ | ⟨_, _, impossible, _⟩
    · exact @Does.passes _ _ _ _ _ _ _ [] detours idle (by simp)
    · simp at impossible
  | some t =>
    simp only [beginRun, tryState, bind_ok, pure_ok] at step
    obtain ⟨_, ⟨st₂, begun, rfl⟩, rfl⟩ := step
    exact .begins detours busy settled (.inl ⟨s, taken⟩) begun

theorem does_of_finishFrame {answer : Answer V} {t : TaskId} {f : FrameId} {result : Except (Error V) V}
    (ends : (∃ value, answer = .done value) ∨ ∃ error, answer = .throw error)
    (step : (⟨st, .code (.answer answer), stack⟩ : Config V C).finishFrame t f result after = .ok config) :
    Does ⟨st, .code (.answer answer), .frame t f after :: stack⟩ config := by
  simp only [finishFrame, bind_ok, task_ok, check_ok, frame_ok] at step
  obtain ⟨task, found, first, frame, code, step⟩ := step
  have top : task.top = some f := by simpa using first
  have link : st.caller f = frame.caller := by simp [State.caller, code]
  cases above : frame.caller with
  | none =>
    simp only [above, finishRun, tryState, mapState, bind_ok, pure_ok] at step
    obtain ⟨_, ⟨st', finished, rfl⟩, rfl⟩ := step
    exact .finishes ends found top (link.trans above) finished
  | some caller =>
    simp only [above] at step
    obtain rfl := pure_ok.1 step
    exact .returns ends found top (link.trans above)

theorem does_of_jump {t : TaskId} {f target : FrameId} {value : V}
    (step : (⟨st, .code (.answer (.jump target value)), stack⟩ : Config V C).jump t f target value after =
      .ok config) :
    Does ⟨st, .code (.answer (.jump target value)), .frame t f after :: stack⟩ config := by
  simp only [jump, bind_ok, task_ok, frame_ok] at step
  obtain ⟨task, found, frame, code, step⟩ := step
  have same : (if task.top = some f ∧ f ≠ target then frame.caller else task.top) =
      Agent.topAfterJump st t f target := by
    simp [Agent.topAfterJump, top_of_get? found, State.caller, code]
  rw [same] at step
  split at step
  · next lands =>
    obtain rfl := pure_ok.1 step
    rw [lands]
    exact .lands found lands
  · next passes =>
    simp only [unwind, mapState, bind_ok, task_ok, check_ok] at step
    obtain ⟨task', found', _, step⟩ := step
    have top : task'.top = Agent.topAfterJump st t f target := by
      rw [State.get?_modifyTask, if_pos rfl, found] at found'
      exact (congrArg Task.top (Option.some.inj found')).symm
    split at step
    · next doomed walk =>
      obtain ⟨first, path⟩ := framesAbove_some walk
      rw [top] at first
      cases doomed with
      | nil => exact absurd first.symm passes
      | cons g rest =>
        have begins : Agent.topAfterJump st t f target = some g := first.symm
        obtain ⟨resumption, st', resumed, rfl⟩ := Crew.Sound.resumeFrame_ok
          (show (⟨_, .code (.answer (.jump target value)), stack⟩ : Config V C).resumeFrame t g default
            (some .cancelled) (.cancel t rest target value (.trampoline t after)) = .ok config from step)
        rw [begins] at resumed
        exact .leaps found begins path resumed
    · simp at step

theorem does_of_deliver {answer : Answer V}
    (step : (⟨st, .code (.answer answer), stack⟩ : Config V C).deliver answer = .ok config) :
    Does ⟨st, .code (.answer answer), stack⟩ config := by
  cases stack with
  | nil =>
    obtain rfl := pure_ok.1 step
    exact .rests
  | cons x behind =>
    cases x with
    | frame t f after =>
      cases answer with
      | done value => exact does_of_finishFrame (.inl ⟨value, rfl⟩) step
      | throw error => exact does_of_finishFrame (.inr ⟨error, rfl⟩) step
      | suspended =>
        simp only [deliver, takeAnswer, suspendRun, tryState, bind_ok, pure_ok] at step
        obtain ⟨_, ⟨st', parked, rfl⟩, rfl⟩ := step
        exact .suspends parked
      | jump target value => exact does_of_jump step
    | cancel t doomed target value after =>
      cases doomed with
      | nil =>
        obtain rfl := pure_ok.1 step
        exact .unwinds
      | cons g rest =>
        obtain ⟨resumption, st', resumed, rfl⟩ := Crew.Sound.resumeFrame_ok
          (show (⟨st, .code (.answer answer), behind⟩ : Config V C).resumeFrame t g default
            (some .cancelled) (.cancel t rest target value after) = .ok config from step)
        exact .cancels resumed
    | call next =>
      obtain rfl := pure_ok.1 step
      exact .hands
    | opened x =>
      obtain rfl := pure_ok.1 step
      exact .closes

theorem does_of_code {program : Program V C}
    (tame : ∀ t target value next, program ≠ .unwind t target value next)
    (step : (⟨st, .code program, stack⟩ : Config V C).stepCode program = .ok config) :
    Does ⟨st, .code program, stack⟩ config := by
  cases program with
  | answer answer => exact does_of_deliver step
  | unwind t target value next => exact absurd rfl (tame t target value next)
  | ask request next =>
    simp only [stepCode, bind_ok, pure_ok] at step
    obtain ⟨⟨reply, st'⟩, served, rfl⟩ := step
    exact .serves served
  | newFrame label body next =>
    simp only [stepCode, pure_ok] at step
    subst step
    exact .newFrame
  | newActor first handler next =>
    simp only [stepCode, pure_ok] at step
    subst step
    exact .newActor
  | register g name native next =>
    simp only [stepCode, State.register, bind_ok, pure_ok] at step
    obtain ⟨⟨reply, st'⟩, ⟨registry, _, registered⟩, rfl⟩ := step
    simp only [Prod.mk.injEq] at registered
    obtain ⟨_, rfl⟩ := registered
    exact .registers
  | callNative g name context arguments next =>
    have detours : (Focus.code (.callNative g name context arguments next)).Detours :=
      Focus.detours_code (by simp) fun _ _ => id
    simp only [stepCode, bind_ok] at step
    obtain ⟨registry, _, step⟩ := step
    split at step
    · obtain rfl := pure_ok.1 step
      exact @Does.passes _ _ _ _ _ _ _ [] detours rfl (by simp)
    · obtain rfl := pure_ok.1 step
      exact @Does.passes _ _ _ _ _ _ _ [_] detours rfl (by simp [Activation.IsCall])
  | drive s next =>
    obtain rfl := pure_ok.1 step
    exact @Does.passes _ _ _ _ _ _ _ [] (Focus.detours_code (by simp) fun _ _ => id) rfl (by simp)
  | await condition limit next =>
    obtain rfl := pure_ok.1 step
    exact @Does.passes _ _ _ _ _ _ _ [] (Focus.detours_code (by simp) fun _ _ => id) rfl (by simp)
  | within x t inside next =>
    simp only [stepCode, bind_ok] at step
    obtain ⟨may, opens, step⟩ := step
    cases may with
    | true =>
      obtain rfl := pure_ok.1 step
      exact .opens opens
    | false =>
      obtain rfl := pure_ok.1 step
      exact @Does.passes _ _ _ _ _ _ _ [] (Focus.detours_code (by simp) fun _ _ => id) rfl (by simp)

/-- Every step of a thread that does not unwind by hand. -/
theorem does_of_step {c : Config V C}
    (tame : ∀ t target value next, c.focus ≠ .code (.unwind t target value next))
    (step : c.step = .ok config) : Does c config := by
  obtain ⟨st, focus, stack⟩ := c
  cases focus with
  | code program => exact does_of_code (fun t target value next same => tame t target value next (by rw [same])) step
  | trampoline t after =>
    simp only [Config.step, resumeTop, bind_ok, task_ok] at step
    obtain ⟨task, found, step⟩ := step
    cases top : task.top with
    | none => simp [top] at step
    | some f =>
      simp only [top] at step
      obtain ⟨resumption, st', resumed, rfl⟩ := Crew.Sound.resumeFrame_ok step
      exact .resumes found top resumed
  | drain s runs next => exact does_of_runReady (Focus.detours_idle rfl (by simp)) (by simp) rfl rfl step
  | work s index => exact does_of_runReady (Focus.detours_idle rfl (by simp)) (by simp) rfl rfl step
  | rest =>
    obtain rfl := pure_ok.1 step
    exact @Does.passes _ _ _ _ _ _ _ [] (Focus.detours_idle rfl (by simp)) rfl (by simp)
  | own t index =>
    simp only [Config.step, beginRun, tryState, bind_ok, pure_ok] at step
    obtain ⟨_, ⟨st₂, begun, rfl⟩, rfl⟩ := step
    exact .begins (Focus.detours_idle rfl (by simp)) (by simp) rfl (.inr ⟨⟨index, rfl⟩, rfl⟩) begun
  | waiting condition limit next =>
    have detours : (Focus.waiting condition limit next).Detours := Focus.detours_idle rfl (by simp)
    simp only [Config.step, keepWaiting] at step
    split at step
    · obtain rfl := pure_ok.1 step
      exact @Does.passes _ _ _ _ _ _ _ [] detours rfl (by simp)
    · split at step
      · exact does_of_runReady detours (by simp) rfl rfl step
      · obtain rfl := pure_ok.1 step
        exact @Does.passes _ _ _ _ _ _ _ [] detours rfl (by simp)

end Config

end Tasking
