import Tasking.Proofs.Parked.Return

/-! # Suspended computations are resumed untouched

Tasks that mind their own frames find their computations as they left them: from the step in which a task parks
or yields until a thread resumes it, its chain, the frames on it, and the value and the error for its top frame
stay as they are, whatever other tasks do in between (`Crew.Run.resumed_untouched`).  The thread then resumes
that top frame, without an error, and with the value that was there.  That is the default value, unless the task
had unwound itself by hand since it was resumed before.
-/

namespace Tasking

variable {V C : Type} [Inhabited V] {home : FrameId → TaskId}

open State

namespace Config

variable {c config : Config V C} {t : TaskId}

/-- A thread that leaves the run of a task does so because a frame of the task suspended, or because its last frame
finished. -/
theorem leaves_of_does (does : Does c config) (leaves : c.agent.inHand = t :: config.agent.inHand) :
    (∃ st st' f after stack, c = ⟨st, .code (.answer .suspended), .frame t f after :: stack⟩ ∧
      (st.endRun t).park t = .ok st' ∧ config = ⟨st', after, stack⟩) ∨
    ∃ result, ∃ st : State V C, (st.endRun t).finish t result = .ok config.state := by
  cases does with
  | suspends parked =>
    obtain ⟨rfl, _⟩ := List.cons.inj leaves
    exact .inl ⟨_, _, _, _, _, rfl, parked, rfl⟩
  | finishes ends found top link finished =>
    obtain ⟨rfl, _⟩ := List.cons.inj leaves
    exact .inr ⟨_, _, finished⟩
  | passes detours idle calls =>
    simp [Config.agent, Agent.inHand, Focus.inHand_of_idle detours.1, Focus.inHand_of_idle idle,
      Activation.inHand_calls calls] at leaves
  | begins detours busy settled =>
    have longer := congrArg List.length leaves
    simp only [Config.agent, Agent.inHand, Focus.inHand_of_idle detours.1, Focus.inHand, List.length_append,
      List.length_cons, List.length_nil] at longer
    omega
  | _ =>
    -- All that was in hand stays so.
    simp [Config.agent, Agent.inHand, Focus.inHand, Activation.inHand, Activation.inHand_opened,
      -List.flatMap_append] at leaves

/-- A running task comes to a rest only as its frame suspends. -/
theorem suspends_of_rest (unmoved : ∀ request next, c.focus = .code (.ask request next) → Unmoving c.state request)
    (live : c.state.life t = some .running) (step : c.step = .ok config)
    (rests : config.state.life t = some .ready ∨ config.state.life t = some .waiting) :
    ∃ st st' f after stack, c = ⟨st, .code (.answer .suspended), .frame t f after :: stack⟩ ∧
      (st.endRun t).park t = .ok st' ∧ config = ⟨st', after, stack⟩ := by
  have stopped : config.state.life t ≠ some .running := by
    rintro runs
    simp [runs] at rests
  have leaves : c.agent.inHand = t :: config.agent.inHand := by
    cases course_of_step unmoved step with
    | deeds deeds inHand => exact absurd (continues_of_deeds deeds t live) stopped
    | @begins u w st₁ taken begun inHand =>
      obtain ⟨quiet, _, running⟩ := Quiet.beginRun begun
      have earlier : Continues c.state st₁ := by
        obtain ⟨s, _, taken⟩ | ⟨_, rfl⟩ := taken
        · exact fun _ => (Quiet.takeReady taken).running
        · exact fun _ => id
      exact absurd (quiet.running (earlier t live)) stopped
    | @parks u st₁ aside parked inHand =>
      by_cases same : u = t
      · exact same ▸ inHand
      · exact absurd ((Stops.park parked).1.live (Ne.symm same) (Continues.of_aside aside t live)) stopped
    | @finishes u result st₁ aside finished inHand =>
      by_cases same : u = t
      · exact same ▸ inHand
      · exact absurd (continues_of_finish finished (Ne.symm same) (Continues.of_aside aside t live)) stopped
  have tame : ∀ u target value next, c.focus ≠ .code (.unwind u target value next) := by
    rintro u target value next focus
    obtain ⟨st, _, stack⟩ := c
    obtain rfl : _ = Focus.code _ := focus
    have stays := (deeds_of_unwind Unmoving (show (⟨st, .code (.unwind u target value next), stack⟩ :
      Config V C).unwind u target value (.code next) = .ok config from step)).2
    simp [Config.agent, Agent.inHand, Focus.inHand] at leaves stays
    simp [stays] at leaves
  obtain suspends | ⟨result, st, finished⟩ := leaves_of_does (does_of_step tame step) leaves
  · exact suspends
  · obtain ⟨task, found⟩ := exists_of_task finished
    obtain ⟨life, ended, terminal⟩ := (ends_of_finish found (becomes_refl found) rfl rfl rfl rfl finished).terminal
    rw [ended] at rests
    obtain same | same := rests <;> simp [Option.some.inj same, Life.isTerminal] at terminal

end Config

omit [Inhabited V] in
/-- A thread resumes a frame only for a task that it has in hand. -/
theorem Agent.inHand_of_resumed {a : Agent V C} {st : State V C} {t : TaskId} {f : FrameId}
    (anchored : Activation.Anchored a.stack) (resumes : a.resumed? st = some (t, f)) : t ∈ a.inHand := by
  unfold Agent.resumed? at resumes
  split at resumes
  · next focus =>
    obtain ⟨g, _, same⟩ := Option.map_eq_some_iff.1 resumes
    cases same
    rw [Agent.inHand, focus]
    exact List.mem_cons_self
  · next stack =>
    cases resumes
    rw [stack] at anchored
    rw [Agent.inHand, stack]
    exact List.mem_append_right _ (Activation.inHand_of_runner anchored rfl)
  · next stack =>
    dsimp only at resumes
    split at resumes
    · cases resumes
    · obtain ⟨g, _, same⟩ := Option.map_eq_some_iff.1 resumes
      cases same
      rw [Agent.inHand, stack]
      exact List.mem_append_right _ List.mem_cons_self
  · cases resumes

namespace Crew

variable {c c' : Crew V C} {t : TaskId} {f : FrameId} {label : Option (TaskId × FrameId)}

/-- As a task parks, its thread leaves it as it is. -/
theorem dormant_of_rest (unshared : c.Unshared) (step : Step (Minds home) c label c')
    (live : c.state.life t = some .running)
    (rests : c'.state.life t = some .ready ∨ c'.state.life t = some .waiting) :
    t ∈ c.inHand ∧ (∀ after stack, ⟨.trampoline t after, stack⟩ ∉ c.agents) ∧
      State.Respects home (· = t) c.state c'.state ∧ c'.Dormant t := by
  have stopped : c'.state.life t ≠ some .running := by
    rintro runs
    simp [runs] at rests
  cases step with
  | @act st before behind a config minds step =>
    have unmoved : ∀ request next, (a.config st).focus = .code (.ask request next) → Unmoving st request := by
      rintro request next focus u target rfl
      simpa [Unmoved, show a.focus = _ from focus] using unmoved_of_minds minds
    obtain ⟨_, st', f, after, stack, here, parked, rfl⟩ := Config.suspends_of_rest unmoved live step rests
    obtain ⟨focus, behindStack⟩ := a
    cases here
    have mine : t ∈ (⟨.code (.answer .suspended), .frame t f after :: stack⟩ : Agent V C).inHand :=
      List.mem_cons_self
    refine ⟨(inHand_perm st before behind _).mem_iff.2 (List.mem_append_left _ mine), fun next below member => ?_,
      ?_, ?_, ?_, fun member => ?_⟩
    · -- Whoever is about to resume the task is this thread, which waits for an answer.
      have same := unshared.focus_of_trampoline member List.mem_cons_self mine
      cases same
    · exact .of_steady ((steady_endRun st t).trans (steady_park parked)) (Stops.park parked).1.frames
    · obtain same | same := rests <;> simp [same]
    · obtain same | same := rests <;> simp [same]
    · have once := (inHand_perm st before behind _).nodup_iff.1 unshared.once
      rw [show (⟨.code (.answer .suspended), .frame t f after :: stack⟩ : Agent V C).inHand =
        t :: (after.inHand ++ stack.flatMap Activation.inHand) from rfl, List.cons_append, List.nodup_cons] at once
      exact absurd ((inHand_perm st' before behind _).mem_iff.1 member) once.1
  | join => exact absurd live stopped
  | lapse => exact absurd live stopped
  | switch => exact absurd live stopped

/-- The step that resumes a frame of a dormant task resumes its top frame. -/
theorem Dormant.reenters (dormant : c.Dormant t) (housed : c.Housed home) (unshared : c.Unshared)
    (step : Step (Minds home) c label c') (resumes : label = some (t, f)) {top : Option FrameId} {value : V}
    {error : Option (Error V)} (register : (c.state.tasks.get? t).map Task.register = some (top, value, error)) :
    top = some f ∧ Reenters t f value error c c' := by
  cases step with
  | @act st before behind a config minds step =>
    have mine : t ∈ a.inHand := Agent.inHand_of_resumed (housed.agents a (by simp)).anchored resumes
    obtain ⟨after, stack, member⟩ :=
      dormant.idle ((inHand_perm st before behind a).mem_iff.2 (List.mem_append_left _ mine))
    obtain rfl := unshared.focus_of_trampoline member List.mem_cons_self mine
    obtain ⟨task, g, resumption, st', found, here, resumed, rfl⟩ := Config.trampoline_ok step
    obtain ⟨task', found', same⟩ := Option.map_eq_some_iff.1 register
    obtain rfl := Option.some.inj (found.symm.trans found')
    cases same
    have : some (t, g) = some (t, f) := by
      rw [← resumes]
      simp [Agent.resumed?, State.top, found, here]
    cases this
    exact ⟨here, before, behind, after, stack, resumption, rfl, resumed, rfl⟩
  | join => cases resumes
  | lapse => cases resumes
  | switch => cases resumes

namespace Run

/-- In a step of a run a task parks or yields. -/
def Parks {allowed : Crew V C → Agent V C → Prop} (run : Run V C allowed) (t : TaskId) (i : Nat) : Prop :=
  i < run.length ∧ (run.crew i).state.life t = some .running ∧
    ((run.crew (i + 1)).state.life t = some .ready ∨ (run.crew (i + 1)).state.life t = some .waiting)

variable {run : Run V C (Minds home)} {i n : Nat}

/-- Until it is resumed, a task that parked is respected and nobody has it in hand. -/
theorem Parks.dormant (parks : run.Parks t i) (later : i < n) (bound : n ≤ run.length)
    (rests : ∀ m, i < m → m < n → ∀ f, run.resumed m ≠ some (t, f)) :
    State.Respects home (· = t) (run.crew i).state (run.crew n).state ∧ (run.crew n).Dormant t := by
  have unshared := (run.mono fun _ _ => unmoved_of_minds).unshared
  induction n with
  | zero => omega
  | succ n inductionHypothesis =>
    rcases Nat.lt_succ_iff_lt_or_eq.1 later with earlier | rfl
    · obtain ⟨respects, dormant⟩ := inductionHypothesis earlier (by omega) fun m after before => rests m after (by omega)
      obtain ⟨respects', dormant'⟩ := dormant.step (run.housed n (by omega)) (unshared n (by omega : n ≤ run.length))
        (run.steps n bound) (rests n earlier n.lt_succ_self)
      exact ⟨respects.trans respects', dormant'⟩
    · exact (dormant_of_rest (unshared i parks.1.le) (run.steps i parks.1) parks.2.1 parks.2.2).2.2

/-- From the step in which a task parks or yields until a step resumes a frame of it, its chain and its registers
stay as they are, and a thread that takes the task up goes straight to its top frame.  The frame that is resumed is
the top of that chain, and it is resumed without an error and with the default value, or with what the task had
unwound itself with. -/
theorem resumed_untouched (run : Run V C (Minds home)) {t : TaskId} {i n : Nat} (parks : run.Parks t i)
    (later : i < n) (bound : n ≤ run.length)
    (rests : ∀ m, i < m → m < n → ∀ f, run.resumed m ≠ some (t, f)) :
    State.Intact t (run.crew i).state (run.crew n).state ∧
      (t ∈ (run.crew n).inHand → ∃ after stack, ⟨.trampoline t after, stack⟩ ∈ (run.crew n).agents) ∧
      ∃ top value, ((run.crew i).state.tasks.get? t).map Task.register = some (top, value, none) ∧
        (value = default ∨ run.Unwound t i) ∧
        (n < run.length → ∀ f, run.resumed n = some (t, f) →
          top = some f ∧ (run.crew n).Reenters t f value none (run.crew (n + 1))) := by
  have unshared := (run.mono fun _ _ => unmoved_of_minds).unshared
  obtain ⟨respects, dormant⟩ := parks.dormant later bound rests
  obtain ⟨short, live, rest⟩ := parks
  obtain ⟨inHand, away, _⟩ := dormant_of_rest (unshared i short.le) (run.steps i short) live rest
  obtain ⟨task, found, _⟩ := Option.map_eq_some_iff.1 live
  have here := run.housed i short.le
  have there := run.housed n bound
  have intact := respects.intact here.state here.acyclic there.acyclic found
  obtain ⟨error, was⟩ := (run.fed t i short.le task inHand found).resolve_left fun ⟨after, stack, member⟩ =>
    away after stack member
  have register : ((run.crew i).state.tasks.get? t).map Task.register = some (task.top, task.value, none) := by
    rw [found, Option.map_some, Task.register, error]
  refine ⟨intact, dormant.idle, task.top, task.value, register, was.symm.imp_left And.left, fun goesOn f resumes => ?_⟩
  exact dormant.reenters there (unshared n bound) (run.steps n goesOn) resumes (intact.register.trans register)

end Run

/-! ### A task that waits in line -/

/-- The body of a guard, which yields when it runs for the first time. -/
def linger (again : CellId) : Body Bool Bool := fun context _ _ =>
  .ask (.read again) fun
    | true => .answer (.done true)
    | false => .ask (.write again true) fun _ => .ask (.yield context.task) fun _ => .answer .suspended

/-- Two tasks go for one resource.  The second one calls its guard with a value. -/
def queuers : Program Bool Bool :=
  .ask (.newCell false) fun again =>
  .ask .newRegistry fun g =>
  .ask (.newScheduler .manual g) fun
    | .error _ => .answer .suspended
    | .ok s =>
      .ask (.newResource none) fun r =>
      .newFrame "linger" (linger again) fun inside =>
      .ask (.newGuard r inside) fun first =>
      .newFrame "linger" (linger again) fun later =>
      .newFrame "call" (fun context back _ =>
        if back then .answer (.done true)
        else
          .ask (.newGuard r later) fun guard =>
          .ask (.attach guard (some context.frame)) fun _ =>
          .ask (.pause context.task guard) fun _ => .answer (.jump guard true)) fun second =>
      .ask (.spawn s first) fun
      | .error _ => .answer .suspended
      | .ok t => .ask (.spawn s second) fun
        | .error _ => .answer .suspended
        | .ok u => .ask (.start t) fun _ => .ask (.start u) fun _ => .drive s fun _ => .answer (.done true)

/-- The host of the two tasks after so many steps. -/
def queuersHost (n : Nat) : Config Bool Bool := (Config.start (.initial 1) queuers).after n

def queuersHome (f : FrameId) : TaskId := if f.number ≤ 2 then ⟨1⟩ else ⟨2⟩

theorem queuers_ok : ∀ n < 45, (queuersHost n).step.isOk = true := by decide +kernel

theorem queuers_minds : ∀ n < 45, Minds queuersHome (queuersHost n).alone (queuersHost n).agent := by
  intro n bound
  interval_cases n
  case «5» | «23» => exact ⟨rfl, rfl⟩
  case «8» | «9» => exact ⟨rfl, rfl⟩
  case «24» => exact ⟨.inl rfl, by rintro g ⟨⟩; exact ⟨rfl, rfl⟩⟩
  case «25» => exact ⟨.inl rfl, rfl, rfl⟩
  all_goals trivial

def queuersRun : Run Bool Bool (Minds queuersHome) := .ofHost 1 queuers 45 queuers_ok queuers_minds

/-- The second task waits in line while the first one runs, finishes and hands the resource over. -/
theorem queuers_resumed :
    queuersRun.Parks ⟨2⟩ 29 ∧ State.Intact ⟨2⟩ (queuersRun.crew 29).state (queuersRun.crew 37).state ∧
      (queuersRun.crew 37).Reenters ⟨2⟩ ⟨5⟩ false none (queuersRun.crew 38) := by
  have parks : queuersRun.Parks ⟨2⟩ 29 := ⟨by decide, by decide +kernel, by decide +kernel⟩
  have rests : ∀ m, 29 < m → m < 37 → ∀ f, queuersRun.resumed m ≠ some (⟨2⟩, f) := by
    have others : ∀ m < 37, 29 < m → (queuersRun.resumed m).map Prod.fst ≠ some ⟨2⟩ := by decide +kernel
    intro m after before f resumes
    exact others m before after (by rw [resumes]; rfl)
  obtain ⟨intact, _, top, value, register, _, resumes⟩ :=
    Run.resumed_untouched queuersRun parks (show 29 < 37 by decide) (by decide) rests
  have here : ((queuersRun.crew 29).state.tasks.get? ⟨2⟩).map Task.register = some (some ⟨5⟩, false, none) := rfl
  obtain ⟨_, rfl, _⟩ : some (⟨5⟩ : FrameId) = top ∧ false = value ∧ (none : Option (Error Bool)) = none := by
    simpa using here.symm.trans register
  exact ⟨parks, intact, (resumes (by decide) ⟨5⟩ (by decide +kernel)).2⟩

/-! ### Two tasks that do find something else -/

/-- A frame unwinds its task to itself with a value and yields.  It finishes once it gets that value. -/
def rewinder : Program Bool Bool :=
  .ask .newRegistry fun g =>
  .ask (.newScheduler .manual g) fun
    | .error _ => .answer .suspended
    | .ok s =>
      .newFrame "rewind" (fun context value _ =>
        if value then .answer (.done true)
        else .unwind context.task context.frame true
          (.ask (.yield context.task) fun _ => .answer .suspended)) fun entry =>
      .ask (.spawn s entry) fun
      | .error _ => .answer .suspended
      | .ok t => .ask (.start t) fun _ => .drive s fun _ => .answer (.done true)

/-- The host of the task after so many steps. -/
def rewinderHost (n : Nat) : Config Bool Bool := (Config.start (.initial 1) rewinder).after n

theorem rewinder_ok : ∀ n < 15, (rewinderHost n).step.isOk = true := by decide +kernel

theorem rewinder_minds : ∀ n < 15, Minds (fun _ => ⟨1⟩) (rewinderHost n).alone (rewinderHost n).agent := by
  intro n bound
  interval_cases n
  case «3» => exact ⟨rfl, rfl⟩
  case «8» => rfl
  all_goals trivial

def rewinderRun : Run Bool Bool (Minds fun _ => ⟨1⟩) := .ofHost 1 rewinder 15 rewinder_ok rewinder_minds

/-- What threads do whose code minds its own frames, and may also set the stage of the task that it runs for. -/
def Meddles (home : FrameId → TaskId) (c : Crew V C) (a : Agent V C) : Prop :=
  c.Minds home a ∨ ∃ t target next, a.focus = .code (.ask (.move t target) next) ∧ Activation.runner? a.stack = some t

/-- A frame sets its task aside, wakes it and drives the scheduler, which parks the task.  Then it puts another frame
on top. -/
def selfDriver : Program Bool Bool :=
  .ask (.newCell false) fun again =>
  .ask .newRegistry fun g =>
  .ask (.newScheduler .manual g) fun
    | .error _ => .answer .suspended
    | .ok s =>
      .newFrame "other" (fun _ _ _ => .answer (.done true)) fun other =>
      .newFrame "drive" (fun context _ _ =>
        .ask (.read again) fun
        | true => .ask (.waitExternal context.task) fun _ => .answer .suspended
        | false => .ask (.write again true) fun _ =>
          .ask (.move context.task .waiting) fun _ => .ask (.ready context.task) fun _ =>
          .drive s fun _ => .ask (.pause context.task other) fun _ => .answer .suspended) fun entry =>
      .ask (.spawn s entry) fun
      | .error _ => .answer .suspended
      | .ok t => .ask (.start t) fun _ => .drive s fun _ => .answer (.done true)

/-- The host of the task after so many steps. -/
def selfDriverHost (n : Nat) : Config Bool Bool := (Config.start (.initial 1) selfDriver).after n

theorem selfDriver_ok : ∀ n < 22, (selfDriverHost n).step.isOk = true := by decide +kernel

theorem selfDriver_meddles :
    ∀ n < 22, Meddles (fun _ => ⟨1⟩) (selfDriverHost n).alone (selfDriverHost n).agent := by
  intro n bound
  interval_cases n
  case «5» => exact .inl ⟨rfl, rfl⟩
  case «12» => exact .inr ⟨_, _, _, rfl, rfl⟩
  case «21» => exact .inl ⟨.inl rfl, rfl, rfl⟩
  all_goals exact .inl trivial

def selfDriverRun : Run Bool Bool (Meddles fun _ => ⟨1⟩) :=
  .ofHost 1 selfDriver 22 selfDriver_ok selfDriver_meddles

theorem rewinder_refed : ¬ (rewinderRun.crew 13).Reenters ⟨1⟩ ⟨1⟩ default none (rewinderRun.crew 14) := by
  rintro ⟨before, behind, after, stack, resumption, _, resumed, agents⟩
  have sole : (rewinderRun.crew 14).agents.map Agent.focus = [.code (.answer (.done true))] := rfl
  have unwinds : ∃ next, resumption.program = .unwind ⟨1⟩ ⟨1⟩ true next := by
    cases resumed
    exact ⟨_, rfl⟩
  obtain ⟨next, program⟩ := unwinds
  have member : Focus.code (.unwind ⟨1⟩ ⟨1⟩ true next) ∈ (rewinderRun.crew 14).agents.map Agent.focus := by
    rw [agents, program]
    simp
  rw [sole, List.mem_singleton] at member
  cases member

/-- The first task is resumed with what it had unwound itself with.  The second one finds another top frame. -/
theorem rewinder_resumed :
    (rewinderRun.Parks ⟨1⟩ 11 ∧ rewinderRun.resumed 12 = none ∧ rewinderRun.resumed 13 = some (⟨1⟩, ⟨1⟩) ∧
      ¬ (rewinderRun.crew 13).Reenters ⟨1⟩ ⟨1⟩ default none (rewinderRun.crew 14)) ∧
    selfDriverRun.Parks ⟨1⟩ 20 ∧ (∀ m < 23, 20 < m → selfDriverRun.resumed m = none) ∧
      ¬ State.Intact ⟨1⟩ (selfDriverRun.crew 21).state (selfDriverRun.crew 23).state := by
  refine ⟨⟨⟨by decide, by decide +kernel, by decide +kernel⟩, by decide +kernel, by decide +kernel, rewinder_refed⟩,
    ⟨by decide, by decide +kernel, by decide +kernel⟩, by decide +kernel, fun intact => ?_⟩
  have top := congrArg (Option.map Prod.fst) intact.register
  revert top
  decide +kernel

end Crew

end Tasking
