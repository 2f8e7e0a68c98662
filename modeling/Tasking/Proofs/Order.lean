import Tasking.Proofs.Turns

/-! # Regular programs stay orderly

`Crew.Orderly` holds at the beginning and is kept by every step of programs that are guarded and
regular, so it holds throughout every run of them (`Crew.Run.orderly`).
-/

namespace Tasking

open Picture

variable {V C : Type}

theorem Task.Sane.idle {task : Task V} (sane : task.Sane) (still : task.life ≠ .running)
    (awake : task.life ≠ .waiting) : task.waiting = none := by
  by_contra waits
  cases sane.waits waits with
  | inl running => exact still running
  | inr parked => exact awake parked

namespace State

variable {st st' : State V C} {t : TaskId} {task : Task V} {loose : TaskId → Prop}

/-- A task is taken up that was ready, and has not arranged to wait then. -/
theorem Booked.pickUp {w : Worker} (booked : st.Booked loose fun _ _ => 0)
    (only : ∀ u, loose u → u = t) (out : loose t ∨ task.place? = none)
    (found : st.tasks.get? t = some task) (done : st.beginRun t w = .ok st') :
    task.life = .ready ∧ st'.Balanced ∧ ∃ task', Becomes st t task' st' ∧
      task'.listed = task.listed ∧ task'.life = .running ∧ task'.arranged = false := by
  obtain ⟨_, ready, _⟩ := Quiet.beginRun done
  have life : task.life = .ready := by simpa [State.life, found] using ready
  obtain ⟨balanced, becomes⟩ := booked.beginRun only out found done
  have waitless := (booked.sane found).idle (by simp [life]) (by simp [life])
  exact ⟨life, balanced, _, becomes, rfl, rfl, by simp [Task.arranged, waitless]⟩

end State

namespace Crew.Orderly

open State

variable {c : Crew V C} {a : Agent V C} {config : Config V C} {t : TaskId} {task : Task V}
  {after : Focus V C} {stack : List (Activation V C)} {loose : TaskId → Prop}

/-- A task whose frame is not about to suspend has not arranged to wait. -/
theorem calm_of (orderly : c.Orderly) (member : a ∈ c.agents) {s : Stage}
    (run : (t, s) ∈ a.runs) (found : c.state.tasks.get? t = some task) (restless : ¬ a.Parks t) :
    task.arranged = false := by
  by_contra arranged
  exact restless (orderly.calm member run found (by simpa using arranged))

theorem get?_of_run (sound : c.Sound) (member : a ∈ c.agents) {s : Stage} (run : (t, s) ∈ a.runs) :
    ∃ task, c.state.tasks.get? t = some task ∧ task.life = .running :=
  Option.map_eq_some_iff.1 (sound.running (mem_runs member run))

theorem trampoline [Inhabited V] (orderly : c.Orderly) (sound : c.Sound)
    (member : ⟨.trampoline t after, stack⟩ ∈ c.agents)
    (step : (⟨c.state, .trampoline t after, stack⟩ : Config V C).step = .ok config) :
    Agent.Tidy c ⟨.trampoline t after, stack⟩ config (some t) := by
  have run : (t, .next) ∈ Agent.runs (⟨.trampoline t after, stack⟩ : Agent V C) := by
    simp [Agent.runs, Focus.run?]
  obtain ⟨task, found, live⟩ := get?_of_run sound member run
  have calm := orderly.calm_of member run found fun parks => by
    simpa using parks.2.choose_spec.1
  simp only [Config.step, Config.resumeTop, bind_ok, task_ok] at step
  obtain ⟨task', found', step⟩ := step
  obtain rfl := Option.some.inj (found.symm.trans found')
  cases first : task.top with
  | none => simp [first] at step
  | some f =>
    simp only [first] at step
    obtain ⟨resumption, st', resumed, rfl⟩ := Sound.resumeFrame_ok step
    -- What the frame is resumed with is taken first, which is no matter of the books.
    have becomes := becomes_modifyTask found fun task => { task with value := default, error := none }
    have balanced := orderly.balanced.modifyTask found (f := fun task =>
      { task with value := default, error := none }) fun _ => rfl
    obtain ⟨balanced', spares, task', found', listed, life, arranged⟩ :=
      Resumes.after becomes found rfl rfl (balanced.resume becomes.self live calm resumed)
    refine Agent.Tidy.turn (some .next) (some (.inside f)) rfl ?_
      (fun s behind => sound.ne_of_behind member rfl behind rfl) (by simp) balanced' spares ?_
    · cases opened : resumption.opened <;> rfl
    · intro task'' found''
      obtain rfl := Option.some.inj (found'.symm.trans found'')
      refine ⟨?_, by simp, fun waits _ => ?_⟩
      · rw [listed, life]
        exact orderly.listed found
      · obtain ⟨rfl, _⟩ := arranged waits
        exact ⟨⟨f, rfl⟩, Agent.heads_frame.2 rfl⟩

/-! ## Beginning a run -/

theorem begin (orderly : c.Orderly) {focus : Focus V C} {w : Worker} {st₁ st₂ : State V C}
    (idle : focus.run? = none) (busy : ∀ program, focus ≠ .code program)
    (absent : ∀ s, (t, s) ∉ stack.filterMap Activation.run?)
    (found : c.state.tasks.get? t = some task) {task₁ : Task V} (before : Becomes c.state t task₁ st₁)
    (listed : task₁.listed = task.listed) (ready : task.life = .ready)
    (booked : st₁.Booked loose fun _ _ => 0) (only : ∀ u, loose u → u = t)
    (out : loose t ∨ task₁.place? = none) (begun : st₁.beginRun t w = .ok st₂) :
    Agent.Tidy c ⟨focus, stack⟩ ⟨st₂, .trampoline t after, stack⟩ (some t) := by
  obtain ⟨_, balanced, task₂, becomes, listed', life, calm⟩ := booked.pickUp only out before.self begun
  refine Agent.Tidy.turn none (some .next) ?_ rfl absent (fun _ => busy) balanced
    (.of_becomes (by simp [found]) (before.trans becomes)) ?_
  · simp only [Agent.runs, idle]
    rfl
  · intro task' found'
    obtain rfl := Option.some.inj ((before.trans becomes).self.symm.trans found')
    refine ⟨?_, by simp, fun waits => by simp [calm] at waits⟩
    rw [listed', listed, orderly.listed found, ready, life]
    rfl

/-- What a thread has to see to that does nothing, or goes on with something else than code. -/
theorem stay (orderly : c.Orderly) (sound : c.Sound) {focus next : Focus V C}
    (member : ⟨focus, stack⟩ ∈ c.agents) (idle : focus.run? = none)
    (busy : ∀ program, focus ≠ .code program) (settled : next.run? = none) :
    Agent.Tidy c ⟨focus, stack⟩ ⟨c.state, next, stack⟩
      ((Agent.runs ⟨focus, stack⟩).head?.map Prod.fst) := by
  apply orderly.still sound member
  · simp only [Config.agent, Agent.runs, idle, settled]
  · rfl
  · rfl
  · intro r
    rfl
  · intro t parks
    exact absurd parks.2.choose_spec.1 (busy _)

theorem runReady (orderly : c.Orderly) (sound : c.Sound) {focus otherwise : Focus V C}
    {s : SchedulerId} {w : Worker} (member : ⟨focus, stack⟩ ∈ c.agents) (idle : focus.run? = none)
    (busy : ∀ program, focus ≠ .code program) (settled : otherwise.run? = none)
    (step : (⟨c.state, focus, stack⟩ : Config V C).runReady s w after otherwise = .ok config) :
    Agent.Tidy c ⟨focus, stack⟩ config ((Agent.runs ⟨focus, stack⟩).head?.map Prod.fst) ∨
      ∃ t, c.state.life t = some .ready ∧ Agent.Tidy c ⟨focus, stack⟩ config (some t) := by
  simp only [Config.runReady, bind_ok] at step
  obtain ⟨⟨next, st₁⟩, taken, step⟩ := step
  cases next with
  | none =>
    obtain rfl := pure_ok.1 step
    rcases takeReady_ok taken with ⟨_, rfl⟩ | ⟨_, _, impossible, _⟩
    · exact .inl (orderly.stay sound member idle busy settled)
    · simp at impossible
  | some t =>
    simp only [Config.beginRun, Config.tryState, bind_ok, pure_ok] at step
    obtain ⟨_, ⟨st₂, begun, rfl⟩, rfl⟩ := step
    obtain ⟨booked, task, found, ready, becomes⟩ := orderly.balanced.takeReady taken
    have life : c.state.life t = some .ready := by simp [State.life, found, ready]
    refine .inr ⟨t, life, orderly.begin idle busy ?_ found becomes rfl ready booked (by simp) (.inl rfl)
      begun⟩
    intro s' run
    have live := sound.running (mem_runs member (List.mem_append_right _ run))
    simp [life] at live

/-- Threads that look for something to run, or wait. -/
theorem look [Inhabited V] (orderly : c.Orderly) (sound : c.Sound) {focus : Focus V C}
    (member : ⟨focus, stack⟩ ∈ c.agents) (idle : focus.run? = none)
    (busy : ∀ program, focus ≠ .code program) (permitted : c.Guarded ⟨focus, stack⟩)
    (step : (⟨c.state, focus, stack⟩ : Config V C).step = .ok config) :
    Agent.Tidy c ⟨focus, stack⟩ config ((Agent.runs ⟨focus, stack⟩).head?.map Prod.fst) ∨
      ∃ t, c.state.life t = some .ready ∧ Agent.Tidy c ⟨focus, stack⟩ config (some t) := by
  cases focus with
  | code program => exact absurd rfl (busy program)
  | trampoline => simp [Focus.run?] at idle
  | drain s runs next => exact orderly.runReady sound member rfl busy rfl step
  | work s index => exact orderly.runReady sound member rfl busy rfl step
  | rest =>
    obtain rfl := pure_ok.1 step
    exact .inl (orderly.stay sound member rfl busy rfl)
  | own t index =>
    simp only [Config.step, Config.beginRun, Config.tryState, bind_ok, pure_ok] at step
    obtain ⟨_, ⟨st₂, begun, rfl⟩, rfl⟩ := step
    obtain ⟨⟨task, found, bound⟩, _⟩ := permitted
    obtain ⟨_, ready, _⟩ := Quiet.beginRun begun
    have life : task.life = .ready := by simpa [State.life, found] using ready
    have waitless := (orderly.balanced.sane found).idle (by simp [life]) (by simp [life])
    -- The task has a thread of its own, so it sits in no ready queue.
    have nowhere : task.place? = none := by
      simp [Task.place?, waitless, Option.isSome_iff_ne_none.1 bound]
    refine .inr ⟨t, ready, orderly.begin rfl busy ?_ found (becomes_refl found) rfl life
      orderly.balanced (fun _ => False.elim) (.inr nowhere) begun⟩
    intro s run
    have live := sound.running (mem_runs member (List.mem_append_right _ run))
    simp [ready] at live
  | waiting condition limit next =>
    simp only [Config.step, Config.keepWaiting] at step
    split at step
    · obtain rfl := pure_ok.1 step
      exact .inl (orderly.stay sound member rfl busy rfl)
    · split at step
      · exact orderly.runReady sound member rfl busy rfl step
      · obtain rfl := pure_ok.1 step
        exact .inl (orderly.stay sound member rfl busy rfl)

/-! ## Answers -/

/-- A frame that has come to its answer is about to suspend only if that is its answer. -/
theorem parks_frame {answer : Answer V} {f : FrameId} {u : TaskId}
    (parks : Agent.Parks ⟨.code (.answer answer), .frame t f after :: stack⟩ u) :
    answer = .suspended := by
  have heads := parks.2
  rwa [Agent.heads_frame] at heads

theorem suspendRun (orderly : c.Orderly) (sound : c.Sound) {f : FrameId}
    (member : ⟨.code (.answer .suspended), .frame t f after :: stack⟩ ∈ c.agents)
    (step : (⟨c.state, .code (.answer .suspended), stack⟩ : Config V C).suspendRun t after =
      .ok config) :
    Agent.Tidy c ⟨.code (.answer .suspended), .frame t f after :: stack⟩ config (some t) := by
  have settled : after.run? = none := (sound.steady _ member).stack (.frame t f after) (by simp)
  have run : (t, .inside f) ∈
      Agent.runs (⟨.code (.answer .suspended), .frame t f after :: stack⟩ : Agent V C) := by
    simp [Activation.run?]
  obtain ⟨task, found, live⟩ := get?_of_run sound member run
  simp only [Config.suspendRun, Config.tryState, bind_ok, pure_ok] at step
  obtain ⟨_, ⟨st₂, parked, rfl⟩, rfl⟩ := step
  have left : Becomes c.state t { task with worker := none } (c.state.endRun t) :=
    becomes_modifyTask found _
  have balanced : (c.state.endRun t).Balanced := orderly.balanced.modifyTask found fun _ => rfl
  obtain ⟨balanced', becomes⟩ := balanced.park left.self parked
  refine Agent.Tidy.turn (some (.inside f)) none rfl ?_
    (fun s behind => sound.ne_of_behind member rfl behind rfl) (by simp) balanced'
    (.of_becomes (by simp [found]) (left.trans becomes)) ?_
  · simp only [Config.agent, Config.goTo, Agent.runs, settled]
    rfl
  · intro task' found'
    obtain rfl := Option.some.inj (becomes.self.symm.trans found')
    have listed : task.listed = true := by simpa [live, Life.isTerminal] using orderly.listed found
    unfold Task.parked
    split <;> simp [Task.scheduled, listed, Life.isTerminal]

theorem finishFrame [Inhabited V] (orderly : c.Orderly) (sound : c.Sound) {answer : Answer V}
    {f : FrameId} {result : Except (Error V) V}
    (member : ⟨.code (.answer answer), .frame t f after :: stack⟩ ∈ c.agents)
    (ends : answer ≠ .suspended)
    (step : (⟨c.state, .code (.answer answer), stack⟩ : Config V C).finishFrame t f result after =
      .ok config) :
    Agent.Tidy c ⟨.code (.answer answer), .frame t f after :: stack⟩ config (some t) := by
  have settled : after.run? = none := (sound.steady _ member).stack (.frame t f after) (by simp)
  have run : (t, .inside f) ∈
      Agent.runs (⟨.code (.answer answer), .frame t f after :: stack⟩ : Agent V C) := by
    simp [Activation.run?]
  obtain ⟨task, found, live⟩ := get?_of_run sound member run
  have calm := orderly.calm_of member run found fun parks => ends (parks_frame parks)
  have listed : task.listed = true := by simpa [live, Life.isTerminal] using orderly.listed found
  simp only [Config.finishFrame, bind_ok, task_ok, check_ok, frame_ok] at step
  obtain ⟨task', found', _, frame, _, step⟩ := step
  cases caller : frame.caller with
  | none =>
    simp only [caller, Config.finishRun, Config.tryState, Config.mapState, bind_ok, pure_ok] at step
    obtain ⟨_, ⟨st₂, finished, rfl⟩, rfl⟩ := step
    have left : Becomes c.state t { task with top := none, worker := none }
        ((c.state.modifyTask t fun task => { task with top := none }).endRun t) :=
      (becomes_modifyTask found fun task => { task with top := none }).trans
        (becomes_modifyTask (becomes_modifyTask found _).self fun task => { task with worker := none })
    have balanced : ((c.state.modifyTask t fun task => { task with top := none }).endRun t).Balanced :=
      (orderly.balanced.modifyTask found (f := fun task => { task with top := none }) fun _ =>
        rfl).modifyTask (becomes_modifyTask found fun task => { task with top := none }).self
        (f := fun task => { task with worker := none }) fun _ => rfl
    obtain ⟨balanced', tasks⟩ := balanced.finish left.self calm listed finished
    refine Agent.Tidy.turn (some (.inside f)) none rfl ?_
      (fun s behind => sound.ne_of_behind member rfl behind rfl) (by simp) balanced'
      ⟨fun {u other} foreign known => ?_, fun {u other} known => .inl ?_⟩ ?_
    · simp only [Config.agent, Config.goTo, Agent.runs, settled]
      rfl
    · have different : u ≠ t := fun same => foreign (by rw [same])
      have known' := (left.other different).trans known
      by_cases joins : u ∈ ((c.state.modifyTask t fun task => { task with top := none }).endRun t).joiners t
      · obtain ⟨other', found'', waits⟩ := balanced.waits_of_joins joins
        obtain rfl := Option.some.inj (known'.symm.trans found'')
        refine ⟨other.woken, (tasks u).trans ?_, .woken (by simp [waits])⟩
        rw [if_neg different, if_pos joins]
        exact congrArg (Option.map Task.woken) known'
      · refine ⟨other, ?_, .refl other⟩
        exact (tasks u).trans (((if_neg different).trans (if_neg joins)).trans known')
    · by_cases same : u = t
      · simp [same, found]
      · have known' := (tasks u).symm.trans known
        rw [if_neg same, left.other same] at known'
        split at known'
        · obtain ⟨before, there, _⟩ := Option.map_eq_some_iff.1 known'
          simp [there]
        · simp [known']
    · intro task'' found''
      obtain rfl := Option.some.inj (((tasks t).trans (if_pos rfl)).symm.trans found'')
      cases result <;> simp [Task.closed, finalLife, Life.isTerminal]
  | some caller' =>
    simp only [caller] at step
    obtain rfl := pure_ok.1 step
    have becomes := becomes_modifyTask found fun task => Config.returnTo task caller' result
    have balanced : (c.state.modifyTask t fun task => Config.returnTo task caller' result).Balanced := by
      refine orderly.balanced.modifyTask found fun task => ?_
      cases result <;> rfl
    refine Agent.Tidy.turn (some (.inside f)) (some .next) rfl rfl
      (fun s behind => sound.ne_of_behind member rfl behind rfl) (by simp) balanced
      (.of_becomes (by simp [found]) becomes) ?_
    intro task'' found''
    obtain rfl := Option.some.inj (becomes.self.symm.trans found'')
    have quiet := Task.arranged_eq_false.1 calm
    cases result <;> simp [Config.returnTo, Task.arranged, listed, live, Life.isTerminal, quiet]

/-! ## Unwinding -/

theorem cancelNext [Inhabited V] (orderly : c.Orderly) (doomed : List FrameId) (sound : c.Sound) {answer : Answer V}
    {focus' : Focus V C} {x : Activation V C} {s : Stage} {st₁ : State V C} {task₁ : Task V} {target : FrameId} {value : V} {next : Focus V C}
    (member : ⟨.code (.answer answer), x :: stack⟩ ∈ c.agents) (mine : x.run? = some (t, s))
    (found : c.state.tasks.get? t = some task) (live : task.life = .running)
    (calm : task.arranged = false) (before : Becomes c.state t task₁ st₁)
    (same : task.SameBooks task₁) (balanced : st₁.Balanced)
    (step : (⟨st₁, focus', stack⟩ : Config V C).cancelNext t doomed target value
      (.trampoline t next) = .ok config) :
    Agent.Tidy c ⟨.code (.answer answer), x :: stack⟩ config (some t) := by
  have listed : task.listed = true := by simpa [live, Life.isTerminal] using orderly.listed found
  have runs : Agent.runs (⟨.code (.answer answer), x :: stack⟩ : Agent V C) =
      (t, s) :: stack.filterMap Activation.run? := by
    simp [Agent.runs, Focus.run?, mine]
  have keeps : task₁.listed = task.listed ∧ task₁.life = task.life ∧
      task₁.arranged = task.arranged := by
    rw [same]
    exact ⟨rfl, rfl, rfl⟩
  cases doomed with
  | nil =>
    obtain rfl := pure_ok.1 step
    have landed := before.trans (becomes_modifyTask before.self fun task =>
      { task with top := some target, value := value, error := none })
    have balanced' : (Config.landAt st₁ t target value).Balanced :=
      balanced.modifyTask before.self fun _ => rfl
    refine Agent.Tidy.turn (some s) (some .next) runs rfl
      (fun s' behind => sound.ne_of_behind member runs behind rfl) (by simp) balanced'
      (.of_becomes (by simp [found]) landed) ?_
    intro task' found'
    obtain rfl := Option.some.inj (landed.self.symm.trans found')
    have quiet := Task.arranged_eq_false.1 (keeps.2.2.trans calm)
    simp [Task.arranged, keeps.1, keeps.2.1, listed, live, Life.isTerminal, quiet]
  | cons f rest =>
    obtain ⟨resumption, st', resumed, rfl⟩ := Sound.resumeFrame_ok
      (show (⟨st₁, focus', stack⟩ : Config V C).resumeFrame t f default (some .cancelled)
        (.cancel t rest target value (.trampoline t next)) = .ok config from step)
    -- A frame that is resumed with an error never arranges to wait.
    obtain ⟨balanced', spares, task', found', listed', life, arranged⟩ :=
      Resumes.after before found keeps.1 keeps.2.1
        (balanced.resume before.self (keeps.2.1.trans live) (keeps.2.2.trans calm) resumed)
    refine Agent.Tidy.turn (some s) (some (.unwinding rest target)) runs ?_
      (fun s' behind => sound.ne_of_behind member runs behind rfl) (by simp) balanced' spares ?_
    · cases opened : resumption.opened <;> rfl
    · intro task'' found''
      obtain rfl := Option.some.inj (found'.symm.trans found'')
      refine ⟨?_, by simp, fun waits => by simpa using (arranged waits).2⟩
      rw [listed', life]
      exact orderly.listed found

theorem jump [Inhabited V] (orderly : c.Orderly) (sound : c.Sound) {f target : FrameId} {value : V}
    (member : ⟨.code (.answer (.jump target value)), .frame t f after :: stack⟩ ∈ c.agents)
    (step : (⟨c.state, .code (.answer (.jump target value)), stack⟩ : Config V C).jump t f target
      value after = .ok config) :
    Agent.Tidy c ⟨.code (.answer (.jump target value)), .frame t f after :: stack⟩ config
      (some t) := by
  have run : (t, .inside f) ∈ Agent.runs
      (⟨.code (.answer (.jump target value)), .frame t f after :: stack⟩ : Agent V C) := by
    simp [Activation.run?]
  obtain ⟨task, found, live⟩ := get?_of_run sound member run
  have calm := orderly.calm_of member run found fun parks => by simpa using parks_frame parks
  simp only [Config.jump, bind_ok, task_ok, frame_ok] at step
  obtain ⟨task', found', frame, code, step⟩ := step
  generalize (if task'.top = some f ∧ f ≠ target then frame.caller else task'.top) = top at step
  have moved := becomes_modifyTask found fun task => { task with top := top }
  have balanced : (c.state.modifyTask t fun task => { task with top := top }).Balanced :=
    orderly.balanced.modifyTask found fun _ => rfl
  split at step
  · -- Landing at the top is an unwind that cancels nothing.
    exact orderly.cancelNext [] sound member rfl found live calm moved rfl balanced step
  · simp only [Config.unwind, Config.mapState, bind_ok, task_ok, check_ok] at step
    obtain ⟨_, _, _, step⟩ := step
    split at step
    · exact orderly.cancelNext _ sound member rfl found live calm moved rfl balanced step
    · simp at step

theorem cancelled [Inhabited V] (orderly : c.Orderly) (sound : c.Sound) {answer : Answer V}
    {doomed : List FrameId} {target : FrameId} {value : V}
    (member : ⟨.code (.answer answer), .cancel t doomed target value after :: stack⟩ ∈ c.agents)
    (step : (⟨c.state, .code (.answer answer), stack⟩ : Config V C).cancelNext t doomed target value
      after = .ok config) :
    Agent.Tidy c ⟨.code (.answer answer), .cancel t doomed target value after :: stack⟩ config
      (some t) := by
  have run : (t, .unwinding doomed target) ∈ Agent.runs
      (⟨.code (.answer answer), .cancel t doomed target value after :: stack⟩ : Agent V C) := by
    simp [Activation.run?]
  obtain ⟨task, found, live⟩ := get?_of_run sound member run
  have calm := orderly.calm_of member run found fun parks => by
    simpa [Agent.runs, Focus.run?, Activation.run?] using parks.1.choose_spec
  obtain ⟨next, rfl, _⟩ : ∃ next, after = .trampoline t next ∧ next.run? = none :=
    (sound.steady _ member).stack (.cancel t doomed target value after) (by simp)
  exact orderly.cancelNext _ sound member rfl found live calm (becomes_refl found) rfl orderly.balanced
    step

/-! ## All steps -/

theorem deliver [Inhabited V] (orderly : c.Orderly) (sound : c.Sound) {answer : Answer V}
    (member : ⟨.code (.answer answer), stack⟩ ∈ c.agents)
    (step : (⟨c.state, .code (.answer answer), stack⟩ : Config V C).deliver answer = .ok config) :
    Agent.Tidy c ⟨.code (.answer answer), stack⟩ config
      ((stack.filterMap Activation.run?).head?.map Prod.fst) := by
  cases stack with
  | nil =>
    obtain rfl := pure_ok.1 step
    exact orderly.still sound member rfl rfl rfl (fun _ => rfl) id
  | cons x behind =>
    cases x with
    | frame t f after =>
      cases answer with
      | done value => exact orderly.finishFrame sound member (by simp) step
      | throw error => exact orderly.finishFrame sound member (by simp) step
      | suspended => exact orderly.suspendRun sound member step
      | jump target value => exact orderly.jump sound member step
    | cancel t doomed target value after => exact orderly.cancelled sound member step
    | call next =>
      obtain rfl := pure_ok.1 step
      exact orderly.still sound member rfl rfl rfl (fun _ => rfl) fun parks =>
        ⟨parks.1, Agent.heads_call.1 parks.2⟩
    | opened x =>
      obtain rfl := pure_ok.1 step
      exact orderly.still sound member rfl rfl rfl (fun _ => rfl) fun parks =>
        ⟨parks.1, Agent.heads_opened.1 parks.2⟩

/-- Every step that a proper program may make. -/
theorem tidy_of_step [Inhabited V] (orderly : c.Orderly) (sound : c.Sound) (member : a ∈ c.agents)
    (proper : c.Proper a) (step : (a.config c.state).step = .ok config) :
    a.Tidy c config (a.runs.head?.map Prod.fst) ∨
      ∃ t, c.state.life t = some .ready ∧ a.Tidy c config (some t) := by
  obtain ⟨focus, stack⟩ := a
  cases focus with
  | code program =>
    cases program with
    | answer answer => exact .inl (orderly.deliver sound member step)
    | _ => exact .inl (orderly.code sound member (by simp) proper.1 proper.2 step)
  | trampoline t after => exact .inl (orderly.trampoline sound member step)
  | _ => exact orderly.look sound member rfl (by simp) proper.1 step

end Crew.Orderly

namespace Crew

theorem orderly_initial (parallelism : Nat) : (initial parallelism : Crew V C).Orderly where
  balanced := by
    refine ⟨fun found => ?_, ⟨fun found => ?_, fun {t place} sits => ?_, fun place => ?_⟩,
      fun s scheduler found => ?_, (sound_initial parallelism).lined⟩
    · simp [initial, State.initial] at found
    · simp [initial, State.initial] at found
    · cases place <;>
        simp [initial, State.initial, State.sitters, State.waiters, State.joiners, State.queue] at sits
    · cases place <;>
        simp [initial, State.initial, State.sitters, State.waiters, State.joiners, State.queue]
    · simp [initial, State.initial] at found
  listed found := by simp [initial, State.initial] at found
  manned live := by simp [initial, State.initial, State.life] at live
  calm member := nomatch member

/-- A step that leaves all runs and all tasks where they are. -/
theorem Orderly.rest {c c' : Crew V C} (orderly : c.Orderly) (tasks : c'.state.tasks = c.state.tasks)
    (schedulers : c'.state.schedulers = c.state.schedulers)
    (waiters : ∀ r, c'.state.waiters r = c.state.waiters r) (runs : c'.runs = c.runs)
    (calm : ∀ {a t s task}, a ∈ c'.agents → (t, s) ∈ a.runs → c.state.tasks.get? t = some task →
      task.arranged = true → a.Parks t) : c'.Orderly where
  balanced := orderly.balanced.of_tables tasks schedulers waiters
  listed found := orderly.listed (tasks ▸ found)
  manned {t} live := by
    have stage : c'.stage t = c.stage t := congrArg (List.lookup t) runs
    rw [stage]
    refine orderly.manned ?_
    rwa [State.life, ← tasks]
  calm member run found := calm member run (tasks ▸ found)

variable [Inhabited V]

theorem Orderly.step {c c' : Crew V C} {label : Option (TaskId × FrameId)} (orderly : c.Orderly)
    (sound : c.Sound) (step : Step Proper c label c') : c'.Orderly := by
  have sound' : c'.Sound := (sound.step (step.mono fun _ _ proper => proper.1)).1
  cases step with
  | @act st before after a config proper step =>
    rcases orderly.tidy_of_step sound (by simp) proper step with tidy | ⟨t, ready, tidy⟩
    · refine orderly.tidy sound sound' tidy fun {b u s} member run mine => ?_
      obtain ⟨⟨t, s'⟩, first, rfl⟩ := Option.map_eq_some_iff.1 mine.symm
      obtain ⟨others, line⟩ := List.head?_eq_some_iff.1 first
      exact ne_of_mem_runs sound.distinct (show _ = entry t (some s') ++ others from line) (by simp)
        member run rfl
    · refine orderly.tidy sound sound' tidy fun {b u s} member run mine => ?_
      obtain rfl := Option.some.inj mine
      -- Nobody runs a task that is only ready.
      have live := sound.running (mem_runs (c := ⟨st, _⟩) (mem_original member) run)
      simp [ready] at live
  | @join st agents a new =>
    have idle : a.runs = [] := by cases new <;> rfl
    refine orderly.rest rfl rfl (fun _ => rfl) (by simp [runs, idle]) fun {b t s task} member run => ?_
    rcases List.mem_append.1 member with old | isNew
    · exact orderly.calm old run
    · simp [List.mem_singleton.1 isNew, idle] at run
  | @lapse st before after condition limit next stack =>
    refine orderly.rest rfl rfl (fun _ => rfl) (by simp [runs, Agent.runs, Focus.run?])
      fun {b t s task} member run found arranged => ?_
    rcases @mem_replace _ _ before after ⟨st, .code next, stack⟩ b member with rfl | old
    · have parks := orderly.calm (a := ⟨.waiting condition limit next, stack⟩) (by simp) run found arranged
      simpa using parks.2.choose_spec.1
    · exact orderly.calm (mem_original old) run found arranged
  | @switch st agents thread =>
    exact orderly.rest rfl rfl (fun _ => rfl) rfl orderly.calm

/-- Crews of proper programs stay orderly. -/
theorem Run.orderly (run : Run V C Proper) : ∀ i ≤ run.length, (run.crew i).Orderly := by
  intro i
  induction i with
  | zero =>
    intro _
    obtain ⟨parallelism, starts⟩ := run.starts
    exact starts ▸ orderly_initial parallelism
  | succ i inductionHypothesis =>
    intro bound
    have sound := (run.mono fun _ _ proper => proper.1).sound i (by exact Nat.le_of_succ_le bound)
    exact (inductionHypothesis (by omega)).step sound (run.steps i (by omega))

end Crew

end Tasking
