import Tasking.Proofs.Deeds
import Tasking.Proofs.Orderly
import Tasking.Proofs.Steps

/-! # Steps of regular programs

Every step that regular programs may make keeps a crew orderly.
-/

namespace Tasking

open Picture

variable {V C : Type}

namespace State

variable {st st' : State V C} {t : TaskId} {task : Task V}

/-- A task that waits for an event outside sits nowhere, and waits for nothing else. -/
theorem Balanced.ready_external (balanced : st.Balanced) (found : st.tasks.get? t = some task)
    (external : task.external = true) (done : st.ready t = .ok st') :
    st'.Balanced ∧ Becomes st t task.woken st' ∧ task.waiting ≠ none := by
  have waits := (balanced.sane found).external.1 external
  have some' : task.waiting ≠ none := by simp [waits]
  refine ⟨?_, becomes_ready found done, some'⟩
  exact Booked.ready balanced found some' (.inr (by simp [Task.place?, waits])) (by simp) done

end State

namespace Agent

variable {stack : List (Activation V C)} {t : TaskId}

theorem Parks.next {request : Request V C} {next : request.Reply → Program V C}
    (parks : Agent.Parks ⟨.code (.ask request next), stack⟩ t) (reply : request.Reply) :
    Agent.Parks ⟨.code (next reply), stack⟩ t :=
  ⟨parks.1, (heads_ask.1 parks.2).2 reply⟩

/-- Once a frame is about to suspend, it arranges nothing more. -/
theorem Parks.arranges {request : Request V C} {next : request.Reply → Program V C}
    (parks : Agent.Parks ⟨.code (.ask request next), stack⟩ t) : request.arranges = false :=
  (heads_ask.1 parks.2).1

end Agent

namespace Crew.Orderly

open State

variable {c : Crew V C} {a : Agent V C} {config : Config V C}

/-- A request with which a task arranges to wait. -/
theorem arrange (orderly : c.Orderly) {focus : Focus V C} {stack : List (Activation V C)}
    {t : TaskId} {task task' : Task V} (member : ⟨focus, stack⟩ ∈ c.agents)
    (runs : config.agent.runs = Agent.runs ⟨focus, stack⟩) (found : c.state.tasks.get? t = some task)
    (parks : config.agent.Parks t) (others : ∀ {u}, ¬ Agent.Parks ⟨focus, stack⟩ u)
    (balanced : config.state.Balanced) (becomes : Becomes c.state t task' config.state)
    (listed : task'.listed = task.listed) (life : task'.life = task.life) :
    Agent.Tidy c ⟨focus, stack⟩ config ((Agent.runs ⟨focus, stack⟩).head?.map Prod.fst) := by
  obtain ⟨⟨f, head⟩, heads⟩ := parks
  have mine : (Agent.runs ⟨focus, stack⟩).head?.map Prod.fst = some t := by
    rw [← runs, head]
    rfl
  refine Agent.Tidy.still orderly member runs balanced ?_ (fun {u other} own found' => ?_)
    fun parking => absurd parking others
  · rw [mine]
    exact .of_becomes (by simp [found]) becomes
  · obtain rfl := Option.some.inj (mine.symm.trans own)
    obtain rfl := Option.some.inj (becomes.self.symm.trans found')
    exact ⟨task, found, listed, by rw [life], fun _ => .inr ⟨⟨f, head⟩, heads⟩⟩

theorem ask [Inhabited V] (orderly : c.Orderly) (sound : c.Sound) {request : Request V C}
    {next : request.Reply → Program V C} {stack : List (Activation V C)}
    (member : ⟨.code (.ask request next), stack⟩ ∈ c.agents)
    (permitted : c.picture.Permits (stack.filterMap Activation.run?).head? request)
    (allowed : c.Allows stack request next)
    (step : (⟨c.state, .code (.ask request next), stack⟩ : Config V C).step = .ok config) :
    Agent.Tidy c ⟨.code (.ask request next), stack⟩ config
      ((stack.filterMap Activation.run?).head?.map Prod.fst) := by
  simp only [Config.step, Config.stepCode, bind_ok, pure_ok] at step
  obtain ⟨⟨reply, st'⟩, served, rfl⟩ := step
  have live : ∀ {t s}, (t, s) ∈ Agent.runs (⟨.code (.ask request next), stack⟩ : Agent V C) →
      c.state.life t = some .running := fun run => sound.running (mem_runs member run)
  have alike : st'.Balanced → Spares none c.state st' →
      Agent.Tidy c ⟨.code (.ask request next), stack⟩ ⟨st', .code (next reply), stack⟩
        ((stack.filterMap Activation.run?).head?.map Prod.fst) := fun balanced spares =>
    Agent.Tidy.still_alike orderly member rfl balanced spares (fun parks => parks.next reply) live
  cases request with
  | tryAcquire | acquire | release | move => exact permitted.elim
  | waitFor => exact allowed.elim
  | spawn s entry =>
    simp only [serve, spawn, bind_ok, scheduler_ok] at served
    obtain ⟨scheduler, found, served⟩ := served
    split at served
    · simp only [pure_ok, Prod.mk.injEq] at served
      obtain ⟨_, rfl⟩ := served
      exact alike orderly.balanced (.refl _)
    · simp only [pure_ok, Prod.mk.injEq] at served
      obtain ⟨_, rfl⟩ := served
      have balanced := orderly.balanced.spawned entry none (s := s) (by simp [found])
      have tasks := @get?_spawned _ _ c.state _ s entry none
      refine alike balanced ⟨fun {u task} _ known => ⟨task, ?_, .refl task⟩, fun {u task} known => ?_⟩
      · exact (tasks u).trans ((if_neg (Table.ne_next_of_get? known)).trans known)
      · have known' := (tasks u).symm.trans known
        split at known'
        · obtain rfl := Option.some.inj known'
          exact .inr ⟨.inl rfl, rfl, rfl, rfl⟩
        · exact .inl (by simp [known'])
  | spawnBound s entry =>
    obtain ⟨balanced, tasks | ⟨new, ready, listed, error, top, tasks⟩⟩ :=
      orderly.balanced.spawnBound allowed served
    · exact alike balanced (.of_tasks tasks)
    · refine alike balanced ⟨fun {u task} _ known => ⟨task, ?_, .refl task⟩, fun {u task} known => ?_⟩
      · exact (tasks u).trans ((if_neg (Table.ne_next_of_get? known)).trans known)
      · have known' := (tasks u).symm.trans known
        split at known'
        · obtain rfl := Option.some.inj known'
          exact .inr ⟨.inr ready, listed, error, by simp [top]⟩
        · exact .inl (by simp [known'])
  | stop s =>
    simp only [serve, bind_ok, pure_ok, Prod.mk.injEq] at served
    obtain ⟨_, stopped, _, rfl⟩ := served
    obtain ⟨balanced, tasks⟩ := orderly.balanced.stop allowed stopped
    exact alike balanced (.of_tasks tasks)
  | start t =>
    simp only [serve, bind_ok, pure_ok, Prod.mk.injEq] at served
    obtain ⟨_, started, _, rfl⟩ := served
    obtain ⟨task, found⟩ : ∃ task, c.state.tasks.get? t = some task := by
      simp only [State.start, bind_ok, task_ok] at started
      exact ⟨started.choose, started.choose_spec.1⟩
    obtain ⟨new, _⟩ := start_ok found started
    obtain ⟨balanced, becomes⟩ := orderly.balanced.start found started
    refine alike balanced (.of_alike found becomes ⟨rfl, rfl, rfl, ?_, ?_, ?_⟩)
    · simp [Task.scheduled, new, Life.isTerminal]
    · simp [Task.scheduled, new]
    · simp [new]
  | ready t =>
    simp only [serve, bind_ok, pure_ok, Prod.mk.injEq] at served
    obtain ⟨_, woken, _, rfl⟩ := served
    obtain ⟨task, found, external⟩ := allowed
    obtain ⟨balanced, becomes, waits⟩ := orderly.balanced.ready_external found external woken
    exact alike balanced (.of_alike found becomes (.woken waits))
  | yield t =>
    simp only [serve, bind_ok, pure_ok, Prod.mk.injEq] at served
    obtain ⟨_, yielded, _, rfl⟩ := served
    have run : (t, _) ∈ Agent.runs (⟨.code (.ask (.yield t) next), stack⟩ : Agent V C) :=
      List.mem_of_mem_head? allowed.1.choose_spec
    obtain ⟨task, found, life⟩ := Option.map_eq_some_iff.1 (live run)
    have calm : task.arranged = false := by
      by_contra arranged
      have parks := orderly.calm member run found (by simpa using arranged)
      simpa [Request.arranges] using parks.arranges
    obtain ⟨balanced, becomes⟩ := orderly.balanced.yield found (Task.arranged_eq_false.1 calm).2 yielded
    exact orderly.arrange member rfl found allowed
      (fun {u} parks => by simpa [Request.arranges] using parks.arranges) balanced becomes rfl rfl
  | waitExternal t =>
    simp only [serve, bind_ok, pure_ok, Prod.mk.injEq] at served
    obtain ⟨_, announced, _, rfl⟩ := served
    have run : (t, _) ∈ Agent.runs (⟨.code (.ask (.waitExternal t) next), stack⟩ : Agent V C) :=
      List.mem_of_mem_head? allowed.1.choose_spec
    obtain ⟨task, found, life⟩ := Option.map_eq_some_iff.1 (live run)
    have calm : task.arranged = false := by
      by_contra arranged
      have parks := orderly.calm member run found (by simpa using arranged)
      simpa [Request.arranges] using parks.arranges
    obtain ⟨balanced, becomes⟩ := orderly.balanced.waitExternal found calm announced
    exact orderly.arrange member rfl found allowed
      (fun {u} parks => by simpa [Request.arranges] using parks.arranges) balanced becomes rfl rfl
  | pause t f =>
    simp only [serve, bind_ok, pure_ok, Prod.mk.injEq] at served
    obtain ⟨_, paused, _, rfl⟩ := served
    obtain ⟨s, head, _⟩ := permitted
    obtain ⟨known, rfl⟩ := pause_ok paused
    obtain ⟨task, found⟩ := Option.isSome_iff_exists.1 known
    have becomes := becomes_modifyTask found fun task => { task with top := some f }
    refine Agent.Tidy.still orderly member rfl (orderly.balanced.modifyTask found fun _ => rfl) ?_
      (fun {u task'} mine found' => ?_) fun parks => parks.next ()
    · rw [Agent.runs_code, head]
      exact .of_becomes known becomes
    · obtain rfl : t = u := by simpa [head] using mine
      obtain rfl := Option.some.inj (becomes.self.symm.trans found')
      exact ⟨task, found, rfl, rfl, .inl⟩
  | newScheduler settings g =>
    obtain ⟨balanced, tasks⟩ := orderly.balanced.addScheduler served
    exact alike balanced (.of_tasks tasks)
  | _ =>
    obtain ⟨tasks, schedulers, _, waiters⟩ := serve_bookless rfl served
    exact alike (orderly.balanced.of_tables tasks schedulers waiters) (.of_tasks tasks)

/-- A step of code that touches no tasks, no schedulers and no lines. -/
theorem still (orderly : c.Orderly) (sound : c.Sound) (member : a ∈ c.agents)
    (runs : config.agent.runs = a.runs) (tasks : config.state.tasks = c.state.tasks)
    (schedulers : config.state.schedulers = c.state.schedulers)
    (waiters : ∀ r, config.state.waiters r = c.state.waiters r)
    (parks : ∀ {t}, a.Parks t → config.agent.Parks t) :
    a.Tidy c config (a.runs.head?.map Prod.fst) :=
  Agent.Tidy.still_alike orderly member runs (orderly.balanced.of_tables tasks schedulers waiters)
    (.of_tasks tasks) parks fun run => sound.running (mem_runs member run)

/-- Programs that only create something, or call something. -/
theorem code [Inhabited V] (orderly : c.Orderly) (sound : c.Sound) {program : Program V C}
    {stack : List (Activation V C)} (member : ⟨.code program, stack⟩ ∈ c.agents)
    (busy : ∀ answer, program ≠ .answer answer) (permitted : c.Guarded ⟨.code program, stack⟩)
    (allowed : c.Regular ⟨.code program, stack⟩)
    (step : (⟨c.state, .code program, stack⟩ : Config V C).step = .ok config) :
    Agent.Tidy c ⟨.code program, stack⟩ config ((stack.filterMap Activation.run?).head?.map Prod.fst) := by
  -- Code that lets others run is not about to suspend.
  have busies : (∀ may ends, ¬ program.Ends may ends) → ∀ {t}, Agent.Parks ⟨.code program, stack⟩ t →
      config.agent.Parks t := fun never {t} parks => by
    obtain ⟨_, program', same, heads⟩ := parks
    obtain rfl : program = program' := by simpa using same
    exact absurd heads (never _ _)
  cases program with
  | answer answer => exact absurd rfl (busy answer)
  | unwind => exact permitted.elim
  | ask request next => exact orderly.ask sound member permitted allowed step
  | newFrame label body next =>
    simp only [Config.step, Config.stepCode, pure_ok] at step
    subst step
    exact orderly.still sound member rfl rfl rfl (fun _ => rfl) fun parks =>
      ⟨parks.1, Agent.heads_code.2 (Agent.heads_code.1 parks.2 _)⟩
  | newActor first handler next =>
    simp only [Config.step, Config.stepCode, pure_ok] at step
    subst step
    exact orderly.still sound member rfl rfl rfl (State.waiters_addResource none) fun parks =>
      ⟨parks.1, Agent.heads_code.2 (Agent.heads_code.1 parks.2 _)⟩
  | register g name native next =>
    simp only [Config.step, Config.stepCode, State.register, bind_ok, pure_ok] at step
    obtain ⟨⟨reply, st'⟩, ⟨registry, _, registered⟩, rfl⟩ := step
    simp only [Prod.mk.injEq] at registered
    obtain ⟨_, rfl⟩ := registered
    exact orderly.still sound member rfl rfl rfl (fun _ => rfl) fun parks =>
      ⟨parks.1, Agent.heads_code.2 (Agent.heads_code.1 parks.2 _)⟩
  | callNative g name context arguments next =>
    simp only [Config.step, Config.stepCode, bind_ok] at step
    obtain ⟨registry, _, step⟩ := step
    split at step
    · obtain rfl := pure_ok.1 step
      exact orderly.still sound member rfl rfl rfl (fun _ => rfl) (busies fun _ _ => id)
    · obtain rfl := pure_ok.1 step
      exact orderly.still sound member rfl rfl rfl (fun _ => rfl) (busies fun _ _ => id)
  | drive s next =>
    obtain rfl := pure_ok.1 step
    exact orderly.still sound member rfl rfl rfl (fun _ => rfl) (busies fun _ _ => id)
  | await condition limit next =>
    obtain rfl := pure_ok.1 step
    exact orderly.still sound member rfl rfl rfl (fun _ => rfl) (busies fun _ _ => id)
  | within x t inside next =>
    simp only [Config.step, Config.stepCode, bind_ok] at step
    obtain ⟨may, _, step⟩ := step
    split at step
    · obtain rfl := pure_ok.1 step
      exact orderly.still sound member rfl rfl rfl (fun _ => rfl) (busies fun _ _ => id)
    · obtain rfl := pure_ok.1 step
      exact orderly.still sound member rfl rfl rfl (fun _ => rfl) (busies fun _ _ => id)

end Crew.Orderly

end Tasking
