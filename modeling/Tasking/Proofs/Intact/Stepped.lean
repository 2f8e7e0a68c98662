import Tasking.Proofs.Intact.Discipline

/-! # The task that a step concerns

A step of a thread concerns the task whose run is the innermost on it, or the task whose run it begins
(`Config.concern`).  `Crew.Stepped` collects what is known of a step of a careful thread: all other runs
stay where they are, all other tasks are much like they were, and what happens to chains and ownership is
an `Effect`.
-/

namespace Tasking

open Picture

variable {V C : Type}

/-- The task that a step concerns. -/
def Config.concern (c config : Config V C) : Option TaskId :=
  match c.focus with
  | .code _ | .trampoline _ _ => c.agent.runs.head?.map Prod.fst
  | _ => config.focus.run?.map Prod.fst

theorem Config.concern_of_detours {c config : Config V C} (detours : c.focus.Detours)
    (busy : ∀ program, c.focus ≠ .code program) : c.concern config = config.focus.run?.map Prod.fst := by
  obtain ⟨st, focus, stack⟩ := c
  cases focus with
  | code program => exact absurd rfl (busy program)
  | trampoline => simp [Focus.Detours, Focus.run?] at detours
  | _ => rfl

/-- Only the innermost run of a thread resumes a frame. -/
theorem Agent.head_of_resumed {a : Agent V C} {st : State V C} {t : TaskId} {f : FrameId}
    (label : a.resumed? st = some (t, f)) : a.runs.head?.map Prod.fst = some t := by
  obtain ⟨focus, stack⟩ := a
  unfold Agent.resumed? at label
  split at label
  · next at' =>
    obtain rfl : focus = _ := at'
    obtain ⟨g, _, same⟩ := Option.map_eq_some_iff.1 label
    exact congrArg some (congrArg Prod.fst same)
  · next at' line =>
    obtain rfl : focus = _ := at'
    obtain rfl : stack = _ := line
    exact congrArg some (congrArg Prod.fst (Option.some.inj label))
  · next at' line =>
    obtain rfl : focus = _ := at'
    obtain rfl : stack = _ := line
    dsimp only at label
    split at label
    · simp at label
    · obtain ⟨g, _, same⟩ := Option.map_eq_some_iff.1 label
      exact congrArg some (congrArg Prod.fst same)
  · simp at label

theorem Agent.next_mem_runs (t : TaskId) (after : Focus V C) (stack : List (Activation V C)) :
    (t, .next) ∈ Agent.runs ⟨.trampoline t after, stack⟩ := List.mem_cons_self

/-- What was resumed has its run on top of the others. -/
theorem Agent.resumed_mem_runs {x : Activation V C} {run : TaskId × Stage} (at' : x.run? = some run)
    (program : Program V C) (opened : Option ExclusiveId) (stack : List (Activation V C)) :
    run ∈ Agent.runs ⟨.code program, (opened.map .opened).toList ++ x :: stack⟩ := by
  refine List.mem_append_right _ (List.mem_filterMap.2 ⟨x, ?_, at'⟩)
  exact List.mem_append_right _ List.mem_cons_self

/-- Code that waits for an answer runs no task by itself. -/
theorem Activation.run?_calls {extra : List (Activation V C)} (calls : ∀ x ∈ extra, x.IsCall) :
    extra.filterMap Activation.run? = [] := by
  refine List.filterMap_eq_nil_iff.2 fun x member => ?_
  have call := calls x member
  cases x with
  | call => rfl
  | _ => exact call.elim

variable [Inhabited V]

/-- A careful thread of a crew makes a step. -/
structure Crew.Stepped (c : Crew V C) (a : Agent V C) (config : Config V C) (c' : Crew V C) : Prop where
  sound : c.Sound
  orderly : c.Orderly
  cleared : c.Cleared
  sound' : c'.Sound
  orderly' : c'.Orderly
  cleared' : c'.Cleared
  careful : c.Careful a
  member : a ∈ c.agents
  member' : config.agent ∈ c'.agents
  state : c'.state = config.state
  does : (a.config c.state).Does config
  stage : ∀ {u}, some u ≠ (a.config c.state).concern config → c'.stage u = c.stage u
  spares : State.Spares ((a.config c.state).concern config) c.state config.state
  effect : ∃ runner, Effect c.picture runner (a.resumed? c.state) c'.picture
  shifts : ∀ {u}, (c.state.tasks.get? u).isSome = true → c.picture.Shifts a u c'.picture
  back : ∀ {b}, b ∈ c'.agents → b = config.agent ∨
    b ∈ c.agents ∧ ∀ {u s}, (u, s) ∈ b.runs → some u ≠ (a.config c.state).concern config
  others : ∀ {b}, b ∈ c.agents → b = a ∨ b ∈ c'.agents

namespace Crew

open State

variable {st : State V C} {before after : List (Agent V C)} {a : Agent V C} {config : Config V C}

omit [Inhabited V] in
/-- Runs of which a step has as many as before stay where they are. -/
theorem stage_other {u : TaskId} (sound : (⟨st, before ++ a :: after⟩ : Crew V C).Sound)
    (sound' : (⟨config.state, before ++ config.agent :: after⟩ : Crew V C).Sound)
    (runs : ∀ {s}, (u, s) ∈ config.agent.runs ↔ (u, s) ∈ a.runs) :
    (⟨config.state, before ++ config.agent :: after⟩ : Crew V C).stage u =
      (⟨st, before ++ a :: after⟩ : Crew V C).stage u := by
  refine Option.ext fun s => ?_
  rw [stage_eq_some_iff sound'.distinct, stage_eq_some_iff sound.distinct]
  simp only [Crew.runs, List.mem_flatMap, List.mem_append, List.mem_cons]
  constructor
  · rintro ⟨b, early | rfl | late, run⟩
    · exact ⟨b, .inl early, run⟩
    · exact ⟨a, .inr (.inl rfl), runs.1 run⟩
    · exact ⟨b, .inr (.inr late), run⟩
  · rintro ⟨b, early | rfl | late, run⟩
    · exact ⟨b, .inl early, run⟩
    · exact ⟨config.agent, .inr (.inl rfl), runs.2 run⟩
    · exact ⟨b, .inr (.inr late), run⟩

omit [Inhabited V] in
/-- A task that is taken up was ready. -/
theorem Orderly.ready_of_begins {c : Crew V C} (orderly : c.Orderly) {focus : Focus V C} {t : TaskId}
    {w : Worker} {st₁ st₂ : State V C}
    (taken : (∃ s, c.state.takeReady s = .ok (some t, st₁)) ∨
      (∃ index, focus = .own t index) ∧ st₁ = c.state)
    (begun : st₁.beginRun t w = .ok st₂) : ∃ task, c.state.tasks.get? t = some task ∧
      task.life = .ready ∧ ∃ linked, Becomes c.state t { task with linked := linked } st₁ := by
  rcases taken with ⟨s, taken⟩ | ⟨_, rfl⟩
  · obtain ⟨_, task, found, ready, becomes⟩ := orderly.balanced.takeReady taken
    exact ⟨task, found, ready, false, becomes⟩
  · obtain ⟨_, ready, _⟩ := Quiet.beginRun begun
    obtain ⟨task, found, life⟩ := Option.map_eq_some_iff.1 ready
    exact ⟨task, found, life, task.linked, becomes_refl found⟩

/-- What a step sees to, for the task that it concerns. -/
theorem Orderly.tidy_of_does {c : Crew V C} (orderly : c.Orderly) (sound : c.Sound) (member : a ∈ c.agents)
    (proper : c.Proper a) (step : (a.config c.state).step = .ok config)
    (does : (a.config c.state).Does config) :
    a.Tidy c config ((a.config c.state).concern config) ∨
      config.state = c.state ∧ config.agent.runs = a.runs := by
  have known := orderly.tidy_of_step sound member proper step
  obtain ⟨focus, stack⟩ := a
  obtain ⟨st, agents⟩ := c
  by_cases code : ∃ program, focus = .code program
  · obtain ⟨program, rfl⟩ := code
    refine .inl ?_
    cases program with
    | answer answer => exact orderly.deliver sound member step
    | _ => exact orderly.code sound member (by simp) proper.1 proper.2 step
  · cases does with
    | resumes => exact .inl (orderly.trampoline sound member step)
    | @passes _ _ next _ extra detours idle calls =>
      refine .inr ⟨rfl, ?_⟩
      simp [Config.agent, Agent.runs, detours.1, idle, Activation.run?_calls calls]
    | @begins _ st₁ st₂ _ after' t w _ detours busy settled taken begun =>
      obtain ⟨task, found, ready, _⟩ := orderly.ready_of_begins taken begun
      -- The new run is of a task that was ready, so the step concerns no other task.
      have idle : ∀ s, (t, s) ∉ Agent.runs (⟨focus, stack⟩ : Agent V C) := fun s run => by
        simpa [State.life, show st.tasks.get? t = _ from found, ready] using
          sound.running (mem_runs member run)
      have concerns : (Agent.config ⟨focus, stack⟩ st).concern
          (⟨st₂, .trampoline t after', stack⟩ : Config V C) = some t :=
        Config.concern_of_detours detours busy
      have mine : ∀ {m}, Agent.Tidy ⟨st, agents⟩ ⟨focus, stack⟩ ⟨st₂, .trampoline t after', stack⟩ m →
          m = some t := fun {m} tidy => by
        by_contra other
        exact idle .next ((tidy.runs (Ne.symm other)).1 (List.mem_append_left _ (by simp [Config.agent, Focus.run?])))
      rw [concerns]
      rcases known with tidy | ⟨u, _, tidy⟩
      · exact .inl (mine tidy ▸ tidy)
      · exact .inl (mine tidy ▸ tidy)
    | _ => exact absurd ⟨_, rfl⟩ code

omit [Inhabited V] in
theorem head_of_map {runs : List (TaskId × Stage)} {u : TaskId} (head : runs.head?.map Prod.fst = some u) :
    ∃ s others, runs = (u, s) :: others := by
  obtain ⟨⟨u, s⟩, first, rfl⟩ := Option.map_eq_some_iff.1 head
  obtain ⟨others, line⟩ := List.head?_eq_some_iff.1 first
  exact ⟨s, others, line⟩

/-- A step concerns the task whose run is innermost, or one that it takes up. -/
theorem concern_cases {u : TaskId} (does : (a.config st).Does config)
    (mine : (a.config st).concern config = some u) : (∃ s others, a.runs = (u, s) :: others) ∨
      ∃ (focus : Focus V C) (w : Worker) (st₁ st₂ : State V C), ((∃ s, st.takeReady s = .ok (some u, st₁)) ∨
        (∃ index, focus = .own u index) ∧ st₁ = st) ∧ st₁.beginRun u w = .ok st₂ := by
  obtain ⟨focus, stack⟩ := a
  by_cases code : ∃ program, focus = .code program
  · obtain ⟨program, rfl⟩ := code
    exact .inl (head_of_map mine)
  · cases does with
    | resumes => exact .inl (head_of_map mine)
    | passes detours idle =>
      rw [Config.concern_of_detours detours fun program same => code ⟨program, same⟩] at mine
      simp [idle] at mine
    | @begins _ st₁ st₂ _ _ t w _ detours busy settled taken begun =>
      rw [Config.concern_of_detours detours busy] at mine
      obtain rfl : t = u := by simpa [Focus.run?] using mine
      exact .inr ⟨focus, w, st₁, st₂, taken, begun⟩
    | _ => exact absurd ⟨_, rfl⟩ code

theorem Run.Acts.ofCareful {run : Run V C Careful} {k : Nat} (acts : run.Acts k st before a after config) :
    (run.mono fun _ _ => Careful.guarded).Acts k st before a after config :=
  ⟨acts.bound, acts.crew, acts.permitted.guarded, acts.step, acts.label, acts.next⟩

/-- Every step of a careful thread. -/
theorem Run.Acts.stepped {run : Run V C Careful} {k : Nat}
    (acts : run.Acts k st before a after config) :
    Crew.Stepped ⟨st, before ++ a :: after⟩ a config ⟨config.state, before ++ config.agent :: after⟩ := by
  have guarded := acts.ofCareful
  have sound := guarded.sound
  have sound' : (⟨config.state, before ++ config.agent :: after⟩ : Crew V C).Sound :=
    guarded.next ▸ (run.mono fun _ _ => Careful.guarded).sound (k + 1) acts.bound
  have orderly : (⟨st, before ++ a :: after⟩ : Crew V C).Orderly :=
    acts.crew ▸ (run.mono fun _ _ => Careful.proper).orderly k acts.bound.le
  have orderly' := orderly.step sound (.act acts.permitted.proper acts.step)
  have cleared : (⟨st, before ++ a :: after⟩ : Crew V C).Cleared :=
    acts.crew ▸ (run.mono fun _ _ => Careful.guarded).cleared k acts.bound.le
  have cleared' := guarded.next ▸ (run.mono fun _ _ => Careful.guarded).cleared (k + 1) acts.bound
  have does := guarded.does
  have member : a ∈ (⟨st, before ++ a :: after⟩ : Crew V C).agents := by simp
  have tidy := orderly.tidy_of_does sound member acts.permitted.proper acts.step does
  have moves : (∀ {u s}, some u ≠ (a.config st).concern config →
      ((u, s) ∈ config.agent.runs ↔ (u, s) ∈ a.runs)) ∧
      State.Spares ((a.config st).concern config) st config.state := by
    rcases tidy with tidy | ⟨state, runs⟩
    · exact ⟨fun other => tidy.runs other, tidy.spares⟩
    · exact ⟨fun _ => by rw [runs], .of_tasks (by rw [state])⟩
  obtain ⟨_, runner, effect, _⟩ := sound.goes (sound.goes_of_step member acts.permitted.guarded acts.step)
  refine ⟨sound, orderly, cleared, sound', orderly', cleared', acts.permitted, member, by simp, rfl, does,
    fun other => stage_other sound sound' (moves.1 other), moves.2, ⟨runner, effect⟩, guarded.shifts,
    fun {b} among => ?_, fun {b} among => ?_⟩
  · refine (mem_replace among).imp id fun old => ⟨mem_original old, fun {u s} run => ?_⟩
    intro mine
    rcases concern_cases does mine.symm with ⟨s', others, line⟩ | ⟨focus, w, st₁, st₂, taken, begun⟩
    · exact ne_of_mem_runs sound.distinct (show _ = entry u (some s') ++ others from line) (by simp) old run
        rfl
    · -- Nobody runs a task that is only ready.
      obtain ⟨task, found, ready, _⟩ := orderly.ready_of_begins taken begun
      simpa [State.life, found, ready] using sound.running (mem_runs (mem_original old) run)
  · simp only [List.mem_append, List.mem_cons] at among ⊢
    tauto

/-- What holds at first, and what steps and lulls keep, holds throughout a run. -/
theorem Run.keeps {P : Crew V C → Prop} (run : Run V C Careful) (first : ∀ parallelism, P (.initial parallelism))
    (step : ∀ {c c' a config}, Crew.Stepped c a config c' → P c → P c')
    (lull : ∀ {c c' : Crew V C}, c.Lulls c' → P c → P c') : ∀ k ≤ run.length, P (run.crew k) := by
  intro k
  induction k with
  | zero =>
    intro _
    obtain ⟨parallelism, starts⟩ := run.starts
    rw [starts]
    exact first parallelism
  | succ k inductionHypothesis =>
    intro bound
    have before := inductionHypothesis (by omega)
    obtain ⟨st, front, agent, behind, config, acts⟩ | lulls := run.acts_or_lulls bound
    · rw [acts.crew] at before
      rw [acts.next]
      exact step acts.stepped before
    · exact lull lulls before

namespace Stepped

variable {c c' : Crew V C} {t : TaskId} {f : FrameId}

theorem was (turn : c.Stepped a config c') {s : Stage} (run : (t, s) ∈ a.runs) : c.stage t = some s :=
  (stage_eq_some_iff turn.sound.distinct).2 (mem_runs turn.member run)

theorem now (turn : c.Stepped a config c') {s : Stage} (run : (t, s) ∈ config.agent.runs) :
    c'.stage t = some s :=
  (stage_eq_some_iff turn.sound'.distinct).2 (mem_runs turn.member' run)

/-- The run of a task is over if the thread that ran it does not any more. -/
theorem gone (turn : c.Stepped a config c') (mine : (a.config c.state).concern config = some t)
    (ended : ∀ s, (t, s) ∉ config.agent.runs) : c'.stage t = none := by
  refine Option.eq_none_iff_forall_ne_some.2 fun s stage => ?_
  obtain ⟨b, member, run⟩ := List.mem_flatMap.1 ((stage_eq_some_iff turn.sound'.distinct).1 stage)
  rcases turn.back member with rfl | ⟨_, apart⟩
  · exact ended s run
  · exact apart run mine.symm

/-- The run of a task is at one stage. -/
theorem runs_once (turn : c.Stepped a config c') {s s' : Stage} (run : (t, s) ∈ config.agent.runs)
    (run' : (t, s') ∈ config.agent.runs) : s = s' :=
  Option.some.inj ((turn.now run).symm.trans (turn.now run'))

/-- The thread that makes the step has the run of the task that it concerns. -/
theorem run_of_stage (turn : c.Stepped a config c') (mine : (a.config c.state).concern config = some t)
    {s : Stage} (stage : c'.stage t = some s) : (t, s) ∈ config.agent.runs := by
  obtain ⟨b, member, run⟩ := List.mem_flatMap.1 ((stage_eq_some_iff turn.sound'.distinct).1 stage)
  rcases turn.back member with rfl | ⟨_, apart⟩
  · exact run
  · exact absurd mine.symm (apart run)

theorem settled (turn : c.Stepped a config c') {u : TaskId} {after : Focus V C}
    (inside : .frame u f after ∈ a.stack) : after.run? = none :=
  (turn.sound.steady a turn.member).stack _ inside

/-- An unwind goes on with the run that it belongs to. -/
theorem onwards (turn : c.Stepped a config c') {u : TaskId} {doomed : List FrameId} {target : FrameId} {value : V}
    {after : Focus V C} (inside : .cancel u doomed target value after ∈ a.stack) :
    ∃ next, after = .trampoline u next ∧ next.run? = none :=
  (turn.sound.steady a turn.member).stack _ inside

/-- A thread that is done with the run of a task has no other run of it. -/
theorem ended {x : Activation V C} {focus after : Focus V C} {stack : List (Activation V C)} {st' : State V C}
    (turn : c.Stepped ⟨focus, x :: stack⟩ ⟨st', after, stack⟩ c') (idle : focus.run? = none) {s : Stage}
    (run : x.run? = some (t, s)) (settled : after.run? = none) (s' : Stage) :
    (t, s') ∉ Agent.runs ⟨after, stack⟩ := by
  have line : Agent.runs ⟨focus, x :: stack⟩ = (t, s) :: stack.filterMap Activation.run? := by
    simp [Agent.runs, idle, run]
  intro behind
  have behind' : (t, s') ∈ stack.filterMap Activation.run? := by simpa [Agent.runs, settled] using behind
  exact turn.sound.ne_of_behind turn.member line behind' rfl

/-- The chains of other tasks begin where they began. -/
theorem top_other (turn : c.Stepped a config c') {u : TaskId}
    (other : some u ≠ (a.config c.state).concern config) (known : (c.state.tasks.get? u).isSome = true) :
    config.state.top u = c.state.top u := by
  obtain ⟨task, found⟩ := Option.isSome_iff_exists.1 known
  obtain ⟨task', found', alike⟩ := turn.spares.alike other found
  rw [State.top_of_get? found', alike.top, State.top_of_get? found]

/-- A step that resumes a frame does so for the task that it concerns, and the frame is on its chain. -/
theorem concern_of_resumed (turn : c.Stepped a config c') (label : a.resumed? c.state = some (t, f)) :
    (a.config c.state).concern config = some t ∧ c.picture.OnChain t f := by
  refine ⟨?_, ?_⟩
  · have head := Agent.head_of_resumed label
    obtain ⟨focus, stack⟩ := a
    cases focus with
    | code => exact head
    | trampoline => exact head
    | _ => simp [Agent.resumed?] at label
  · obtain ⟨runner, effect⟩ := turn.effect
    rw [label] at effect
    cases effect with
    | resumed _ on => exact on

omit [Inhabited V] in
/-- A thread that is about to resume a frame has no frame that is about to suspend. -/
theorem not_parks (label : a.resumed? st = some (t, f)) : ¬ a.Parks t := by
  rintro ⟨⟨g, head⟩, program, focus, heads⟩
  obtain ⟨_, stack⟩ := a
  dsimp only at focus heads
  subst focus
  unfold Agent.resumed? at label
  split at label
  · next at' => simp at at'
  · next line =>
    obtain rfl : stack = _ := line
    simp [Agent.runs, Focus.run?, Activation.run?] at head
  · next at' line =>
    obtain rfl := Focus.code.inj at'
    obtain rfl : stack = _ := line
    simp [Program.Ends, returns] at heads
  · simp at label

/-- The task for which a frame is resumed runs, and has not arranged to wait. -/
theorem calm_of_resumed (turn : c.Stepped a config c') (label : a.resumed? c.state = some (t, f)) :
    ∃ task, c.state.tasks.get? t = some task ∧ task.life = .running ∧ task.arranged = false := by
  obtain ⟨s, others, line⟩ := head_of_map (Agent.head_of_resumed label)
  have run : (t, s) ∈ a.runs := by simp [line]
  obtain ⟨task, found, live⟩ := Orderly.get?_of_run turn.sound turn.member run
  exact ⟨task, found, live, turn.orderly.calm_of turn.member run found (not_parks label)⟩

/-- Serving a request of a careful thread. -/
theorem follows_of_served {request : Request V C} {next : request.Reply → Program V C}
    {reply : request.Reply} {stack : List (Activation V C)} {st' : State V C}
    (turn : c.Stepped ⟨.code (.ask request next), stack⟩ config c')
    (served : c.state.serve request = .ok (reply, st')) : State.Follows c.state st' := by
  obtain ⟨⟨guarded, regular⟩, _⟩ := turn.careful
  refine follows_serve turn.orderly.balanced ?_ served
  cases request with
  | tryAcquire | acquire | release | move => exact guarded.elim
  | waitFor => exact regular.elim
  | waitExternal u =>
    have parks : Agent.Parks ⟨.code (next ()), stack⟩ u := regular
    obtain ⟨⟨g, head⟩, _⟩ := parks
    have run : (u, .inside g) ∈ Agent.runs (⟨.code (.ask (.waitExternal u) next), stack⟩ : Agent V C) :=
      List.mem_of_mem_head? head
    obtain ⟨task, found, _⟩ := Orderly.get?_of_run turn.sound turn.member run
    have calm := turn.orderly.calm_of turn.member run found fun parks => by
      simpa [Request.arranges] using parks.arranges
    exact ⟨task, found, (Task.arranged_eq_false.1 calm).2⟩
  | ready | spawnBound | stop => exact regular
  | _ => trivial

end Stepped

end Crew

end Tasking
