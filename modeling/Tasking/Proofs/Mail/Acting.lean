import Tasking.Proofs.Mail.Discretion

/-! # Steps of threads in a run

`Crew.Run.Acts` says which thread makes a step of a run, and what follows for whatever it has nothing to do with: frames
that nobody names stay out of it (`Acts.shuns`), and frames that a guard called stay where they are while another thread
runs them (`Acts.mounted`).
-/

namespace Tasking

variable {V C : Type}

open Picture

namespace State

variable {st st' : State V C} {r : ResourceId} {g b : FrameId}

/-- A frame was called by a guard that holds its resource: it returns to the guard, nothing returns to the frame, and
nobody will call it again. -/
structure Mounted (st : State V C) (r : ResourceId) (g b : FrameId) : Prop where
  link : st.caller b = some g
  uncalled : ∀ h, st.caller h ≠ some b
  unkept : ∀ h, st.awaited? h ≠ some b
  guard : st.code? g = some (.guard r .held)

theorem guard?_of_code? {phase : Phase V} (code : st.code? g = some (.guard r phase)) :
    st.guard? g = some (r, phase) := by
  obtain ⟨frame, found, same⟩ := Option.map_eq_some_iff.1 code
  rw [guard?_of_get? found, same]
  rfl

theorem Mounted.of_does [Inhabited V] {c config : Config V C} (mounted : c.state.Mounted r g b)
    (acyclic : Acyclic c.state.caller) {a : ActorId} {message : V} {delivered : Bool}
    (code : c.state.code? b = some (.message a message delivered))
    (unmentioned : ∀ request next, c.focus = .code (.ask request next) → ¬ request.Mentions b)
    (unlanded : ∀ u target value after rest, c.stack = .cancel u [] target value after :: rest → target ≠ b)
    (calm : ∀ u, c.agent.resumed? c.state ≠ some (u, g)) (does : c.Does config) : config.state.Mounted r g b := by
  have plain : c.state.awaited? b = none := by rw [awaited?, code]
  obtain skirts | ⟨t, f, calls⟩ := Config.skirts_of_does mounted.uncalled unlanded unmentioned (.inl plain) does
  · refine ⟨skirts.link.trans mounted.link, fun h link => mounted.uncalled h (skirts.caller h link), fun h awaits => ?_,
      Config.code?_kept acyclic does mounted.guard calm⟩
    obtain old | ⟨r', next, focus⟩ | ⟨rfl, _⟩ := Config.awaited_of_does acyclic does awaits
    · exact mounted.unkept h old
    · exact unmentioned _ _ focus rfl
    · simp [code?_next] at code
  · exact absurd calls.state.awaited (mounted.unkept f)

/-- A message that was delivered is not forgotten. -/
theorem Stirs.read {f : FrameId} {resumption : Resumption V C} (stirs : Stirs st f resumption st') {a : ActorId}
    {message : V} (code : st.code? b = some (.message a message true)) :
    st'.code? b = some (.message a message true) := by
  by_cases same : b = f
  · subst same
    cases stirs with
    | runs here | delivers here | turns here | frees here | parks here => simp [code] at here
    | passes made final frames => exact (code?_of_frames frames b).trans code
  · exact (stirs.code?_ne same).trans code

/-- Delivering its message leaves a frame where it is. -/
theorem Mounted.delivered (mounted : st.Mounted r g b) {a : ActorId} {message : V}
    (unread : st.code? b = some (.message a message false))
    (frames : st'.frames = (st.setCode b (.message a message true)).frames) :
    st'.Mounted r g b ∧ st'.code? b = some (.message a message true) := by
  have codes : st'.code? = Function.update st.code? b (some (.message a message true)) :=
    Stirs.codes_of_setCode unread frames
  have callers : st'.caller = st.caller := (caller_of_frames frames).trans (caller_setCode b _)
  have apart : g ≠ b := by
    rintro rfl
    exact absurd (unread.symm.trans mounted.guard) (by simp)
  refine ⟨⟨?_, fun h => ?_, fun h awaits => ?_, ?_⟩, ?_⟩
  · rw [callers, mounted.link]
  · rw [callers]
    exact mounted.uncalled h
  · by_cases same : h = b
    · simp [awaited?, codes, same] at awaits
    · rw [awaited?, codes, Function.update_of_ne same] at awaits
      exact mounted.unkept h awaits
  · rw [codes, Function.update_of_ne apart, mounted.guard]
  · rw [codes, Function.update_self]

end State

namespace Config

open State

variable [Inhabited V] {st : State V C} {config : Config V C}

/-- Code that has a payload open leaves what its task is resumed with next. -/
theorem retains_of_open {x : ExclusiveId} {p : Program V C} {rest : List (Activation V C)}
    (unforced : ∀ request next, p = .ask request next → st.Unmoving request)
    (does : Does ⟨st, .code p, .opened x :: rest⟩ config) : Retains (fun _ => True) st config.state := by
  cases does with
  | serves served => exact retains_serve (unforced _ _ rfl) served
  | newFrame | newActor | registers | opens | closes => exact .of_tasks rfl
  | passes => exact .refl _
  | begins detours busy => exact absurd rfl (busy _)

end Config

namespace Crew

open State

theorem mem_of_moved {before behind : List (Agent V C)} {config : Config V C} {other : Agent V C}
    (same : config.agent = other) : other ∈ before ++ config.agent :: behind := by
  rw [same]
  exact List.mem_append_right _ List.mem_cons_self

/-- No chain begins with a frame, none returns to it, and no thread has anything to do with it. -/
structure Shuns (c : Crew V C) (b : FrameId) : Prop where
  state : c.state.Shuns b
  threads : ∀ agent ∈ c.agents, ∀ y ∈ agent.stack, ¬ y.Mentions b

theorem Waits.shuns {c c' : Crew V C} (waits : Waits c c') {b : FrameId} (shuns : c.Shuns b) : c'.Shuns b := by
  obtain ⟨st', agents'⟩ := c'
  obtain ⟨thread, rfl⟩ := waits.state
  refine ⟨⟨shuns.state.top, shuns.state.caller⟩, fun agent member y inside => ?_⟩
  obtain ⟨agent', member', inside'⟩ := waits.stack member inside
  exact shuns.threads agent' member' y inside'

theorem Discreet.spares {a : ActorId} {c : Crew V C} {agent : Agent V C} (discreet : c.Discreet a agent) {b : FrameId}
    {message : V} {delivered : Bool} (code : c.state.code? b = some (.message a message delivered)) :
    ∀ request next, agent.focus = .code (.ask request next) → ¬ request.Mentions b := by
  intro request next focus
  have confides := discreet.2
  rw [focus] at confides
  exact confides.1 b message delivered code

/-- The top of a task's chain is in use. -/
theorem Sound.uses_top {c : Crew V C} (sound : c.Sound) {agent : Agent V C} (member : agent ∈ c.agents) {t : TaskId}
    {f : FrameId} {s : Stage} (run : (t, s) ∈ agent.runs) (calm : ∀ doomed target, s ≠ .unwinding doomed target)
    (top : c.state.top t = some f) : c.picture.Uses t f := by
  refine .inl (.of_base ((base_of_top fun doomed target stage => ?_).trans top))
  exact calm doomed target (Option.some.inj ((sound.stage_of_run member run).symm.trans stage))

namespace Run

variable [Inhabited V] {allowed : Crew V C → Agent V C → Prop} {run : Run V C allowed} {k : Nat}

/-- At this step, a thread makes a step. -/
structure Acts (run : Run V C allowed) (k : Nat) (st : State V C) (before : List (Agent V C)) (agent : Agent V C)
    (behind : List (Agent V C)) (config : Config V C) : Prop where
  bound : k < run.length
  crew : run.crew k = ⟨st, before ++ agent :: behind⟩
  permitted : allowed ⟨st, before ++ agent :: behind⟩ agent
  step : (agent.config st).step = .ok config
  label : run.resumed k = agent.resumed? st
  next : run.crew (k + 1) = ⟨config.state, before ++ config.agent :: behind⟩

theorem acts_or_waits (bound : k < run.length) :
    (∃ st before agent behind config, run.Acts k st before agent behind config) ∨
      run.resumed k = none ∧ Waits (run.crew k) (run.crew (k + 1)) := by
  obtain ⟨st, before, behind, agent, config, crew, permitted, step, label, next⟩ | waits :=
    (run.steps k bound).acts_or_waits
  · rw [crew] at permitted
    exact .inl ⟨st, before, agent, behind, config, bound, crew, permitted, step, label, next⟩
  · exact .inr waits

/-- At this step, a guard that has not asked for its resource yet is given an error, or it asks and is refused; it
throws that error. -/
structure Refuses {allowed : Crew V C → Agent V C → Prop} (run : Run V C allowed) (i : Nat) (t : TaskId)
    (g b : FrameId) (r : ResourceId) (e : Error V) : Prop where
  bound : i < run.length
  resumed : run.resumed i = some (t, g)
  start : (run.crew i).state.guard? g = some (r, .start b)
  ended : (run.crew (i + 1)).state.guard? g = some (r, .released)
  cause : ∃ agent ∈ (run.crew i).agents, ∃ value error,
    (agent.config (run.crew i).state).resume? = some ⟨g, value, error⟩ ∧
      (error = some e ∨ error = none ∧ ∃ refusal, e = .deadlock refusal)
  throws : ∃ agent ∈ (run.crew (i + 1)).agents, agent.focus = .code (.answer (.throw e)) ∧
    ∃ y rest, agent.stack = y :: rest ∧
      ((∃ after, y = .frame t g after) ∨ ∃ doomed target value after, y = .cancel t doomed target value after)

theorem Acts.refuses {st : State V C} {before behind : List (Agent V C)} {agent : Agent V C} {config : Config V C}
    (acts : run.Acts k st before agent behind config) {t : TaskId} {g b : FrameId} {r : ResourceId} {e : Error V}
    (label : agent.resumed? st = some (t, g)) (start : st.code? g = some (.guard r (.start b))) {value : V}
    {error : Option (Error V)} {st₁ : State V C} {y : Activation V C} {rest : List (Activation V C)}
    (given : (agent.config st).Given t g value error st₁ y rest)
    (onwards : config.agent = ⟨.code (.answer (.throw e)), y :: rest⟩)
    (ended : config.state.code? g = some (.guard r .released))
    (cause : error = some e ∨ error = none ∧ ∃ refusal, e = .deadlock refusal) : run.Refuses k t g b r e := by
  refine ⟨acts.bound, acts.label.trans label, ?_, ?_, ⟨agent, ?_, value, error, ?_, cause⟩,
    ⟨config.agent, ?_, ?_, y, rest, ?_, ?_⟩⟩
  · rw [acts.crew]
    exact guard?_of_code? start
  · rw [acts.next]
    exact guard?_of_code? ended
  · rw [acts.crew]
    exact List.mem_append_right _ List.mem_cons_self
  · rw [acts.crew]
    exact given.resume? label
  · rw [acts.next]
    exact List.mem_append_right _ List.mem_cons_self
  · rw [onwards]
  · rw [onwards]
  · cases given with
    | top => exact .inl ⟨_, rfl⟩
    | cancelled => exact .inr ⟨_, _, _, _, rfl⟩

section Guarded

variable {run : Run V C Guarded} {st : State V C} {before behind : List (Agent V C)} {agent other : Agent V C}
  {config : Config V C} {t : TaskId} {s : Stage}

theorem Acts.sound (acts : run.Acts k st before agent behind config) :
    (⟨st, before ++ agent :: behind⟩ : Crew V C).Sound := acts.crew ▸ run.sound k acts.bound.le

theorem Acts.does (acts : run.Acts k st before agent behind config) : (agent.config st).Does config :=
  Config.does_of_step acts.permitted.tame acts.step

theorem Acts.acyclic (acts : run.Acts k st before agent behind config) :
    Acyclic (agent.config st).state.caller := acts.sound.warded.acyclic

theorem Acts.code (acts : run.Acts k st before agent behind config) {f : FrameId} {code : Frame.Code V (Body V C)}
    (here : st.code? f = some code) (unresumed : ∀ u, agent.resumed? st ≠ some (u, f)) :
    config.state.code? f = some code := Config.code?_kept acts.acyclic acts.does here unresumed

/-- Nobody else steps on a frame of a task that another thread runs. -/
theorem Acts.aside (acts : run.Acts k st before agent behind config) (member : other ∈ before ++ behind)
    (run' : (t, s) ∈ other.runs) :
    Sidelines st agent (⟨st, before ++ agent :: behind⟩ : Crew V C).stage config t :=
  acts.sound.sidelines acts.permitted acts.step member run'

theorem Acts.uses_top (acts : run.Acts k st before agent behind config) (member : other ∈ before ++ behind)
    (run' : (t, s) ∈ other.runs) (calm : ∀ doomed target, s ≠ .unwinding doomed target) {f : FrameId}
    (top : st.top t = some f) : (⟨st, before ++ agent :: behind⟩ : Crew V C).picture.Uses t f :=
  acts.sound.uses_top (mem_original member) run' calm top

theorem Acts.uses_inside (acts : run.Acts k st before agent behind config) (member : other ∈ before ++ behind)
    {f : FrameId} (run' : (t, .inside f) ∈ other.runs) :
    (⟨st, before ++ agent :: behind⟩ : Crew V C).picture.Uses t f :=
  .inr (acts.sound.stage_of_run (mem_original member) run')

/-- A frame that put another one on top jumps there, and the task goes on with that. -/
theorem Acts.lands {g b : FrameId} {v : V} {after : Focus V C} {rest : List (Activation V C)}
    (acts : run.Acts k st before ⟨.code (.answer (.jump b v)), .frame t g after :: rest⟩ behind config)
    (top : st.top t = some b) (apart : b ≠ g) : config.agent = ⟨.trampoline t after, rest⟩ ∧
      config.state.frames = st.frames ∧
      ∃ task, config.state.tasks.get? t = some task ∧ task.top = some b ∧ task.inputs = (v, none) := by
  have begins : Agent.topAfterJump st t g b = some b := by
    simp [Agent.topAfterJump, top, apart]
  have does : Config.Does ⟨st, .code (.answer (.jump b v)), .frame t g after :: rest⟩ config := acts.does
  cases does with
  | @lands _ _ _ _ _ task _ _ found =>
    refine ⟨rfl, rfl, { task with top := some b, value := v, error := none }, ?_, rfl, rfl⟩
    simp [Config.landAt, get?_modifyTask, found]
  | leaps found top' path =>
    obtain rfl := Option.some.inj (begins.symm.trans top')
    exact absurd rfl (acts.acyclic.ne_of_path path)
  | returns ends | finishes ends => obtain ⟨_, same⟩ | ⟨_, same⟩ := ends <;> cases same
  | passes detours => exact absurd rfl ((detours.2 _ rfl).1 _)
  | begins detours busy => exact absurd rfl (busy _)

/-- A frame that finishes leaves its result with its caller, which is next. -/
theorem Acts.hands_back {f g : FrameId} {result : Except (Error V) V} {after : Focus V C} {rest : List (Activation V C)}
    (acts : run.Acts k st before ⟨.code (.answer (.ofResult result)), .frame t f after :: rest⟩ behind config)
    (link : st.caller f = some g) (cleared : ∃ task, st.tasks.get? t = some task ∧ task.inputs = (default, none)) :
    config.agent = ⟨.trampoline t after, rest⟩ ∧ config.state.frames = st.frames ∧ config.state.top t = some g ∧
      ∃ task, config.state.tasks.get? t = some task ∧ Answer.forward task.value task.error = .ofResult result := by
  obtain ⟨task, found, inputs⟩ := cleared
  obtain ⟨value, error⟩ : task.value = default ∧ task.error = none := by simpa [Task.inputs] using inputs
  obtain ⟨rootless, _⟩ | ⟨g', link', rfl⟩ := Config.step_finishes acts.step
  · exact absurd (rootless.symm.trans link) (by simp)
  · obtain rfl := Option.some.inj (link.symm.trans link')
    have now : (st.modifyTask t fun task => Config.returnTo task g result).tasks.get? t =
        some (Config.returnTo task g result) := by
      rw [get?_modifyTask, if_pos rfl, found, Option.map_some]
    refine ⟨rfl, rfl, ?_, _, now, ?_⟩
    · rw [top_of_get? now]
      cases result <;> rfl
    · cases result with
      | ok value => simp [Config.returnTo, error, Answer.forward, Answer.ofResult]
      | error error => rfl

/-- A guard that is resumed after its body lets go, and finishes with what its task has for it. -/
theorem Acts.lets_go {r : ResourceId} {g : FrameId} {task : Task V} {after : Focus V C} {rest : List (Activation V C)}
    (acts : run.Acts k st before ⟨.trampoline t after, rest⟩ behind config)
    (guard : st.code? g = some (.guard r .held)) (top : st.top t = some g) (found : st.tasks.get? t = some task) :
    run.Releases k t g r ∧ (run.crew (k + 1)).state.owner r ≠ some t ∧
      config.agent = ⟨.code (.answer (.forward task.value task.error)), .frame t g after :: rest⟩ := by
  have label : (⟨.trampoline t after, rest⟩ : Agent V C).resumed? st = some (t, g) := by simp [Agent.resumed?, top]
  have releases : run.Releases k t g r := by
    refine releases_of_held acts.bound (acts.label.trans label) ?_
    rw [acts.crew]
    exact guard?_of_code? guard
  refine ⟨releases, fun owns => ?_, ?_⟩
  · -- The task is not in line for what it owns.
    have waits : t ∈ st.waiters r := by
      rw [releases.owner, Function.update_self] at owns
      have first := List.mem_of_mem_head? owns
      rwa [acts.crew] at first
    obtain ⟨h, body, value, top', waiting, _⟩ := acts.sound.warded.queued waits
    obtain rfl : g = h := Option.some.inj (top.symm.trans top')
    exact absurd ((guard?_of_code? guard).symm.trans waiting) (by simp)
  · obtain ⟨value, error, st₁, resumption, y, rest', given, resumed, onwards⟩ :=
      Config.given_of_does acts.acyclic acts.does label
    cases given with
    | cancelled focus => cases focus
    | @top task' after' focus found' first' =>
      obtain rfl := Option.some.inj (found.symm.trans found')
      obtain ⟨_, rfl⟩ : t = t ∧ after = after' := by simpa [Agent.config] using focus
      have guard' : (st.unloaded t).code? g = some (.guard r .held) := guard
      obtain ⟨answer, rfl, heeds⟩ := heeds_resume guard' resumed
      cases heeds with
      | calls none' calls =>
        have awaited := calls.awaited
        rw [awaited?, guard'] at awaited
        cases awaited
      | letsGo keeps code => exact onwards

/-- A frame that nobody has to do with stays so unless the guard that is to call it does so. -/
theorem Acts.shuns (acts : run.Acts k st before agent behind config) {b : FrameId}
    (shuns : (⟨st, before ++ agent :: behind⟩ : Crew V C).Shuns b)
    (unmentioned : ∀ request next, agent.focus = .code (.ask request next) → ¬ request.Mentions b) :
    (⟨config.state, before ++ config.agent :: behind⟩ : Crew V C).Shuns b ∨
      ∃ t f, (agent.config st).Calls t f b config := by
  have mine : (agent.config st).Shuns b := ⟨shuns.state, shuns.threads agent (by simp)⟩
  refine (Config.shuns_of_does mine unmentioned acts.does).imp_left fun after => ?_
  refine ⟨after.state, fun other member => ?_⟩
  obtain rfl | old := mem_replace member
  · exact after.stack
  · exact shuns.threads other (mem_original old)

end Guarded

section Discreet

variable {a : ActorId} {run : Run V C (Discreet a)} {r : ResourceId} {g b : FrameId} {message : V} {st : State V C}
  {before behind : List (Agent V C)} {agent other : Agent V C} {config : Config V C} {t : TaskId} {s : Stage}

/-- A run of discreet programs is one of guarded programs. -/
abbrev guarded (run : Run V C (Discreet a)) : Run V C Guarded := run.mono fun _ _ discreet => discreet.1

theorem Acts.guarded (acts : run.Acts k st before agent behind config) :
    run.guarded.Acts k st before agent behind config :=
  ⟨acts.bound, acts.crew, acts.permitted.1, acts.step, acts.label, acts.next⟩

theorem Acts.read (acts : run.Acts k st before agent behind config)
    (code : st.code? b = some (.message a message true)) :
    config.state.code? b = some (.message a message true) := by
  cases Config.code?_of_does acts.guarded.acyclic acts.guarded.does b with
  | same kept => exact kept.trans code
  | resumed label stirs => exact stirs.read code
  | made unused => exact absurd (unused.symm.trans code) (by simp)

/-- A frame that a guard called, and that another thread runs, stays where it is. -/
theorem Acts.mounted (acts : run.Acts k st before agent behind config) (mounted : st.Mounted r g b) {delivered : Bool}
    (code : st.code? b = some (.message a message delivered)) (aside : Sidelines st agent
      (⟨st, before ++ agent :: behind⟩ : Crew V C).stage config t)
    (uses : (⟨st, before ++ agent :: behind⟩ : Crew V C).picture.Uses t b) :
    config.state.Mounted r g b ∧ config.state.code? b = some (.message a message delivered) := by
  have below : (⟨st, before ++ agent :: behind⟩ : Crew V C).picture.Uses t g :=
    .inl (acts.guarded.sound.warded.uses_caller uses mounted.link)
  refine ⟨mounted.of_does acts.guarded.acyclic code (acts.permitted.spares code) ?_ (aside.unresumed below) acts.guarded.does,
    acts.guarded.code code (aside.unresumed uses)⟩
  exact aside.unlanded uses

/-- A frame that runs the handler of its actor stays where it is. -/
theorem Acts.mounted_open (acts : run.Acts k st before agent behind config) {x : ExclusiveId} {p : Program V C}
    {rest : List (Activation V C)} (same : agent = ⟨.code p, .opened x :: rest⟩) (mounted : st.Mounted r g b)
    {delivered : Bool} (code : st.code? b = some (.message a message delivered)) : config.state.Mounted r g b := by
  subst same
  refine mounted.of_does acts.guarded.acyclic code (acts.permitted.spares code) ?_ (fun u => ?_) acts.guarded.does
  · intro u target value after rest' stack
    simp [Agent.config] at stack
  · simp [Config.agent, Agent.config, Agent.resumed?]

/-- A frame that delivers its message runs the handler with the state of the actor open, and nobody had it open
before. -/
theorem Acts.opens (acts : run.Acts k st before agent behind config) {actor : Actor (Handler V C)}
    (known : st.actors.get? a = some actor) (unread : st.code? b = some (.message a message false))
    (label : agent.resumed? st = some (t, b)) {after : Focus V C} (focus : agent.focus = .trampoline t after)
    (well : ∃ task, st.tasks.get? t = some task ∧ task.error = none) :
    ∃ exclusive, st.exclusives.get? actor.state = some exclusive ∧ exclusive.inUse = false ∧
      config.agent = ⟨.code (actor.handler ⟨t, b⟩ actor.state message),
        .opened actor.state :: .frame t b after :: agent.stack⟩ ∧
      config.state = ((st.unloaded t).setCode b (.message a message true)).openPayload actor.state := by
  obtain ⟨value, error, st₁, resumption, y, rest, given, resumed, onwards⟩ :=
    Config.given_of_does acts.guarded.acyclic acts.guarded.does label
  cases given with
  | cancelled answers => exact absurd (focus.symm.trans answers) (by simp)
  | @top task after' focus' found =>
    obtain ⟨task', found', none'⟩ := well
    obtain rfl := Option.some.inj (found.symm.trans found')
    obtain ⟨_, rfl⟩ : t = t ∧ after = after' := by simpa using focus.symm.trans focus'
    rw [none'] at resumed
    have unread₁ : (st.unloaded t).code? b = some (.message a message false) := unread
    obtain ⟨actor', exclusive, known', behind', free, _, rfl, state⟩ := resume_message unread₁ resumed
    obtain rfl := Option.some.inj (known.symm.trans known')
    exact ⟨exclusive, behind', free, onwards, state⟩

end Discreet

end Run

end Crew

end Tasking
