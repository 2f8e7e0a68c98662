import Tasking.Proofs.Exclusion
import Tasking.Proofs.Joins
import Tasking.Proofs.Mail.Codes
import Tasking.Proofs.Parked.Inputs

/-! # Programs that leave an actor its messages

`Crew.Discreet` is what programs keep to that use an actor by messages alone.  They get a frame for each message and
never name the frame behind it, which delivers the message; and nobody but the handler touches the state.

`Crew.Stocked` is what then holds of frames, payloads and actors: whatever something refers to exists.
-/

namespace Tasking

variable {V C : Type}

/-- What code may ask for that leaves the messages to an actor to their guards, and its state to the handler. -/
def State.Confides (st : State V C) (a : ActorId) (stack : List (Activation V C)) (request : Request V C) : Prop :=
  (∀ b message delivered, st.code? b = some (.message a message delivered) → ¬ request.Mentions b) ∧
  match request with
  | .newGuard _ body => (st.code? body).isSome = true
  | .setPayload x _ => ∀ actor, st.actors.get? a = some actor → actor.state = x → .opened x ∈ stack
  | _ => True

/-- What guarded programs keep to that use an actor by messages alone.  They give guards frames that exist. -/
def Crew.Discreet (a : ActorId) (c : Crew V C) (agent : Agent V C) : Prop :=
  c.Guarded agent ∧
  match agent.focus with
  | .code (.ask request _) => c.state.Confides a agent.stack request
  | .code (.within x _ _ _) => ∀ actor, c.state.actors.get? a = some actor → actor.state ≠ x
  | _ => True

namespace Crew

section Steps

variable {c c' : Crew V C} {label : Option (TaskId × FrameId)}

/-- How often threads have a payload open. -/
def openings (x : ExclusiveId) (c : Crew V C) : Nat := (c.agents.map (Agent.openings x)).sum

/-- Nobody made a step: a thread joined, or waits no longer, or another one is the running one. -/
structure Waits (c c' : Crew V C) : Prop where
  state : ∃ thread, c'.state = { c.state with running := thread }
  stays : ∀ {agent}, agent ∈ c.agents → (∀ condition limit next, agent.focus ≠ .waiting condition limit next) →
    agent ∈ c'.agents
  stack : ∀ {agent y}, agent ∈ c'.agents → y ∈ agent.stack → ∃ agent' ∈ c.agents, y ∈ agent'.stack
  openings : ∀ x, c'.openings x = c.openings x
  runs : c'.runs = c.runs

theorem Waits.refl (c : Crew V C) : Waits c c :=
  ⟨⟨c.state.running, rfl⟩, fun member _ => member, fun member inside => ⟨_, member, inside⟩, fun _ => rfl, rfl⟩

theorem Waits.picture (waits : Waits c c') : c'.picture = c.picture := by
  obtain ⟨thread, state⟩ := waits.state
  unfold Crew.picture Crew.stage
  rw [state, waits.runs]
  rfl

variable [Inhabited V] {allowed : Crew V C → Agent V C → Prop}

/-- A step of a crew is a step of a thread, or nothing much happens. -/
theorem Step.acts_or_waits (step : Step allowed c label c') :
    (∃ st before after agent config, c = ⟨st, before ++ agent :: after⟩ ∧ allowed c agent ∧
      (agent.config st).step = .ok config ∧ label = agent.resumed? st ∧
      c' = ⟨config.state, before ++ config.agent :: after⟩) ∨ label = none ∧ Waits c c' := by
  cases step with
  | @act st before after agent config permitted step =>
    exact .inl ⟨st, before, after, agent, config, rfl, permitted, step, rfl, rfl⟩
  | @join st agents agent new =>
    refine .inr ⟨rfl, ⟨st.running, rfl⟩, fun member _ => List.mem_append_left _ member, fun {b y} member inside => ?_,
      fun x => ?_, ?_⟩
    · rcases List.mem_append.1 member with old | isNew
      · exact ⟨b, old, inside⟩
      · obtain rfl := List.mem_singleton.1 isNew
        cases new <;> simp at inside
    · cases new <;> simp [Crew.openings, Agent.openings]
    · cases new <;> simp [Crew.runs, Agent.runs, Focus.run?]
  | @lapse st before after condition limit next stack =>
    refine .inr ⟨rfl, ⟨st.running, rfl⟩, fun {b} member busy => ?_, fun {b y} member inside => ?_, fun x => ?_, ?_⟩
    · simp only [List.mem_append, List.mem_cons] at member ⊢
      obtain old | rfl | old := member
      · exact .inl old
      · exact absurd rfl (busy _ _ _)
      · exact .inr (.inr old)
    · simp only [List.mem_append, List.mem_cons] at member
      obtain old | rfl | old := member
      · exact ⟨b, by simp [old], inside⟩
      · exact ⟨⟨.waiting condition limit next, stack⟩, by simp, inside⟩
      · exact ⟨b, by simp [old], inside⟩
    · simp [Crew.openings, Agent.openings]
    · simp [Crew.runs, Agent.runs, Focus.run?]
  | @switch st agents thread => exact .inr ⟨rfl, ⟨thread, rfl⟩, (Waits.refl ⟨st, agents⟩).stays,
      (Waits.refl ⟨st, agents⟩).stack, fun _ => rfl, rfl⟩

end Steps

/-! ## A thread that makes no step -/

/-- What a step of one thread means to a task that another thread runs. -/
structure Sidelines (st : State V C) (agent : Agent V C) (stage : TaskId → Option Stage) (config : Config V C)
    (t : TaskId) : Prop where
  top : ∀ {f}, st.top t = some f → config.state.top t = some f
  retains : State.Retains (· = t) st config.state
  unresumed : ∀ {f}, (st.picture stage).Uses t f → ∀ u, agent.resumed? st ≠ some (u, f)
  unlanded : ∀ {f}, (st.picture stage).Uses t f → ∀ u target value after rest,
    agent.stack = .cancel u [] target value after :: rest → target ≠ f

end Crew

namespace Config

open State

variable [Inhabited V] {c config : Config V C} {t : TaskId}

/-- A step leaves what a task has for its top frame unless it goes on with the run of the task. -/
theorem retains_of_does (apart : ∀ s, (t, s) ∉ c.agent.runs)
    (unforced : ∀ request next, c.focus = .code (.ask request next) → c.state.Unmoving request)
    (does : Does c config) : Retains (· = t) c.state config.state := by
  -- Whatever is kept for all other tasks is kept for this one.
  have spared {u : TaskId} {s : Stage} (mine : (u, s) ∈ c.agent.runs)
      (retains : Retains (· ≠ u) c.state config.state) : Retains (· = t) c.state config.state := by
    refine retains.mono fun v same other => apart s ?_
    rwa [← same, other]
  cases does with
  | serves served => exact retains_serve (unforced _ _ rfl) served
  | newFrame | newActor | registers | opens | closes => exact .of_tasks rfl
  | passes | rests | hands => exact .refl _
  | begins detours busy settled taken begun =>
    refine .of_steady ?_
    obtain ⟨s, taken⟩ | ⟨_, rfl⟩ := taken
    · exact (steady_takeReady taken).trans (steady_beginRun begun)
    · exact steady_beginRun begun
  | @resumes st st' u f task after resumption stack found top resumed =>
    have cleared := becomes_modifyTask found fun task => { task with value := default, error := none }
    refine spared (u := u) (s := .next) (by simp [agent, Agent.runs, Focus.run?]) ?_
    exact .trans (.of_becomes found cleared fun other => absurd rfl other) (retains_resume resumed)
  | suspends parked => exact .of_steady ((steady_endRun _ _).trans (steady_park parked))
  | @returns st u f caller answer result task after stack ends found top link =>
    refine spared (u := u) (s := .inside f) (by simp [agent, Agent.runs, Activation.run?]) ?_
    exact .of_becomes found (becomes_modifyTask found _) fun other => absurd rfl other
  | @finishes st st' u f answer result task after stack ends found top link finished =>
    have left := becomes_modifyTask found fun task => { task with top := none }
    have ended := left.trans (becomes_modifyTask left.self fun task => { task with worker := none })
    obtain ⟨_, st₁, woken, retired⟩ := finish_ok ended.self finished
    refine spared (u := u) (s := .inside f) (by simp [agent, Agent.runs, Activation.run?]) ?_
    exact .trans (.of_becomes found (ended.trans (becomes_closed ended.self)) fun other => absurd rfl other)
      (.of_steady ((steady_readyAll woken).trans (steady_retire retired)))
  | @lands st u f target value task after stack found top =>
    refine spared (u := u) (s := .inside f) (by simp [agent, Agent.runs, Activation.run?]) ?_
    exact .trans (.of_becomes found (becomes_modifyTask found _) fun other => absurd rfl other)
      (retains_landAt target value)
  | @leaps st st' u f g target value task rest after resumption stack found top path resumed =>
    exact .trans (.of_becomes found (becomes_modifyTask found _) fun _ => rfl) (retains_resume resumed)
  | cancels resumed => exact retains_resume resumed
  | @unwinds st u target answer value after stack =>
    refine spared (u := u) (s := .unwinding [] target) (by simp [agent, Agent.runs, Activation.run?]) ?_
    exact retains_landAt target value

end Config

namespace Crew

open State

variable [Inhabited V] {st : State V C} {before behind : List (Agent V C)} {agent other : Agent V C}
  {config : Config V C} {t : TaskId} {s : Stage}

omit [Inhabited V] in
theorem Guarded.tame {c : Crew V C} (guarded : c.Guarded agent) :
    ∀ t target value next, agent.focus ≠ .code (.unwind t target value next) := by
  intro t target value next focus
  unfold Guarded at guarded
  rw [focus] at guarded
  exact guarded

omit [Inhabited V] in
theorem Guarded.unmoving {c : Crew V C} (guarded : c.Guarded agent) :
    ∀ request next, agent.focus = .code (.ask request next) → c.state.Unmoving request := by
  rintro request next focus u target rfl
  unfold Guarded at guarded
  rw [focus] at guarded
  exact guarded

omit [Inhabited V] in
/-- A thread does not run what another one runs. -/
theorem Sound.foreign (sound : (⟨st, before ++ agent :: behind⟩ : Crew V C).Sound) (member : other ∈ before ++ behind)
    (run : (t, s) ∈ other.runs) (s' : Stage) : (t, s') ∉ agent.runs := by
  intro mine
  have distinct := sound.distinct
  rw [(runs_append.map Prod.fst).nodup_iff, List.map_append, List.nodup_append] at distinct
  exact distinct.2.2 t (List.mem_map_of_mem mine) t
    (List.mem_map_of_mem (List.mem_flatMap.2 ⟨other, member, run⟩)) rfl

/-- A step of one thread does not concern a task that another thread runs. -/
theorem Sound.sidelines (sound : (⟨st, before ++ agent :: behind⟩ : Crew V C).Sound)
    (guarded : (⟨st, before ++ agent :: behind⟩ : Crew V C).Guarded agent)
    (step : (agent.config st).step = .ok config) (member : other ∈ before ++ behind) (run : (t, s) ∈ other.runs) :
    Sidelines st agent (⟨st, before ++ agent :: behind⟩ : Crew V C).stage config t := by
  obtain ⟨_, runner, effect, apart⟩ := sound.goes (sound.goes_of_step (by simp) guarded step)
  have foreign (s' : Stage) : (t, s') ∉ agent.runs := sound.foreign member run s'
  refine ⟨fun found => effect.top (apart member run) found, Config.retains_of_does foreign guarded.unmoving
    (Config.does_of_step guarded.tame step), fun {f} uses u same => ?_,
    fun {f} uses u target value after rest line => ?_⟩
  · rw [same] at effect
    cases effect with
    | resumed mine on =>
      obtain rfl : t = u := sound.warded.apart uses (.inl on)
      exact apart member run mine.symm
  · rintro rfl
    have mine : (u, Stage.unwinding [] target) ∈ agent.runs := by simp [Agent.runs, line, Activation.run?]
    have stage := sound.stage_of_run (a := agent) (by simp) mine
    have base : (st.picture (⟨st, before ++ agent :: behind⟩ : Crew V C).stage).base u = some target := by
      simp [Picture.base, State.picture, stage]
    obtain rfl : t = u := sound.warded.apart uses (.inl (.of_base base))
    exact foreign _ mine

omit [Inhabited V] in
theorem Sidelines.inputs {stage : TaskId → Option Stage} (aside : Sidelines st agent stage config t)
    (good : V × Option (Error V) → Prop) (had : ∃ task, st.tasks.get? t = some task ∧ good task.inputs) :
    ∃ task, config.state.tasks.get? t = some task ∧ good task.inputs := by
  obtain ⟨task, found, was⟩ := had
  obtain ⟨task', found', same⟩ := aside.retains.task found
  exact ⟨task', found', same rfl ▸ was⟩

end Crew

/-! ## Whatever something refers to exists -/

namespace Config

open State

variable [Inhabited V] {c config : Config V C} {x : ExclusiveId} {a : ActorId}

theorem exclusives_grow (does : Does c config) (known : (c.state.exclusives.get? x).isSome = true) :
    (config.state.exclusives.get? x).isSome = true := by
  obtain ⟨exclusive, found⟩ := Option.isSome_iff_exists.1 known
  cases treats_of_does found does with
  | leaves now => rw [now]; rfl
  | stores focus onwards now => rw [now]; rfl
  | opens free cause now => rw [now]; rfl
  | closes focus stack onwards now => rw [now]; rfl

omit [Inhabited V] in
/-- A new actor has a payload of its own. -/
theorem get?_addActor (st : State V C) (first : V) (handler : Handler V C) (a : ActorId) :
    (st.addActor first handler).2.actors.get? a =
      if a = st.actors.next then some ⟨st.exclusives.next, handler⟩ else st.actors.get? a := by
  simp [addActor, addExclusive, addResource, Table.get?_add_eq]

theorem actors_grow (does : Does c config) {actor : Actor (Handler V C)} (found : c.state.actors.get? a = some actor) :
    config.state.actors.get? a = some actor := by
  obtain same | ⟨first, handler, next, focus, state⟩ := actors_of_does does
  · rw [same, found]
  · rw [state, get?_addActor, if_neg, found]
    rintro rfl
    simp [Table.get?_next] at found

/-- A payload is opened only if it exists. -/
theorem opened_of_does (does : Does c config) (inside : .opened x ∈ config.stack) :
    .opened x ∈ c.stack ∨ (c.state.exclusives.get? x).isSome = true := by
  have resumed {t : TaskId} {f : FrameId} {value : V} {error : Option (Error V)} {st : State V C}
      {resumption : Resumption V C} {y : Activation V C} {rest : List (Activation V C)}
      (run : st.resume t f value error = .ok (resumption, config.state))
      (same : st.exclusives = c.state.exclusives)
      (stack : config.stack = (resumption.opened.map .opened).toList ++ y :: rest)
      (plain : y ≠ .opened x) (below : ∀ z ∈ rest, z ∈ c.stack) :
      .opened x ∈ c.stack ∨ (c.state.exclusives.get? x).isSome = true := by
    rw [stack, List.mem_append, List.mem_cons] at inside
    obtain new | rfl | old := inside
    · obtain ⟨y', opens, same'⟩ := Option.map_eq_some_iff.1 (Option.mem_toList.1 new)
      obtain rfl : y' = x := by simpa using same'
      obtain ⟨_, closed⟩ | ⟨rfl, a, message, code⟩ := store_resume run
      · simp [closed] at opens
      · obtain ⟨actor, exclusive, _, behind, _, _, rfl, _⟩ := resume_message code run
        obtain rfl : actor.state = y' := by simpa using opens
        exact .inr (by rw [← same, behind]; rfl)
    · exact absurd rfl plain
    · exact .inl (below _ old)
  cases does with
  | serves | newFrame | newActor | registers | rests | begins => exact .inl inside
  | passes detours idle calls =>
    refine .inl ((List.mem_append.1 inside).resolve_left fun new => ?_)
    exact calls _ new
  | hands | closes | suspends | returns | finishes | lands | unwinds => exact .inl (List.mem_cons_of_mem _ inside)
  | opens may =>
    obtain ⟨exclusive, found, _⟩ := mayOpen_ok may
    simp only [List.mem_cons] at inside
    obtain same | call | old := inside
    · obtain rfl : x = _ := by simpa using same
      exact .inr (by rw [found]; rfl)
    · cases call
    · exact .inl old
  | resumes found top run => exact resumed run rfl rfl (by simp) fun _ => id
  | leaps found top path run => exact resumed run rfl rfl (by simp) fun _ => List.mem_cons_of_mem _
  | cancels run => exact resumed run rfl rfl (by simp) fun _ => List.mem_cons_of_mem _

/-- Sending a message creates a frame that delivers it, and a guard on the actor's resource that will call that
frame. -/
theorem step_newMessage {st : State V C} {message : V} {next : FrameId → Program V C} {stack : List (Activation V C)}
    (step : (⟨st, .code (.ask (.newMessage a message) next), stack⟩ : Config V C).step = .ok config) :
    ∃ actor exclusive, st.actors.get? a = some actor ∧ st.exclusives.get? actor.state = some exclusive ∧
      config.focus = .code (next ⟨st.frames.next.number + 1⟩) ∧ config.stack = stack ∧ config.state =
        ((st.addFrame ⟨"actor-message", none, .message a message false⟩).2.addGuard exclusive.resource
          st.frames.next).2 := by
  simp only [Config.step, stepCode, bind_ok, pure_ok] at step
  obtain ⟨⟨reply, st'⟩, served, rfl⟩ := step
  simp only [serve, addMessage, bind_ok, actor_ok, exclusive_ok, pure_ok] at served
  obtain ⟨actor, found, exclusive, behind, made⟩ := served
  obtain rfl : _ = reply := congrArg Prod.fst made
  obtain rfl : _ = st' := congrArg Prod.snd made
  have second : ((st.addFrame ⟨"actor-message", none, .message a message false⟩).2.addGuard exclusive.resource
      st.frames.next).1 = ⟨st.frames.next.number + 1⟩ := by simp [addGuard, addFrame, Table.next, Table.add]
  exact ⟨actor, exclusive, found, behind, congrArg (fun g => Focus.code (next g)) second, rfl, rfl⟩

end Config

namespace Crew

open State

/-- Actors have payloads, messages have actors, guards have bodies, and what is open exists. -/
structure Stocked (c : Crew V C) : Prop where
  payload : ∀ {a actor}, c.state.actors.get? a = some actor → (c.state.exclusives.get? actor.state).isSome = true
  actor : ∀ {b a message delivered}, c.state.code? b = some (.message a message delivered) →
    (c.state.actors.get? a).isSome = true
  body : ∀ {g b}, c.state.awaited? g = some b → (c.state.code? b).isSome = true
  opened : ∀ {agent x}, agent ∈ c.agents → .opened x ∈ agent.stack → (c.state.exclusives.get? x).isSome = true

theorem stocked_initial (parallelism : Nat) : (initial parallelism : Crew V C).Stocked where
  payload found := by simp [initial, State.initial] at found
  actor code := by simp [initial, State.initial, code?] at code
  body awaits := by simp [initial, State.initial, awaited?, code?] at awaits
  opened member := by simp [initial] at member

theorem Waits.stocked {c c' : Crew V C} (waits : Waits c c') (stocked : c.Stocked) : c'.Stocked := by
  obtain ⟨st', agents'⟩ := c'
  obtain ⟨thread, rfl⟩ := waits.state
  refine ⟨stocked.payload, stocked.actor, stocked.body, fun {agent x} member inside => ?_⟩
  obtain ⟨agent', member', inside'⟩ := waits.stack member inside
  exact stocked.opened member' inside'

variable [Inhabited V] {c c' : Crew V C} {a : ActorId} {label : Option (TaskId × FrameId)}

theorem Stocked.step (stocked : c.Stocked) (sound : c.Sound) (step : Step (Discreet a) c label c') : c'.Stocked := by
  obtain ⟨st, before, behind, agent, config, rfl, discreet, steps, _, rfl⟩ | ⟨_, waits⟩ := step.acts_or_waits
  swap
  · exact waits.stocked stocked
  have does := Config.does_of_step discreet.1.tame steps
  have acyclic : Acyclic st.caller := sound.warded.acyclic
  refine ⟨fun {a' actor} found => ?_, fun {b a' message delivered} code => ?_, fun {g b} awaits => ?_,
    fun {agent' x} member inside => ?_⟩
  · obtain same | ⟨first, handler, next, focus, state⟩ := Config.actors_of_does does
    · exact Config.exclusives_grow does (stocked.payload (same ▸ found))
    · rw [state, Config.get?_addActor] at found
      split at found
      · obtain rfl := Option.some.inj found
        rw [state]
        exact congrArg Option.isSome (Table.get?_add_new ..)
      · exact Config.exclusives_grow does (stocked.payload found)
  · obtain ⟨delivered', code'⟩ | ⟨_, found, _⟩ := Config.message_of_does acyclic does code
    · obtain ⟨actor, found⟩ := Option.isSome_iff_exists.1 (stocked.actor code')
      rw [Config.actors_grow does found]
      rfl
    · obtain ⟨actor, found⟩ := Option.isSome_iff_exists.1 found
      rw [Config.actors_grow does found]
      rfl
  · obtain old | ⟨r, next, focus⟩ | ⟨rfl, rfl, a', message, next, focus⟩ := Config.awaited_of_does acyclic does awaits
    · exact Config.code?_grows acyclic does (stocked.body old)
    · obtain ⟨_, confides⟩ := discreet
      rw [show agent.focus = _ from focus] at confides
      exact Config.code?_grows acyclic does confides.2
    · obtain ⟨focus', stack⟩ := agent
      obtain rfl : focus' = _ := focus
      obtain ⟨actor, exclusive, _, _, _, _, state⟩ := Config.step_newMessage steps
      have apart : st.frames.next ≠ (⟨st.frames.next.number + 1⟩ : FrameId) := fun same => by
        simpa using congrArg Id.number same
      have codes := code?_addMessage st a' message exclusive.resource st.frames.next
      rw [if_neg apart, if_pos rfl, ← state] at codes
      exact congrArg Option.isSome codes
  · obtain rfl | old := mem_replace member
    · obtain before | known := Config.opened_of_does does inside
      · exact Config.exclusives_grow does (stocked.opened (List.mem_append_right _ List.mem_cons_self) before)
      · exact Config.exclusives_grow does known
    · exact Config.exclusives_grow does (stocked.opened (mem_original old) inside)

namespace Run

variable (run : Run V C (Discreet a)) {i : Nat}

theorem sound_of_discreet (bound : i ≤ run.length) : (run.crew i).Sound :=
  (run.mono fun _ _ discreet => discreet.1).sound i bound

theorem stocked : ∀ i ≤ run.length, (run.crew i).Stocked := by
  intro i
  induction i with
  | zero =>
    intro _
    obtain ⟨parallelism, starts⟩ := run.starts
    exact starts ▸ stocked_initial parallelism
  | succ i inductionHypothesis =>
    intro bound
    exact (inductionHypothesis (by omega)).step (run.sound_of_discreet (by omega)) (run.steps i (by omega))

end Run

end Crew

end Tasking
