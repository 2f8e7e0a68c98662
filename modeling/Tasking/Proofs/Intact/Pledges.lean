import Tasking.Proofs.Intact.Ripe
import Tasking.Proofs.Passing.Transparency

/-! # Bodies of guards

A disciplined program gives a guard a body that nobody has to do with, and leaves the body alone.  So nobody has to
do with the body until the guard calls it (`Crew.Pledged`), and disciplined threads are careful ones.
-/

namespace Tasking

open Picture

variable {V C : Type}

namespace Crew

open State

variable {c c' : Crew V C} {a : Agent V C} {config : Config V C} {g b : FrameId}

/-- A body that a guard is to call was not resumed, and nobody else has to do with it. -/
structure Pledge (c : Crew V C) (g b : FrameId) : Prop extends c.Reserves g b where
  unresumed : ∀ {r phase}, c.state.guard? b = some (r, phase) → ∃ body, phase = .start body

/-- So it is with all bodies that are to be called. -/
def Pledged (c : Crew V C) : Prop := ∀ g b, c.state.awaited? g = some b → c.Pledge g b

theorem pledged_initial (parallelism : Nat) : (initial parallelism : Crew V C).Pledged := by
  intro g b awaits
  simp [initial, State.initial, awaited?, code?] at awaits

theorem Waits.pledged (waits : Waits c c') (pledged : c.Pledged) : c'.Pledged := by
  intro g b awaits
  obtain ⟨thread, state⟩ := waits.state
  rw [state] at awaits
  have pledge : c.Pledge g b := pledged _ _ awaits
  refine ⟨waits.reserves pledge.toReserves, ?_⟩
  rw [state]
  exact pledge.unresumed

/-- A frame that nobody has to do with is in no use. -/
theorem Shuns.unused (shuns : c.Shuns b) (sound : c.Sound) (t : TaskId) : ¬ c.picture.Uses t b := by
  have runs {s : Stage} (stage : c.stage t = some s) : ∃ agent ∈ c.agents, (t, s) ∈ agent.runs :=
    List.mem_flatMap.1 ((stage_eq_some_iff sound.distinct).1 stage)
  rintro (⟨f, base, way⟩ | inside)
  · obtain rfl | ⟨h, _, link⟩ := way.cases_last
    · by_cases plain : Plain (c.stage t)
      · exact shuns.state.top t ((base_plain plain).symm.trans base)
      · obtain ⟨doomed, target, unwinds⟩ : ∃ doomed target, c.stage t = some (.unwinding doomed target) := by
          simpa [Plain] using plain
        obtain ⟨agent, member, run⟩ := runs unwinds
        obtain ⟨value, after, waits⟩ := Agent.cancel_of_run run
        exact shuns.threads agent member _ waits (List.mem_of_mem_head? ((base_unwinding unwinds).symm.trans base))
    · exact shuns.state.caller h link
  · obtain ⟨agent, member, run⟩ := runs inside
    obtain ⟨after, waits⟩ := Agent.frame_of_run run
    exact shuns.threads agent member _ waits rfl

/-- A body that is to be called may be put on a chain. -/
theorem Pledge.idle (pledge : c.Pledge g b) (sound : c.Sound) : c.picture.Idle b := by
  refine ⟨?_, pledge.shuns.unused sound, pledge.unresumed⟩
  obtain ⟨code, here⟩ := Option.isSome_iff_exists.1 pledge.known
  obtain ⟨frame, found, _⟩ := Option.map_eq_some_iff.1 here
  exact Option.isSome_iff_exists.2 ⟨frame, found⟩

/-- Disciplined threads are careful. -/
theorem Pledged.careful (pledged : c.Pledged) (sound : c.Sound) (disciplined : c.Disciplined a) : c.Careful a := by
  obtain ⟨focus, stack⟩ := a
  cases focus with
  | trampoline t after =>
    have guarded : c.Guarded ⟨.trampoline t after, stack⟩ := by
      rintro task f r body found first given (⟨guard, _⟩ | ⟨value, guard⟩)
      · have awaits : c.state.awaited? f = some body := by rw [awaited?, code?_of_guard? guard]
        exact (pledged _ _ awaits).idle sound
      · have awaits : c.state.awaited? f = some body := by rw [awaited?, code?_of_guard? guard]
        exact (pledged _ _ awaits).idle sound
    exact ⟨⟨guarded, trivial⟩, trivial⟩
  | code program =>
    cases program with
    | ask request next => exact disciplined.1
    | _ => exact disciplined
  | _ => exact disciplined

variable [Inhabited V]

namespace Stepped

/-- What other threads have to do with a frame, they had to do with it before. -/
theorem shuns_of_config (turn : c.Stepped a config c') (shuns : c.Shuns b) (own : config.Shuns b) : c'.Shuns b := by
  refine ⟨turn.state ▸ own.state, fun agent member => ?_⟩
  obtain rfl | ⟨old, _⟩ := turn.back member
  · exact own.stack
  · exact shuns.threads agent old

/-- A guard that is to call a frame which no guard was to call is new. -/
theorem made_of_awaited (turn : c.Stepped a config c') (absent : c.state.awaited? g ≠ some b)
    (awaits : c'.state.awaited? g = some b) :
    ∃ code, c'.state.code? g = some code ∧ (a.config c.state).Makes g code := by
  rw [turn.state] at awaits ⊢
  cases Config.code?_of_does (c := a.config c.state) turn.sound.warded.acyclic turn.does g with
  | same kept =>
    rw [awaited?, kept] at awaits
    exact absurd awaits absent
  | resumed label stirs => exact absurd (stirs.awaited awaits) absent
  | made unused new makes => exact ⟨_, new, makes⟩

/-- A new body has one guard. -/
theorem keeper_unique (turn : c.Stepped a config c') (absent : ∀ h, c.state.awaited? h ≠ some b)
    (awaits : c'.state.awaited? g = some b) {h : FrameId} (awaits' : c'.state.awaited? h = some b) : h = g := by
  obtain ⟨code, new, makes⟩ := turn.made_of_awaited (absent g) awaits
  obtain ⟨code', new', makes'⟩ := turn.made_of_awaited (absent h) awaits'
  cases makes with
  | host | join | message => simp [awaited?, new] at awaits
  | guard focus =>
    cases makes' with
    | host | join | message => simp [awaited?, new'] at awaits'
    | guard => rfl
    | keeper focus' => cases focus.symm.trans focus'
  | keeper focus =>
    cases makes' with
    | host | join | message => simp [awaited?, new'] at awaits'
    | guard focus' => cases focus.symm.trans focus'
    | keeper => rfl

/-- A frame that was not resumed is not resumed at a step that resumes something else. -/
theorem keeps_unresumed (turn : c.Stepped a config c') (known : c.picture.known b)
    (label : ∀ u, a.resumed? c.state ≠ some (u, b))
    (before : ∀ {r phase}, c.state.guard? b = some (r, phase) → ∃ body, phase = .start body) {r : ResourceId}
    {phase : Phase V} (guard : c'.state.guard? b = some (r, phase)) : ∃ body, phase = .start body := by
  obtain ⟨_, effect⟩ := turn.effect
  exact before ((effect.guard known label).symm.trans guard)

/-- Code that asks for something is served, or nothing happens. -/
theorem served (turn : c.Stepped a config c') {request : Request V C} {next : request.Reply → Program V C}
    (focus : a.focus = .code (.ask request next)) (moved : c'.state ≠ c.state) :
    ∃ reply, c.state.serve request = .ok (reply, c'.state) ∧ config.stack = a.stack := by
  obtain ⟨_, stack⟩ := a
  obtain rfl : _ = _ := focus
  obtain ⟨_, agents⟩ := c'
  obtain rfl : _ = _ := turn.state
  cases turn.does with
  | serves served => exact ⟨_, served, rfl⟩
  | passes => exact absurd rfl moved
  | begins _ busy => exact absurd rfl (busy _)

/-- A program gives a guard a body that nobody has to do with. -/
theorem pledge_newGuard (turn : c.Stepped a config c') {r : ResourceId} {next : FrameId → Program V C}
    (focus : a.focus = .code (.ask (.newGuard r b) next)) (shuns : c.Shuns b)
    (absent : ∀ h, c.state.awaited? h ≠ some b) (awaits : c'.state.awaited? g = some b) : c'.Pledge g b := by
  have fresh : c.Fresh b := by
    obtain ⟨_, stack⟩ := a
    obtain rfl : _ = _ := focus
    exact turn.careful.consents
  have known : (c.state.code? b).isSome = true := by
    obtain ⟨frame, found⟩ := Option.isSome_iff_exists.1 fresh.idle.known
    simp [State.code?, found]
  obtain ⟨reply, made, stack⟩ := turn.served focus fun same => absent g (same ▸ awaits)
  have state : c'.state = (c.state.addGuard r b).2 := (congrArg Prod.snd (pure_ok.1 made)).symm
  have own : config.Shuns b := by
    refine ⟨turn.state ▸ state ▸ (State.KeepsChains.addFrame rfl).shuns shuns.state, ?_⟩
    rw [stack]
    exact shuns.threads a turn.member
  refine ⟨⟨?_, turn.shuns_of_config shuns own, turn.keeper_unique absent awaits⟩, fun {r phase} => ?_⟩
  · rw [turn.state]
    exact Config.code?_grows (c := a.config c.state) turn.sound.warded.acyclic turn.does known
  · exact turn.keeps_unresumed fresh.idle.known (fun u => by simp [Agent.resumed?, focus]) fresh.idle.unresumed

/-- The frame that delivers a message is new, like the guard that is to call it. -/
theorem pledge_newMessage (turn : c.Stepped a config c') {actor : ActorId} {message : V}
    {next : FrameId → Program V C} (focus : a.focus = .code (.ask (.newMessage actor message) next))
    (absent : ∀ h, c.state.awaited? h ≠ some c.state.frames.next)
    (awaits : c'.state.awaited? g = some c.state.frames.next) : c'.Pledge g c.state.frames.next := by
  have shuns := turn.sound.shuns_next
  obtain ⟨reply, made, stack⟩ := turn.served focus fun same => absent g (same ▸ awaits)
  simp only [serve, addMessage, bind_ok, actor_ok, exclusive_ok, pure_ok] at made
  obtain ⟨_, _, exclusive, _, made⟩ := made
  have state : c'.state = ((c.state.addFrame ⟨"actor-message", none, .message actor message false⟩).2.addGuard
      exclusive.resource c.state.frames.next).2 := (congrArg Prod.snd made).symm
  have own : config.Shuns c.state.frames.next := by
    refine ⟨turn.state ▸ state ▸ (State.KeepsChains.trans (.addFrame rfl) (.addFrame rfl)).shuns shuns.state, ?_⟩
    rw [stack]
    exact shuns.threads a turn.member
  have code : c'.state.code? c.state.frames.next = some (.message actor message false) := by
    have apart : c.state.frames.next ≠ ⟨c.state.frames.next.number + 1⟩ := fun same => by
      simpa using congrArg Id.number same
    rw [state, code?_addMessage, if_neg apart, if_pos rfl]
  refine ⟨⟨by simp [code], turn.shuns_of_config shuns own, turn.keeper_unique absent awaits⟩, fun {r phase} guard => ?_⟩
  cases code.symm.trans (code?_of_guard? guard)

end Stepped

namespace Run

variable {run : Run V C Careful} {k : Nat} {st : State V C} {before behind : List (Agent V C)} {agent : Agent V C}

/-- A body that is left alone remains with its guard, unless the guard calls it. -/
theorem Acts.pledge (acts : run.Acts k st before agent behind config)
    (pledge : (⟨st, before ++ agent :: behind⟩ : Crew V C).Pledge g b)
    (unmentioned : ∀ request next, agent.focus = .code (.ask request next) → ¬ request.Mentions b)
    (awaits : config.state.awaited? g = some b) :
    (⟨config.state, before ++ config.agent :: behind⟩ : Crew V C).Pledge g b := by
  have turn := acts.stepped
  obtain reserves | ⟨t, r, calls⟩ := acts.ofCareful.reserves pledge.toReserves unmentioned
  · have mine : (agent.config st).Shuns b := ⟨pledge.shuns.state, pledge.shuns.threads agent turn.member⟩
    exact ⟨reserves, turn.keeps_unresumed (pledge.idle turn.sound).known (fun u => mine.unresumed) pledge.unresumed⟩
  · have held := calls.held
    rw [acts.ofCareful.next] at held
    simp [awaited?, code?_of_guard? held] at awaits

theorem Acts.pledged (acts : run.Acts k st before agent behind config)
    (pledged : (⟨st, before ++ agent :: behind⟩ : Crew V C).Pledged)
    (disciplined : (⟨st, before ++ agent :: behind⟩ : Crew V C).Disciplined agent) :
    (⟨config.state, before ++ config.agent :: behind⟩ : Crew V C).Pledged := by
  have turn := acts.stepped
  intro g b awaits
  obtain old | ⟨r, next, focus⟩ | ⟨rfl, _, actor, message, next, focus⟩ :=
    Config.awaited_of_does acts.ofCareful.acyclic acts.ofCareful.does awaits
  · exact acts.pledge (pledged _ _ old) (disciplined.unmentioned old) awaits
  · exact turn.pledge_newGuard focus (disciplined.shuns focus)
      (fun h old => disciplined.unmentioned old _ _ focus rfl) awaits
  · exact turn.pledge_newMessage focus
      (fun h old => absurd (pledged _ _ old).known (by simp [State.code?_next])) awaits

end Run

/-- A disciplined step is a careful one. -/
theorem Step.careful {label : Option (TaskId × FrameId)} (step : Step Disciplined c label c') (pledged : c.Pledged)
    (sound : c.Sound) : Step Careful c label c' := by
  cases step with
  | act permitted step => exact .act (pledged.careful sound permitted) step
  | join new => exact .join new
  | lapse => exact .lapse
  | switch thread => exact .switch thread

namespace Run

/-- The run until some step, of which the steps are of some kind. -/
def upTo {allowed allowed' : Crew V C → Agent V C → Prop} (run : Run V C allowed) (k : Nat)
    (steps : ∀ i < k, Step allowed' (run.crew i) (run.resumed i) (run.crew (i + 1))) : Run V C allowed' :=
  ⟨k, run.crew, run.resumed, run.starts, steps⟩

/-- Disciplined steps are careful, and leave bodies alone. -/
theorem careful_steps (run : Run V C Disciplined) {k : Nat} (bound : k ≤ run.length) :
    (∀ i < k, Step Careful (run.crew i) (run.resumed i) (run.crew (i + 1))) ∧ (run.crew k).Pledged := by
  induction k with
  | zero =>
    refine ⟨nofun, ?_⟩
    obtain ⟨parallelism, starts⟩ := run.starts
    rw [starts]
    exact pledged_initial parallelism
  | succ k inductionHypothesis =>
    obtain ⟨steps, pledged⟩ := inductionHypothesis (Nat.le_of_succ_le bound)
    have sound : (run.crew k).Sound := ((run.upTo k steps).mono fun _ _ => Careful.guarded).sound k le_rfl
    have steps' : ∀ i < k + 1, Step Careful (run.crew i) (run.resumed i) (run.crew (i + 1)) := by
      intro i within
      obtain early | rfl := Nat.lt_succ_iff_lt_or_eq.1 within
      · exact steps i early
      · exact (run.steps i bound).careful pledged sound
    refine ⟨steps', ?_⟩
    obtain ⟨st, before, agent, behind, config, acts⟩ | ⟨_, waits⟩ := run.acts_or_waits bound
    · rw [acts.crew] at pledged sound
      have careful : (run.upTo (k + 1) steps').Acts k st before agent behind config :=
        ⟨Nat.lt_succ_self k, acts.crew, pledged.careful sound acts.permitted, acts.step, acts.label, acts.next⟩
      rw [acts.next]
      exact careful.pledged pledged acts.permitted
    · exact waits.pledged pledged

/-- A run of disciplined threads is one of careful threads. -/
def careful (run : Run V C Disciplined) : Run V C Careful := run.upTo run.length (run.careful_steps le_rfl).1

end Run

end Crew

end Tasking
