import Tasking.Proofs.Following
import Tasking.Proofs.Intact.Running

/-! # What a task is resumed at

Whenever the run of a task goes on, there is a frame to go on at, and if that is a guard, it is not one
that has let go.  A task has an error for its top frame only between two frames of one run, and a guard
that is given an error, by the frame above it or by an unwind, holds its resource (`Crew.Ripe`).
-/

namespace Tasking

open Picture

variable {V C : Type}

/-- Whatever follows the first frame of a path is the caller of a frame that is reached from there. -/
theorem Picture.caller_of_path {caller : FrameId → Option FrameId} {f g : FrameId} {path : List FrameId}
    (chain : (g :: path).IsChain fun f g => caller f = some g) (member : f ∈ path) :
    ∃ h, Reaches caller g h ∧ caller h = some f := by
  induction path generalizing g with
  | nil => simp at member
  | cons next path inductionHypothesis =>
    obtain ⟨link, chain⟩ := List.isChain_cons_cons.1 chain
    rcases List.mem_cons.1 member with rfl | later
    · exact ⟨g, .refl, link⟩
    · obtain ⟨h, way, last⟩ := inductionHypothesis chain later
      exact ⟨h, .head link way, last⟩

/-- The thread that runs a frame waits for its answer. -/
theorem Agent.frame_of_run {a : Agent V C} {t : TaskId} {f : FrameId} (run : (t, .inside f) ∈ a.runs) :
    ∃ after, .frame t f after ∈ a.stack := by
  obtain begins | waits := List.mem_append.1 run
  · obtain ⟨focus, stack⟩ := a
    cases focus <;> simp [Focus.run?] at begins
  · obtain ⟨x, member, same⟩ := List.mem_filterMap.1 waits
    cases x with
    | frame u g after =>
      obtain ⟨rfl, rfl⟩ : u = t ∧ g = f := by simpa [Activation.run?] using same
      exact ⟨after, member⟩
    | _ => simp [Activation.run?] at same

/-- The thread is about to go on with a run that waits for no answer. -/
theorem Agent.trampoline_of_run {a : Agent V C} {t : TaskId} (run : (t, .next) ∈ a.runs) :
    ∃ after, a.focus = .trampoline t after := by
  obtain begins | waits := List.mem_append.1 run
  · obtain ⟨focus, stack⟩ := a
    cases focus with
    | trampoline u after =>
      obtain rfl : t = u := by simpa [Focus.run?] using begins
      exact ⟨after, rfl⟩
    | _ => simp [Focus.run?] at begins
  · obtain ⟨x, _, same⟩ := List.mem_filterMap.1 waits
    cases x <;> simp [Activation.run?] at same

/-- The thread that unwinds a task waits for an answer of the frame that it cancelled. -/
theorem Agent.cancel_of_run {a : Agent V C} {t : TaskId} {doomed : List FrameId} {target : FrameId}
    (run : (t, .unwinding doomed target) ∈ a.runs) : ∃ value after, .cancel t doomed target value after ∈ a.stack := by
  obtain begins | waits := List.mem_append.1 run
  · obtain ⟨focus, stack⟩ := a
    cases focus <;> simp [Focus.run?] at begins
  · obtain ⟨x, member, same⟩ := List.mem_filterMap.1 waits
    cases x with
    | cancel u doomed' target' value after =>
      obtain ⟨rfl, rfl, rfl⟩ : u = t ∧ doomed' = doomed ∧ target' = target := by simpa [Activation.run?] using same
      exact ⟨value, after, member⟩
    | _ => simp [Activation.run?] at same

namespace Config

open State

variable [Inhabited V] {c config : Config V C} {t : TaskId} {f : FrameId}

/-- An unwind goes on as it was, unless the step cancels the next of its frames. -/
theorem cancel_of_does (acyclic : Acyclic c.state.caller) (does : Does c config) {doomed : List FrameId}
    {target : FrameId} {value : V} {after : Focus V C} (inside : .cancel t doomed target value after ∈ config.stack) :
    .cancel t doomed target value after ∈ c.stack ∨ ∃ g, c.agent.resumed? c.state = some (t, g) := by
  have resumed {opened : Option ExclusiveId} {x : Activation V C} {rest : List (Activation V C)}
      (member : .cancel t doomed target value after ∈ (opened.map .opened).toList ++ x :: rest) :
      .cancel t doomed target value after = x ∨ .cancel t doomed target value after ∈ rest := by
    obtain new | old := List.mem_append.1 member
    · obtain ⟨y, _, same⟩ := Option.map_eq_some_iff.1 (Option.mem_toList.1 new)
      cases same
    · exact List.mem_cons.1 old
  cases does with
  | serves | newFrame | newActor | registers | rests | begins => exact .inl inside
  | passes detours idle calls =>
    obtain new | old := List.mem_append.1 inside
    · exact (calls _ new).elim
    · exact .inl old
  | hands | closes | suspends | returns | finishes | lands | unwinds =>
    exact .inl (List.mem_cons_of_mem _ inside)
  | opens => exact .inl (by simpa using inside)
  | resumes =>
    obtain same | old := resumed inside
    · cases same
    · exact .inl old
  | leaps found top path =>
    obtain same | old := resumed inside
    · cases same
      exact .inr ⟨_, by simp [agent, Agent.resumed?, top, acyclic.ne_of_path path]; rfl⟩
    · exact .inl (List.mem_cons_of_mem _ old)
  | cancels =>
    obtain same | old := resumed inside
    · cases same
      exact .inr ⟨_, rfl⟩
    · exact .inl (List.mem_cons_of_mem _ old)

/-- A task that was not there before is a new one, and begins at a frame that the request names. -/
theorem entry_of_serve {st st' : State V C} {request : Request V C} {reply : request.Reply}
    (unknown : st.tasks.get? t = none) (served : st.serve request = .ok (reply, st')) (top : st'.top t = some f) :
    (∃ s, request = .spawn s f) ∨ ∃ s, request = .spawnBound s f := by
  have nowhere : st.top t = none := by simp [State.top, unknown]
  have skirts (apart : ¬ request.Mentions f) : False := by
    have now := (skirts_serve apart served).top t top
    simp [nowhere] at now
  have kept (same : st'.top t = st.top t) : False := by simp [same, nowhere] at top
  cases request with
  | spawn s entry =>
    obtain rfl : entry = f := Classical.not_not.1 skirts
    exact .inl ⟨s, rfl⟩
  | spawnBound s entry =>
    obtain rfl : entry = f := Classical.not_not.1 skirts
    exact .inr ⟨s, rfl⟩
  | pause u g =>
    simp only [serve, bind_ok, pure_ok, Prod.mk.injEq] at served
    obtain ⟨_, paused, _, rfl⟩ := served
    obtain ⟨known, rfl⟩ := pause_ok paused
    have other : t ≠ u := by
      rintro rfl
      simp [unknown] at known
    refine (kept ?_).elim
    rw [State.top, get?_modifyTask, if_neg other, State.top]
  | attach g caller =>
    simp only [serve, bind_ok, pure_ok, Prod.mk.injEq] at served
    obtain ⟨_, attached, _, rfl⟩ := served
    obtain ⟨_, _, rfl⟩ := attach_ok attached
    exact (kept rfl).elim
  | newGuard r body =>
    obtain rfl : _ = st' := congrArg Prod.snd (pure_ok.1 served)
    exact (kept rfl).elim
  | _ => exact (skirts id).elim

/-- Only requests make new tasks. -/
theorem entry_of_does (does : Does c config) (unknown : c.state.tasks.get? t = none)
    (top : config.state.top t = some f) : (∃ s next, c.focus = .code (.ask (.spawn s f) next)) ∨
      ∃ s next, c.focus = .code (.ask (.spawnBound s f) next) := by
  have nowhere : c.state.top t = none := by simp [State.top, unknown]
  have kept (same : config.state.top t = c.state.top t) : False := by simp [same, nowhere] at top
  have moved {st : State V C} {u : TaskId} {change : Task V → Task V} {task : Task V}
      (found : c.state.tasks.get? u = some task) (before : st.top t = c.state.top t) :
      (st.modifyTask u change).top t = c.state.top t := by
    have other : t ≠ u := by
      rintro rfl
      simp [unknown] at found
    rw [← before, State.top, get?_modifyTask, if_neg other, State.top]
  cases does with
  | serves served =>
    obtain ⟨s, rfl⟩ | ⟨s, rfl⟩ := entry_of_serve unknown served top
    · exact .inl ⟨s, _, rfl⟩
    · exact .inr ⟨s, _, rfl⟩
  | newFrame | newActor | registers | passes | rests | hands | opens | closes => exact (kept rfl).elim
  | @begins _ st₁ _ _ _ _ _ _ detours busy settled taken begun =>
    refine (kept ?_).elim
    obtain ⟨s, taken⟩ | ⟨_, rfl⟩ := taken
    · exact top_of_steady ((steady_takeReady taken).trans (steady_beginRun begun)) t
    · exact top_of_steady (steady_beginRun begun) t
  | @resumes st st' u g task after resumption stack found first resumed =>
    obtain keeps | ⟨_, body, value, rfl, calls⟩ := chains_resume resumed
    · exact (kept ((keeps.top t).trans (moved found rfl))).elim
    · have other : t ≠ u := by
        rintro rfl
        simp [show st.tasks.get? t = none from unknown] at found
      refine (kept ((calls.top t).trans ?_)).elim
      rw [if_neg other]
      exact moved found rfl
  | @suspends st st' u g after stack parked =>
    exact (kept ((Stops.park parked).1.top t |>.trans ((Quiet.endRun st u).top t))).elim
  | returns ends found => exact (kept (moved found rfl)).elim
  | @finishes st st' u g answer result task after stack ends found first link finished =>
    have idle : ((st.modifyTask u fun task => { task with top := none }).endRun u).top u = none := by
      simp [State.top, State.endRun, get?_modifyTask, found]
    refine (kept ((Stops.finish idle finished).top t |>.trans ?_)).elim
    exact moved found (moved found rfl)
  | lands found => exact (kept (moved found (moved found rfl))).elim
  | leaps found first path resumed =>
    refine (kept (((chains_resume resumed).resolve_right (by simp)).top t |>.trans ?_)).elim
    exact moved found rfl
  | cancels resumed => exact (kept (((chains_resume resumed).resolve_right (by simp)).top t)).elim
  | @unwinds st u target answer value after stack =>
    have gone : (landAt st u target value).tasks.get? t = none := by
      rw [landAt, get?_modifyTask]
      split
      · next same => simp [← same, show st.tasks.get? t = none from unknown]
      · exact unknown
    simp [State.top, gone] at top

end Config

namespace Crew

open State

variable {c c' : Crew V C} {a : Agent V C} {config : Config V C} {t u : TaskId} {f : FrameId}

/-- Every task can go on where its run is. -/
structure Ripe (c : Crew V C) : Prop where
  /-- A guard that let go is on no chain, unless it still runs. -/
  spent : ∀ {t f r}, c.state.top t = some f → Plain (c.stage t) → c.state.code? f = some (.guard r .released) →
    c.stage t = some (.inside f)
  skipped : ∀ {t doomed target f r phase}, c.stage t = some (.unwinding doomed target) → f ∈ doomed ++ [target] →
    c.state.code? f = some (.guard r phase) → phase = .held
  failing : ∀ {t task}, c.state.tasks.get? t = some task → task.error ≠ none → c.stage t = some .next ∧
    ∀ {f r phase}, task.top = some f → c.state.code? f = some (.guard r phase) → phase = .held
  anchored : ∀ {t task}, c.state.tasks.get? t = some task → task.life.isTerminal = false →
    ∃ f, c.picture.anchor t = some f

theorem Lulls.ripe (lulls : c.Lulls c') (ripe : c.Ripe) : c'.Ripe := by
  obtain ⟨thread, state⟩ := lulls.state
  have stage := lulls.stage
  have picture := lulls.picture
  constructor
  · rw [state, stage]
    exact ripe.spent
  · rw [state, stage]
    exact ripe.skipped
  · rw [state, stage]
    exact ripe.failing
  · rw [state, picture]
    exact ripe.anchored

/-- What is on a chain exists. -/
theorem Sound.known_of_onChain (sound : c.Sound) (on : c.picture.OnChain t f) : c.picture.known f := by
  obtain ⟨b, base, way⟩ := on
  refine sound.warded.known_of_reaches ?_ way
  by_cases plain : Plain (c.picture.stage t)
  · exact sound.warded.top_known ((base_plain plain).symm.trans base)
  · obtain ⟨doomed, target, at'⟩ : ∃ doomed target, c.picture.stage t = some (.unwinding doomed target) := by
      simpa [Plain] using plain
    rw [base_unwinding at'] at base
    obtain ⟨path, known⟩ := sound.warded.path at'
    cases doomed with
    | nil => exact Option.some.inj base ▸ known
    | cons g rest =>
      obtain rfl : g = b := by simpa using base
      obtain ⟨next, others, line⟩ : ∃ next others, rest ++ [target] = next :: others := by cases rest <;> simp
      rw [List.cons_append, line] at path
      exact State.exists_of_caller (List.isChain_cons_cons.1 path).1

/-- A task whose last frame finishes can be taken off the books. -/
theorem Orderly.emptied (orderly : c.Orderly) (sound : c.Sound) {answer : Answer V} {after : Focus V C}
    {rest : List (Activation V C)} (member : ⟨.code (.answer answer), .frame t f after :: rest⟩ ∈ c.agents)
    (ends : (∃ value, answer = .done value) ∨ ∃ error, answer = .throw error) {task : Task V}
    (found : c.state.tasks.get? t = some task) :
    ((c.state.modifyTask t fun task => { task with top := none }).endRun t).Balanced ∧
      ((c.state.modifyTask t fun task => { task with top := none }).endRun t).tasks.get? t =
        some { task with top := none, worker := none } ∧
      task.life = .running ∧ task.arranged = false ∧ task.listed = true := by
  have run : (t, .inside f) ∈ Agent.runs (⟨.code (.answer answer), .frame t f after :: rest⟩ : Agent V C) :=
    List.mem_cons_self
  obtain ⟨_, found', live⟩ := Orderly.get?_of_run sound member run
  obtain rfl := Option.some.inj (found.symm.trans found')
  have calm := orderly.calm_of member run found fun parks => by
    have heads := Agent.heads_frame.1 parks.2
    obtain ⟨_, rfl⟩ | ⟨_, rfl⟩ := ends <;> cases heads
  have first := becomes_modifyTask found fun task => { task with top := none }
  have second := becomes_modifyTask first.self fun task => { task with worker := none }
  have balanced : (c.state.modifyTask t fun task => { task with top := none }).Balanced :=
    orderly.balanced.modifyTask found fun _ => rfl
  exact ⟨balanced.modifyTask first.self fun _ => rfl, second.self, live, calm, by rw [orderly.listed found, live]; rfl⟩

variable [Inhabited V]

namespace Stepped

/-- A guard that the step does not resume is as it was, unless it is new. -/
theorem code_before (turn : c.Stepped a config c') {r : ResourceId} {phase : Phase V}
    (unresumed : ∀ u, a.resumed? c.state ≠ some (u, f)) (code : config.state.code? f = some (.guard r phase))
    (old : c.picture.known f ∨ ∀ body, phase ≠ .start body) : c.state.code? f = some (.guard r phase) := by
  cases Config.code?_of_does (c := a.config c.state) turn.sound.warded.acyclic turn.does f with
  | same kept => exact kept ▸ code
  | resumed label => exact absurd label (unresumed _)
  | made unused new makes =>
    obtain known | called := old
    · exact absurd unused (code?_of_known known)
    · cases makes with
      | host | join | message => simp [new] at code
      | guard | keeper =>
        obtain ⟨rfl, rfl⟩ : _ = r ∧ _ = phase := by simpa [new] using code
        exact absurd rfl (called _)

/-- No step concerns the frames on the chain of another task. -/
theorem unresumed (turn : c.Stepped a config c') (on : c.picture.OnChain t f)
    (other : some t ≠ (a.config c.state).concern config) (u : TaskId) : a.resumed? c.state ≠ some (u, f) := by
  intro label
  obtain ⟨concerns, on'⟩ := turn.concern_of_resumed label
  obtain rfl : t = u := turn.sound.warded.apart (.inl on) (.inl on')
  exact other concerns.symm

omit [Inhabited V] in
/-- Whatever is called from a frame in use holds, if it is a guard. -/
theorem held_beneath (sound : c.Sound) {h : FrameId} (uses : c.picture.Uses t h) (link : c.state.caller h = some f)
    {r : ResourceId} {phase : Phase V} (code : c.state.code? f = some (.guard r phase)) : phase = .held :=
  sound.warded.beneath uses link (guard?_of_code? code)

/-- A frame that finishes leaves the top of its chain to its caller. -/
theorem top_of_ends {answer : Answer V} {after : Focus V C} {rest : List (Activation V C)}
    (turn : c.Stepped ⟨.code (.answer answer), .frame t f after :: rest⟩ config c')
    (ends : (∃ value, answer = .done value) ∨ ∃ error, answer = .throw error) :
    c.state.top t = some f ∧ config.state.top t = c.state.caller f := by
  have does : Config.Does ⟨c.state, .code (.answer answer), .frame t f after :: rest⟩ config := turn.does
  have known (top : c.state.top t = some f) := isSome_of_top top
  cases does with
  | passes detours => exact absurd rfl ((detours.2 _ rfl).1 _)
  | begins _ busy => exact absurd rfl (busy _)
  | suspends | lands | leaps => obtain ⟨_, same⟩ | ⟨_, same⟩ := ends <;> cases same
  | @returns _ _ _ caller _ result task _ _ _ found top link =>
    refine ⟨(top_of_get? found).trans top, ?_⟩
    rw [link, State.top, get?_modifyTask, if_pos rfl, found]
    cases result <;> rfl
  | finishes _ found top link finished =>
    refine ⟨(top_of_get? found).trans top, (Stops.finish ?_ finished).top t |>.trans ?_⟩
    · simp [State.top, State.endRun, get?_modifyTask, found]
    · rw [link]
      simp [State.top, State.endRun, get?_modifyTask, found]

/-- A ready-made frame that runs has answered, and the step that concerns its task deals with the answer. -/
theorem answering (turn : c.Stepped a config c') (prompt : c.Prompt)
    (mine : (a.config c.state).concern config = some t) (inside : c.stage t = some (.inside f))
    (made : c.state.ReadyMade f) : ∃ answer after rest, a = ⟨.code (.answer answer), .frame t f after :: rest⟩ := by
  obtain ⟨b, member, run⟩ := List.mem_flatMap.1 ((stage_eq_some_iff turn.sound.distinct).1 inside)
  obtain ⟨after, frame⟩ := Agent.frame_of_run run
  obtain ⟨answer, rest, rfl, _⟩ := prompt b member frame made
  refine ⟨answer, after, rest, ?_⟩
  obtain ⟨s, others, line⟩ | ⟨focus, w, st₁, st₂, taken, begun⟩ := concern_cases turn.does mine
  · exact turn.sound.sole member turn.member run (line ▸ List.mem_cons_self)
  · obtain ⟨task, found, ready, _⟩ := turn.orderly.ready_of_begins taken begun
    simpa [State.life, found, ready] using turn.sound.life_of_stage inside

/-- A guard that let go and still runs is about to finish. -/
theorem ends_of_released (turn : c.Stepped a config c') (prompt : c.Prompt)
    (mine : (a.config c.state).concern config = some t) (inside : c.stage t = some (.inside f)) {r : ResourceId}
    (code : c.state.code? f = some (.guard r .released)) : ∃ answer after rest,
      a = ⟨.code (.answer answer), .frame t f after :: rest⟩ ∧
        ((∃ value, answer = .done value) ∨ ∃ error, answer = .throw error) := by
  obtain ⟨answer, after, rest, rfl⟩ := turn.answering prompt mine inside ⟨_, code, rfl⟩
  refine ⟨answer, after, rest, rfl, ?_⟩
  obtain ⟨value, ends⟩ | ⟨error, ends⟩ := turn.sound.answers turn.member (guard?_of_code? code)
  · exact .inl ⟨value, Program.answer.inj ends⟩
  · exact .inr ⟨error, Program.answer.inj ends⟩

/-- Where a step goes on that resumes a frame: the frame runs on top of its chain, or an unwind cancels it. -/
theorem resumes_at (turn : c.Stepped a config c') (label : a.resumed? c.state = some (t, f)) :
    c'.stage t = some (.inside f) ∨ ∃ doomed target, c'.stage t = some (.unwinding doomed target) ∧
      (f :: doomed ++ [target]).IsChain fun f g => c.state.caller f = some g := by
  obtain ⟨value, error, st, resumption, x, rest, given, resumed, same⟩ :=
    Config.given_of_does (c := a.config c.state) turn.sound.warded.acyclic turn.does label
  have run {s : Stage} (at' : x.run? = some (t, s)) : c'.stage t = some s :=
    turn.now (same ▸ Agent.resumed_mem_runs at' ..)
  cases given with
  | top => exact .inl (run rfl)
  | @cancelled _ _ doomed target value after rest focus _ cause =>
    refine .inr ⟨doomed, target, run rfl, ?_⟩
    obtain stack | ⟨h, onwards, _, _, path⟩ := cause
    · have was : (t, .unwinding (f :: doomed) target) ∈ a.runs :=
        List.mem_append_right _ (List.mem_filterMap.2 ⟨_, (show a.stack = _ from stack) ▸ List.mem_cons_self, rfl⟩)
      exact (turn.sound.warded.path (turn.was was)).1
    · exact path

/-- The runs of other tasks, and of tasks for which no frame is resumed, unwind as they did. -/
theorem unwinding_before (turn : c.Stepped a config c') {doomed : List FrameId} {target : FrameId}
    (now : c'.stage t = some (.unwinding doomed target)) (unresumed : ∀ g, a.resumed? c.state ≠ some (t, g)) :
    c.stage t = some (.unwinding doomed target) := by
  by_cases mine : (a.config c.state).concern config = some t
  · obtain ⟨value, after, inside⟩ := Agent.cancel_of_run (turn.run_of_stage mine now)
    obtain old | ⟨g, label⟩ := Config.cancel_of_does (c := a.config c.state) turn.sound.warded.acyclic turn.does inside
    · exact turn.was (List.mem_append_right _ (List.mem_filterMap.2 ⟨_, old, rfl⟩))
    · exact absurd label (unresumed g)
  · exact (turn.stage (Ne.symm mine)).symm.trans now

theorem known_of_concern (turn : c.Stepped a config c') (mine : (a.config c.state).concern config = some t) :
    (c.state.tasks.get? t).isSome = true := by
  obtain ⟨s, others, line⟩ | ⟨focus, w, st₁, st₂, taken, begun⟩ := concern_cases turn.does mine
  · obtain ⟨task, found, _⟩ := Orderly.get?_of_run turn.sound turn.member (line ▸ List.mem_cons_self)
    simp [found]
  · obtain ⟨task, found, _⟩ := turn.orderly.ready_of_begins taken begun
    simp [found]

/-- A chain that the step does not concern began where it begins, or is that of a new task. -/
theorem top_before (turn : c.Stepped a config c') (other : some t ≠ (a.config c.state).concern config)
    (top : config.state.top t = some f) : c.state.top t = some f ∨ c.picture.Idle f := by
  cases known : c.state.tasks.get? t with
  | some task => exact .inl ((turn.top_other other (by simp [known])).symm.trans top)
  | none =>
    obtain ⟨focus, stack⟩ := a
    obtain ⟨s, next, rfl⟩ | ⟨s, next, rfl⟩ : (∃ s next, focus = _) ∨ ∃ s next, focus = _ :=
      Config.entry_of_does turn.does known top
    · exact .inr turn.careful.consents.idle
    · exact .inr turn.careful.consents.idle

/-- The guards that an unwind is to cancel, or goes on at, hold. -/
theorem ripe_skipped (turn : c.Stepped a config c') (ripe : c.Ripe) {doomed : List FrameId} {target : FrameId}
    {r : ResourceId} {phase : Phase V} (now : c'.stage t = some (.unwinding doomed target))
    (member : f ∈ doomed ++ [target]) (code : config.state.code? f = some (.guard r phase)) : phase = .held := by
  have warded := turn.sound.warded
  by_cases resumes : ∃ g, a.resumed? c.state = some (t, g)
  · obtain ⟨g, label⟩ := resumes
    obtain inside | ⟨doomed', target', unwinds, path⟩ := turn.resumes_at label
    · cases now.symm.trans inside
    · obtain ⟨rfl, rfl⟩ : doomed' = doomed ∧ target' = target := by simpa using unwinds.symm.trans now
      obtain ⟨h, way, link⟩ := Picture.caller_of_path path member
      obtain ⟨b, base, way'⟩ := (turn.concern_of_resumed label).2
      have on : c.picture.OnChain t h := ⟨b, base, way'.trans way⟩
      -- The frame itself is not the one that is cancelled now, as no frame is on a path twice.
      have other : ∀ u, a.resumed? c.state ≠ some (u, f) := by
        intro u label'
        obtain ⟨rfl, rfl⟩ : t = u ∧ g = f := by simpa using label.symm.trans label'
        exact warded.acyclic g (Relation.TransGen.tail' way link)
      exact held_beneath turn.sound (.inl on) link (turn.code_before other code (.inl (warded.caller_known link)))
  · have before := turn.unwinding_before now fun g label => resumes ⟨g, label⟩
    have on : c.picture.OnChain t f := onChain_of_mem_path warded.toWoven before member
    refine ripe.skipped before member (turn.code_before (fun u label => ?_) code (.inl (turn.sound.known_of_onChain on)))
    obtain rfl : t = u := warded.apart (.inl on) (.inl (turn.concern_of_resumed label).2)
    exact resumes ⟨f, label⟩

/-- A frame that was just resumed runs, if it is where its chain begins: what is cancelled is on no chain. -/
theorem inside_of_resumed (turn : c.Stepped a config c') (top : config.state.top t = some f)
    (plain : Plain (c'.stage t)) (label : a.resumed? c.state = some (u, f)) : c'.stage t = some (.inside f) := by
  obtain ⟨concerns, on⟩ := turn.concern_of_resumed label
  have on' : c'.picture.OnChain t f := .of_base ((base_plain plain).trans (by rwa [← turn.state] at top))
  obtain inside | ⟨doomed, target, unwinds, _⟩ := turn.resumes_at label
  · obtain rfl : t = u := turn.sound'.warded.apart (.inl on') (.inr inside)
    exact inside
  · have other : t ≠ u := by
      rintro rfl
      exact plain _ _ unwinds
    have apart : some t ≠ (a.config c.state).concern config := by
      rw [concerns]
      exact fun same => other (Option.some.inj same)
    obtain before | idle := turn.top_before apart top
    · have stage := turn.stage apart
      rw [stage] at plain
      exact absurd (turn.sound.warded.apart (.inl (.of_base ((base_plain plain).trans before))) (.inl on)) other
    · exact absurd (.inl on) (idle.unused u)

/-- The chain of the task that a step concerns begins at no guard that has let go, unless the step resumes that. -/
theorem not_released (turn : c.Stepped a config c') (prompt : c.Prompt) (ripe : c.Ripe)
    (mine : (a.config c.state).concern config = some t) (top : config.state.top t = some f)
    (plain : Plain (c'.stage t)) {r : ResourceId} : c.state.code? f ≠ some (.guard r .released) := by
  intro code
  have warded := turn.sound.warded
  -- Nobody puts a guard that was resumed on a chain.
  have stale : ¬ c.picture.Idle f := fun idle => by
    obtain ⟨body, same⟩ := idle.unresumed (guard?_of_code? code)
    cases same
  have notHeld {h : FrameId} (uses : c.picture.Uses t h) (link : c.state.caller h = some f) : False := by
    cases held_beneath turn.sound uses link code
  -- The guard finished and left its chain if it was at the top.
  have gone (before : c.state.top t = some f) (plain : Plain (c.stage t)) : False := by
    obtain ⟨answer, after, rest, rfl, ends⟩ := turn.ends_of_released prompt mine (ripe.spent before plain code) code
    exact warded.acyclic f (.single ((turn.top_of_ends ends).2.symm.trans top))
  have now : c'.picture.top t = some f := by rwa [← turn.state] at top
  have anchor : c'.picture.anchor t = some f := (anchor_of_plain plain).trans now
  cases turn.shifts (turn.known_of_concern mine) with
  | stays stays =>
    rw [stays.anchor] at anchor
    by_cases plain' : Plain (c.picture.stage t)
    · exact gone ((anchor_of_plain plain').symm.trans anchor) plain'
    · obtain ⟨doomed, target, at'⟩ : ∃ doomed target, c.picture.stage t = some (.unwinding doomed target) := by
        simpa [Plain] using plain'
      obtain rfl : target = f := Option.some.inj ((anchor_unwinding at').symm.trans anchor)
      cases ripe.skipped at' (List.mem_append_right _ (List.mem_singleton_self _)) code
  | @puts g h next focus inside _ _ first =>
    obtain ⟨_, stack⟩ := a
    obtain rfl : _ = _ := focus
    obtain rfl : h = f := Option.some.inj (first.symm.trans now)
    exact absurd turn.careful.consents.1 stale
  | @relinks g h caller next focus _ inside _ first =>
    obtain ⟨_, stack⟩ := a
    obtain rfl : _ = _ := focus
    have fresh : c.Fresh h := turn.careful.consents.1
    exact absurd (.inl (.of_base ((base_inside inside).trans first))) (fresh.idle.unused t)
  | calls _ _ _ idle _ first =>
    obtain rfl := Option.some.inj (first.symm.trans now)
    exact absurd idle stale
  | returns _ _ inside _ link _ first =>
    obtain rfl := Option.some.inj (first.symm.trans now)
    exact notHeld (.inr inside) link
  | ends ends same _ _ last =>
    subst same
    have left := (turn.top_of_ends ends).2.symm.trans top
    exact absurd (last.symm.trans left) (by simp)
  | @jumps g s target value after rest same inside start way lands =>
    obtain rfl : target = f := Option.some.inj (lands.symm.trans anchor)
    obtain rfl | ⟨h, above, link⟩ := way.cases_last
    · obtain ⟨_, link⟩ | first := start
      · exact notHeld (.inr inside) link
      · exact gone first ((show c.stage t = _ from inside) ▸ plain_inside)
    · have on : c.picture.OnChain t s := by
        obtain ⟨_, link⟩ | first := start
        · exact warded.onChain_caller inside link
        · exact .of_base ((base_inside inside).trans first)
      obtain ⟨b, base, reaches⟩ := on
      exact notHeld (.inl ⟨b, base, reaches.trans above⟩) link

/-- A guard that let go leaves its chain. -/
theorem ripe_spent (turn : c.Stepped a config c') (prompt : c.Prompt) (ripe : c.Ripe) {r : ResourceId}
    (top : config.state.top t = some f) (plain : Plain (c'.stage t))
    (code : config.state.code? f = some (.guard r .released)) : c'.stage t = some (.inside f) := by
  by_cases resumes : ∃ u, a.resumed? c.state = some (u, f)
  · obtain ⟨u, label⟩ := resumes
    exact turn.inside_of_resumed top plain label
  · have code' := turn.code_before (fun u label => resumes ⟨u, label⟩) code (.inr (by simp))
    by_cases mine : (a.config c.state).concern config = some t
    · exact absurd code' (turn.not_released prompt ripe mine top plain)
    · obtain before | idle := turn.top_before (Ne.symm mine) top
      · have stage := turn.stage (Ne.symm mine)
        rw [stage] at plain ⊢
        exact ripe.spent before plain code'
      · obtain ⟨body, same⟩ := idle.unresumed (guard?_of_code? code')
        cases same

/-- A frame that suspends leaves the error of its task alone. -/
theorem follows_of_suspends {t : TaskId} {after : Focus V C} {st : State V C} {rest : List (Activation V C)}
    (turn : c.Stepped ⟨.code (.answer .suspended), .frame t f after :: rest⟩ config c')
    (parked : (c.state.endRun t).park t = .ok st) : State.Follows c.state st := by
  obtain ⟨task, found, _⟩ := Orderly.get?_of_run turn.sound turn.member (t := t) (s := .inside f) List.mem_cons_self
  have left := becomes_modifyTask found fun task => { task with worker := none }
  have rested : State.Follows c.state (c.state.endRun t) := .of_becomes found left (fun _ => id) rfl (.inl rfl)
  refine rested.trans ⟨attends_park left.self parked, fun {v task'} found' failing => ?_⟩
  have becomes := becomes_park left.self parked
  by_cases same : v = t
  · subst same
    obtain rfl := Option.some.inj (becomes.self.symm.trans found')
    refine ⟨_, left.self, ?_⟩
    unfold Task.parked
    split <;> rfl
  · exact ⟨task', (becomes.other same).symm.trans found', rfl⟩

/-- A task that comes to its end has no error, and those that it wakes have theirs. -/
theorem follows_of_finishes {answer : Answer V} {after : Focus V C} {st : State V C} {rest : List (Activation V C)}
    {result : Except (Error V) V} (turn : c.Stepped ⟨.code (.answer answer), .frame t f after :: rest⟩ config c')
    (ends : (∃ value, answer = .done value) ∨ ∃ error, answer = .throw error) {task : Task V}
    (found : c.state.tasks.get? t = some task)
    (finished : ((c.state.modifyTask t fun task => { task with top := none }).endRun t).finish t result = .ok st) :
    State.Follows c.state st := by
  obtain ⟨balanced, found', _, calm, listed⟩ := turn.orderly.emptied turn.sound turn.member ends found
  have first := becomes_modifyTask found fun task => { task with top := none }
  have second := becomes_modifyTask first.self fun task => { task with worker := none }
  have emptied : State.Follows c.state ((c.state.modifyTask t fun task => { task with top := none }).endRun t) :=
    .of_becomes found (first.trans second) (fun _ => id) rfl (.inl rfl)
  refine emptied.trans ⟨attends_finish balanced found' calm listed finished, ?_⟩
  intro v task' there failing
  rw [(balanced.finish found' calm listed finished).2] at there
  split at there
  · obtain rfl := Option.some.inj there
    exact absurd rfl failing
  · split at there
    · obtain ⟨other, before, rfl⟩ := Option.map_eq_some_iff.1 there
      refine ⟨other, before, ?_⟩
      unfold Task.woken
      split <;> rfl
    · exact ⟨task', there, rfl⟩

/-- Errors stay what they are, and nobody gives up waiting for a task, unless a frame returns to its caller. -/
theorem follows (turn : c.Stepped a config c') : State.Follows c.state config.state ∨
    ∃ t f caller answer result after rest task, a = ⟨.code (.answer answer), .frame t f after :: rest⟩ ∧
      c.state.tasks.get? t = some task ∧ c.state.caller f = some caller ∧
      config = ⟨c.state.modifyTask t fun task => Config.returnTo task caller result, .trampoline t after, rest⟩ := by
  obtain ⟨focus, stack⟩ := a
  have balanced := turn.orderly.balanced
  cases turn.does with
  | serves served => exact .inl (turn.follows_of_served served)
  | newFrame | newActor | registers | opens | closes => exact .inl (.of_tasks rfl)
  | passes | rests | hands => exact .inl (.refl _)
  | begins detours busy settled taken begun =>
    obtain ⟨task, found, ready, becomes⟩ := turn.orderly.ready_of_begins taken begun
    obtain ⟨linked, becomes⟩ := becomes
    exact .inl (.of_becomes found (becomes.trans (becomes_beginRun becomes.self begun)) (fun _ => id) rfl (.inl rfl))
  | @resumes _ _ u g task after resumption _ found top resumed =>
    have first : c.state.top u = some g := (State.top_of_get? found).trans top
    obtain ⟨_, found', live, calm⟩ := turn.calm_of_resumed (t := u) (f := g) (by simp [Agent.resumed?, first])
    obtain rfl := Option.some.inj (found.symm.trans found')
    have becomes := becomes_modifyTask found fun task => { task with value := default, error := none }
    have unloaded : State.Follows c.state (c.state.unloaded u) := .of_becomes found becomes (fun _ => id) rfl (.inr rfl)
    exact .inl (unloaded.trans (follows_resume (balanced.modifyTask found fun _ => rfl) becomes.self live calm resumed))
  | suspends parked => exact .inl (turn.follows_of_suspends parked)
  | returns ends found top link =>
    exact .inr ⟨_, _, _, _, _, _, _, _, rfl, found, link, rfl⟩
  | finishes ends found top link finished => exact .inl (turn.follows_of_finishes ends found finished)
  | @lands _ u g target value task after rest found top =>
    have moved := becomes_modifyTask found fun task => { task with top := some target }
    exact .inl (.of_becomes found (moved.trans (becomes_modifyTask moved.self _)) (fun _ => id) rfl (.inr rfl))
  | @leaps _ _ u g h target value task rest after resumption behind found top path resumed =>
    have label : Agent.resumed? ⟨.code (.answer (.jump target value)), .frame u g after :: behind⟩ c.state =
        some (u, h) := by
      simp [Agent.resumed?, top, turn.sound.warded.acyclic.ne_of_path path]
    obtain ⟨_, found', live, calm⟩ := turn.calm_of_resumed label
    obtain rfl := Option.some.inj (found.symm.trans found')
    have becomes := becomes_modifyTask found fun task => { task with top := some h }
    have moved : State.Follows c.state (c.state.modifyTask u fun task => { task with top := some h }) :=
      .of_becomes found becomes (fun _ => id) rfl (.inl rfl)
    exact .inl (moved.trans (follows_resume (balanced.modifyTask found fun _ => rfl) becomes.self live calm resumed))
  | cancels resumed =>
    obtain ⟨_, found, live, calm⟩ := turn.calm_of_resumed rfl
    exact .inl (follows_resume balanced found live calm resumed)
  | @unwinds _ u target answer value after rest =>
    obtain ⟨task, found, _⟩ := Orderly.get?_of_run turn.sound turn.member (t := u) (s := .unwinding [] target)
      List.mem_cons_self
    exact .inl (.of_becomes found (becomes_modifyTask found _) (fun _ => id) rfl (.inr rfl))

/-- The run of a task that is about to go on does so with the top frame. -/
theorem goes_on (turn : c.Stepped a config c') (mine : (a.config c.state).concern config = some t)
    (next : c.stage t = some .next) : ∃ f after, .frame t f after ∈ config.agent.stack := by
  obtain ⟨b, member, run⟩ := List.mem_flatMap.1 ((stage_eq_some_iff turn.sound.distinct).1 next)
  obtain rfl : b = a := by
    obtain ⟨s, others, line⟩ | ⟨focus, w, st₁, st₂, taken, begun⟩ := concern_cases turn.does mine
    · exact turn.sound.sole turn.member member (line ▸ List.mem_cons_self) run
    · obtain ⟨task, found, ready, _⟩ := turn.orderly.ready_of_begins taken begun
      simpa [State.life, found, ready] using turn.sound.life_of_stage next
  obtain ⟨_, stack⟩ := b
  obtain ⟨after, rfl⟩ := Agent.trampoline_of_run run
  cases turn.does with
  | passes detours => cases detours.1
  | begins detours => cases detours.1
  | resumes => exact ⟨_, after, List.mem_append_right _ List.mem_cons_self⟩

/-- The frames of other tasks are as they were. -/
theorem code_other (turn : c.Stepped a config c') (on : c.picture.OnChain t f)
    (other : some t ≠ (a.config c.state).concern config) {r : ResourceId} {phase : Phase V}
    (code : config.state.code? f = some (.guard r phase)) : c.state.code? f = some (.guard r phase) :=
  turn.code_before (turn.unresumed on other) code (.inl (turn.sound.known_of_onChain on))

theorem ripe_failing (turn : c.Stepped a config c') (ripe : c.Ripe) {task' : Task V}
    (found' : config.state.tasks.get? t = some task') (failing : task'.error ≠ none) : c'.stage t = some .next ∧
      ∀ {f r phase}, task'.top = some f → config.state.code? f = some (.guard r phase) → phase = .held := by
  have sound := turn.sound
  -- A task that the step does not concern stays as it was.
  have still (other : some t ≠ (a.config c.state).concern config) {task : Task V}
      (found : c.state.tasks.get? t = some task) (same : task.error = task'.error) : c'.stage t = some .next ∧
      ∀ {f r phase}, task'.top = some f → config.state.code? f = some (.guard r phase) → phase = .held := by
    obtain ⟨next, held⟩ := ripe.failing found (same ▸ failing)
    obtain ⟨_, found'', alike⟩ := turn.spares.alike other found
    obtain rfl := Option.some.inj (found'.symm.trans found'')
    refine ⟨(turn.stage other).trans next, fun {f r phase} top code => ?_⟩
    rw [alike.top] at top
    have on : c.picture.OnChain t f := .of_base ((base_next next).trans ((top_of_get? found).trans top))
    exact held top (turn.code_other on other code)
  obtain follows | ⟨u, g, caller, answer, result, after, rest, task, rfl, found, link, rfl⟩ := turn.follows
  · obtain ⟨task, found, same⟩ := follows.error found' failing
    by_cases mine : (a.config c.state).concern config = some t
    · -- The step resumes the frame that was to be given the error.
      obtain ⟨g, after, inside⟩ := turn.goes_on mine (ripe.failing found (same ▸ failing)).1
      obtain ⟨_, found'', inputs⟩ := turn.cleared' _ turn.member' inside
      rw [turn.state, found'] at found''
      obtain rfl := Option.some.inj found''
      exact absurd (congrArg Prod.snd inputs) failing
    · exact still (Ne.symm mine) found same
  · by_cases mine : t = u
    · subst mine
      refine ⟨turn.now (Agent.next_mem_runs ..), fun {f r phase} top code => ?_⟩
      obtain rfl : task' = Config.returnTo task caller result := by
        simpa [get?_modifyTask, found] using found'.symm
      obtain rfl : caller = f := by
        cases result <;> exact Option.some.inj top
      exact held_beneath sound (.inr (sound.inside turn.member)) link code
    · refine still (fun same => mine (Option.some.inj same)) (?_ : c.state.tasks.get? t = some task') rfl
      rwa [get?_modifyTask, if_neg mine] at found'

/-- A task that is not at its end was not at its end. -/
theorem open_before (turn : c.Stepped a config c') {task task' : Task V} (found : c.state.tasks.get? t = some task)
    (found' : config.state.tasks.get? t = some task') (open' : task'.life.isTerminal = false) :
    task.life.isTerminal = false := by
  by_cases mine : (a.config c.state).concern config = some t
  · obtain ⟨s, others, line⟩ | ⟨focus, w, st₁, st₂, taken, begun⟩ := concern_cases turn.does mine
    · obtain ⟨_, there, live⟩ := Orderly.get?_of_run turn.sound turn.member (line ▸ List.mem_cons_self)
      obtain rfl := Option.some.inj (found.symm.trans there)
      simp [live, Life.isTerminal]
    · obtain ⟨_, there, ready, _⟩ := turn.orderly.ready_of_begins taken begun
      obtain rfl := Option.some.inj (found.symm.trans there)
      simp [ready, Life.isTerminal]
  · obtain ⟨_, there, alike⟩ := turn.spares.alike (Ne.symm mine) found
    obtain rfl := Option.some.inj (found'.symm.trans there)
    exact alike.terminal.symm.trans open'

/-- A task whose last frame finished is at its end. -/
theorem closes {answer : Answer V} {after : Focus V C} {rest : List (Activation V C)}
    (turn : c.Stepped ⟨.code (.answer answer), .frame t f after :: rest⟩ config c')
    (ends : (∃ value, answer = .done value) ∨ ∃ error, answer = .throw error) (last : c.state.caller f = none)
    {task' : Task V} (found' : config.state.tasks.get? t = some task') : task'.life.isTerminal = true := by
  have does : Config.Does ⟨c.state, .code (.answer answer), .frame t f after :: rest⟩ config := turn.does
  cases does with
  | passes detours => exact absurd rfl ((detours.2 _ rfl).1 _)
  | begins _ busy => exact absurd rfl (busy _)
  | suspends | lands | leaps => obtain ⟨_, same⟩ | ⟨_, same⟩ := ends <;> cases same
  | returns _ _ _ link => exact absurd (link.symm.trans last) (by simp)
  | finishes _ found top link finished =>
    obtain ⟨balanced, there, _, calm, listed⟩ := turn.orderly.emptied turn.sound turn.member ends found
    have now := ((balanced.finish there calm listed finished).2 t).trans (if_pos rfl)
    obtain rfl := Option.some.inj (found'.symm.trans now)
    exact isTerminal_finalLife _

theorem ripe_anchored (turn : c.Stepped a config c') (ripe : c.Ripe) {task' : Task V}
    (found' : config.state.tasks.get? t = some task') (open' : task'.life.isTerminal = false) :
    ∃ f, c'.picture.anchor t = some f := by
  have top : c'.picture.top t = task'.top := (turn.state ▸ top_of_get? found' : c'.state.top t = task'.top)
  cases found : c.state.tasks.get? t with
  | none =>
    -- A new task does not run.
    obtain ⟨fresh, _, _, begins⟩ := (turn.spares.back found').resolve_left (by simp [found])
    have idle : c'.stage t = none := turn.sound'.stage_of_life (by
      rw [turn.state]
      obtain init | ready := fresh <;> simp [State.life, *])
    obtain ⟨f, first⟩ := Option.isSome_iff_exists.1 begins
    exact ⟨f, (anchor_of_plain (show Plain (c'.stage t) from idle ▸ plain_none)).trans (top.trans first)⟩
  | some task =>
    obtain ⟨g, anchor⟩ := ripe.anchored found (turn.open_before found found' open')
    have inside {s : Option Stage} (stage : c'.picture.stage t = s) (plain : Plain s) {h : FrameId}
        (top : c'.picture.top t = some h) : ∃ f, c'.picture.anchor t = some f :=
      ⟨h, (anchor_of_plain (stage ▸ plain)).trans top⟩
    cases turn.shifts (show (c.state.tasks.get? t).isSome = true by simp [found]) with
    | stays stays => exact ⟨g, stays.anchor.trans anchor⟩
    | puts _ _ was stage first => exact inside (stage.trans was) plain_inside first
    | relinks _ _ was stage first same => exact inside (stage.trans was) plain_inside (same.trans first)
    | calls _ _ _ _ stage first => exact inside stage plain_inside first
    | returns _ _ _ _ _ stage first => exact inside stage plain_next first
    | ends ends same _ _ last =>
      subst same
      rw [turn.closes ends last found'] at open'
      cases open'
    | jumps _ _ _ _ lands => exact ⟨_, lands⟩

theorem ripe (turn : c.Stepped a config c') (prompt : c.Prompt) (ripe : c.Ripe) : c'.Ripe where
  spent top plain code := by
    rw [turn.state] at top code
    exact turn.ripe_spent prompt ripe top plain code
  skipped now member code := by
    rw [turn.state] at code
    exact turn.ripe_skipped ripe now member code
  failing {t task} found failing := by
    rw [turn.state] at found ⊢
    exact turn.ripe_failing ripe found failing
  anchored {t task} found open' := by
    rw [turn.state] at found
    exact turn.ripe_anchored ripe found open'

end Stepped

omit [Inhabited V] in
/-- At first there is no task that could be at the wrong place. -/
theorem ripe_initial (parallelism : Nat) : (initial parallelism : Crew V C).Ripe := by
  have gone (t : TaskId) : (initial parallelism : Crew V C).state.tasks.get? t = none := by
    simp [initial, State.initial]
  have idle (t : TaskId) : (initial parallelism : Crew V C).stage t = none := rfl
  refine ⟨fun {t} _ _ top => ?_, fun {t} _ _ _ _ _ at' => ?_, fun {t} _ found => ?_, fun {t} _ found => ?_⟩
  · simp [State.top, gone] at top
  · simp [idle] at at'
  · simp [gone] at found
  · simp [gone] at found

end Crew

end Tasking
