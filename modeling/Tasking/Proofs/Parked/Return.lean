import Tasking.Proofs.Apart.Frames
import Tasking.Proofs.Parked.Inputs

/-! # Tasks that nobody has in hand

If all threads mind the frames of their tasks, then a task that is parked or ready is left alone by every step
(`Crew.Dormant.step`), and a task that runs has no error for its top frame, and the default value unless it
unwound itself by hand (`Crew.Run.Fed.step`).
-/

namespace Tasking

variable {V C : Type} {home : FrameId → TaskId}

namespace State

variable {st st' : State V C} {t : TaskId}

/-- A task's computation is the same in two states: its registers, its chain, and the frames on the chain with
their callers and their code.  So a guard that is parked holds the same value for the same body. -/
structure Intact (t : TaskId) (st st' : State V C) : Prop where
  register : (st'.tasks.get? t).map Task.register = (st.tasks.get? t).map Task.register
  chain : st'.chainOf (st'.top t) = st.chainOf (st.top t)
  frame : ∀ f ∈ st.chainOf (st.top t), st'.frames.get? f = st.frames.get? f

theorem Housed.rooted (housed : st.Housed home) (acyclic : Acyclic st.caller) : st.Rooted :=
  ⟨acyclic, fun link => (housed.caller link).1⟩

theorem Housed.of_reaches (housed : st.Housed home) {f g : FrameId} (known : st.Known f)
    (way : Reaches st.caller f g) : st.Known g ∧ home g = home f := by
  induction way with
  | refl => exact ⟨known, rfl⟩
  | tail way link inductionHypothesis =>
    obtain ⟨there, own⟩ := housed.caller link
    exact ⟨there, own.trans inductionHypothesis.2⟩

/-- A chain whose frames are all there for one task is followed alike as long as that task is respected. -/
theorem Respects.chainUpTo_eq (respects : Respects home (· = t) st st') (housed : st.Housed home) (bound : Nat)
    {f : FrameId} (known : st.Known f) (own : home f = t) : st'.chainUpTo bound f = st.chainUpTo bound f := by
  induction bound generalizing f with
  | zero => rfl
  | succ bound inductionHypothesis =>
    obtain ⟨frame, found⟩ := Option.isSome_iff_exists.1 known
    obtain ⟨frame', found', same⟩ := respects.frame found
    obtain rfl := same own
    have callers : st'.caller f = st.caller f := by rw [State.caller, found', State.caller, found]
    rw [chainUpTo_succ, chainUpTo_succ, callers]
    cases link : st.caller f with
    | none => rfl
    | some g =>
      obtain ⟨there, own'⟩ := housed.caller link
      exact congrArg (f :: ·) (inductionHypothesis there (own'.trans own))

theorem Respects.intact (respects : Respects home (· = t) st st') (housed : st.Housed home)
    (acyclic : Acyclic st.caller) (acyclic' : Acyclic st'.caller) {task : Task V}
    (found : st.tasks.get? t = some task) : Intact t st st' := by
  obtain ⟨task', found', same, _⟩ := respects.task found
  have register := same rfl
  have top : st'.top t = st.top t := by
    rw [State.top, found', State.top, found]
    exact congrArg Prod.fst register
  refine ⟨by rw [found', found]; exact congrArg some register, ?_, fun f member => ?_⟩
  · rw [top]
    cases here : st.top t with
    | none => rfl
    | some f =>
      obtain ⟨known, own⟩ := housed.top here
      change st'.chainUpTo st'.frames.size f = st.chainUpTo st.frames.size f
      -- There may be more frames than before, but a chain is no longer than there are frames.
      rcases Nat.le_total st.frames.size st'.frames.size with more | fewer
      · obtain ⟨extra, size⟩ := Nat.exists_eq_add_of_le more
        rw [respects.chainUpTo_eq housed _ known own, size, (housed.rooted acyclic).chainUpTo_eq known]
        rfl
      · obtain ⟨extra, size⟩ := Nat.exists_eq_add_of_le fewer
        rw [← respects.chainUpTo_eq housed _ known own, size,
          ((respects.housed housed).rooted acyclic').chainUpTo_eq (respects.known known)]
        rfl
  · cases here : st.top t with
    | none => rw [here] at member; cases member
    | some g =>
      rw [here] at member
      obtain ⟨known, own⟩ := housed.top here
      obtain ⟨there, own'⟩ := housed.of_reaches known (reaches_of_mem_chainUpTo member)
      obtain ⟨frame, found⟩ := Option.isSome_iff_exists.1 there
      obtain ⟨frame', found', same⟩ := respects.frame found
      rw [found', found, same (own'.trans own)]

end State

/-- Resuming the top frame of a task. -/
theorem Config.trampoline_ok [Inhabited V] {st : State V C} {t : TaskId} {after : Focus V C} {stack : List (Activation V C)}
    {config : Config V C} (step : (⟨st, .trampoline t after, stack⟩ : Config V C).step = .ok config) :
    ∃ task f resumption st', st.tasks.get? t = some task ∧ task.top = some f ∧
      (st.modifyTask t fun task => { task with value := default, error := none }).resume t f task.value task.error =
        .ok (resumption, st') ∧
      config = ⟨st', .code resumption.program,
        (resumption.opened.map .opened).toList ++ .frame t f after :: stack⟩ := by
  simp only [Config.step, Config.resumeTop, bind_ok, State.task_ok] at step
  obtain ⟨task, found, step⟩ := step
  cases top : task.top with
  | none => simp [top] at step
  | some f =>
    simp only [top] at step
    obtain ⟨resumption, st', resumed, rfl⟩ := Crew.Sound.resumeFrame_ok step
    exact ⟨task, f, resumption, st', found, top, resumed, rfl⟩

namespace Crew

variable {c c' : Crew V C} {t : TaskId} {label : Option (TaskId × FrameId)}

/-- What the code of a thread keeps to that minds its own frames. -/
def Minds (home : FrameId → TaskId) (c : Crew V C) (a : Agent V C) : Prop := (a.config c.state).Minds home

theorem unmoved_of_minds {a : Agent V C} (minds : c.Minds home a) : c.Unmoved a := by
  unfold Unmoved
  split
  · next u target next focus =>
    simp only [Minds, Config.Minds, Agent.config, focus] at minds
    exact minds
  · trivial

/-- What all threads do is with frames that are there for the task they do it for. -/
structure Housed (home : FrameId → TaskId) (c : Crew V C) : Prop where
  state : c.state.Housed home
  acyclic : Acyclic c.state.caller
  agents : ∀ a ∈ c.agents, (a.config c.state).Housed home

/-- A task is parked, or ready, or a thread took it up and is about to resume its top frame. -/
structure Dormant (t : TaskId) (c : Crew V C) : Prop where
  born : c.state.life t ≠ none
  started : c.state.life t ≠ some .init
  idle : t ∈ c.inHand → ∃ after stack, ⟨.trampoline t after, stack⟩ ∈ c.agents

/-- A step resumes the top frame of a task with a value and an error. -/
def Reenters (t : TaskId) (f : FrameId) [Inhabited V] (value : V) (error : Option (Error V)) (c c' : Crew V C) :
    Prop :=
  ∃ before behind after stack resumption, c.agents = before ++ ⟨.trampoline t after, stack⟩ :: behind ∧
    (c.state.modifyTask t fun task => { task with value := default, error := none }).resume t f value error =
      .ok (resumption, c'.state) ∧
    c'.agents = before ++ ⟨.code resumption.program,
      (resumption.opened.map .opened).toList ++ .frame t f after :: stack⟩ :: behind

/-- Code is about to unwind a task by hand. -/
def Unwinding (t : TaskId) (c : Crew V C) : Prop :=
  ∃ target value next stack, ⟨.code (.unwind t target value next), stack⟩ ∈ c.agents

theorem Unshared.apart {st : State V C} {before behind : List (Agent V C)} {a b : Agent V C}
    (unshared : Unshared ⟨st, before ++ a :: behind⟩) (mine : t ∈ a.inHand) (other : b ∈ before ++ behind) :
    t ∉ b.inHand := by
  intro theirs
  have once := (inHand_perm st before behind a).nodup_iff.1 unshared.once
  exact (List.nodup_append.1 once).2.2 t mine t (List.mem_flatMap.2 ⟨b, other, theirs⟩) rfl

variable [Inhabited V]

theorem Housed.step (housed : c.Housed home) (step : Step (Minds home) c label c') : c'.Housed home := by
  cases step with
  | @act st before behind a config minds step =>
    have mine := housed.agents a (by simp)
    obtain ⟨respects, housed'⟩ := Config.respects_of_step mine minds step
    have wears : State.Wears (fun _ => false) st config.state := Config.wears_of_step (fun _ _ => rfl) step
    refine ⟨respects.housed housed.state, wears.acyclic housed.acyclic, fun b member => ?_⟩
    -- The other threads' frames are still there.
    have others (old : b ∈ before ++ a :: behind) : (b.config config.state).Housed home :=
      (housed.agents b old).of_respects [] respects List.suffix_rfl nofun id
    rcases List.mem_append.1 member with front | member
    · exact others (List.mem_append_left _ front)
    · rcases List.mem_cons.1 member with rfl | back
      · exact housed'
      · exact others (List.mem_append_right _ (List.mem_cons_of_mem _ back))
  | join new =>
    refine ⟨housed.state, housed.acyclic, fun b member => ?_⟩
    rcases List.mem_append.1 member with old | added
    · exact housed.agents b old
    · obtain rfl := List.mem_singleton.1 added
      cases new <;> exact ⟨housed.state, nofun, trivial⟩
  | @lapse st before behind condition limit next stack =>
    refine ⟨housed.state, housed.acyclic, fun b member => ?_⟩
    rcases List.mem_append.1 member with front | member
    · exact housed.agents b (List.mem_append_left _ front)
    · rcases List.mem_cons.1 member with rfl | back
      · have waited := housed.agents ⟨.waiting condition limit next, stack⟩ (by simp)
        exact ⟨waited.state, waited.stack, waited.anchored⟩
      · exact housed.agents b (List.mem_append_right _ (List.mem_cons_of_mem _ back))
  | @switch st agents thread =>
    have respects : State.Respects home (fun _ => True) st { st with running := thread } := .of_tables rfl rfl
    refine ⟨respects.housed housed.state, housed.acyclic, fun b member => ?_⟩
    exact (housed.agents b member).of_respects [] respects List.suffix_rfl nofun id

theorem Run.housed (run : Run V C (Minds home)) : ∀ i ≤ run.length, (run.crew i).Housed home := by
  intro i
  induction i with
  | zero =>
    intro _
    obtain ⟨parallelism, starts⟩ := run.starts
    rw [starts]
    refine ⟨⟨?_, ?_, ?_⟩, fun f cycle => ?_, nofun⟩
    · intro t f top
      simp [initial, State.initial, State.top] at top
    · intro f g link
      simp [initial, State.initial, State.caller] at link
    · intro f body waits
      simp [initial, State.initial, State.awaited?, State.code?] at waits
    · obtain ⟨g, link, _⟩ := Relation.TransGen.head'_iff.1 cycle
      simp [initial, State.initial, State.caller] at link
  | succ i inductionHypothesis =>
    intro bound
    exact (inductionHypothesis (by omega)).step (run.steps i bound)

/-! ## Nobody touches a dormant task -/

omit [Inhabited V] in
/-- A task that is in hand with a thread about to resume it is in hand with nobody else. -/
theorem Unshared.focus_of_trampoline {st : State V C} {before behind : List (Agent V C)} {a b : Agent V C}
    (unshared : Unshared ⟨st, before ++ a :: behind⟩) (member : b ∈ before ++ a :: behind)
    (theirs : t ∈ b.inHand) (mine : t ∈ a.inHand) : b = a := by
  rcases List.mem_append.1 member with front | member
  · exact absurd theirs (unshared.apart mine (List.mem_append_left _ front))
  · rcases List.mem_cons.1 member with same | back
    · exact same
    · exact absurd theirs (unshared.apart mine (List.mem_append_right _ back))

omit [Inhabited V] in
theorem mem_agents_of_ne {before behind : List (Agent V C)} {a a' b : Agent V C}
    (member : b ∈ before ++ a :: behind) (other : b ≠ a) : b ∈ before ++ a' :: behind := by
  rcases List.mem_append.1 member with front | member
  · exact List.mem_append_left _ front
  · exact List.mem_append_right _ (List.mem_cons_of_mem _ ((List.mem_cons.1 member).resolve_left other))

/-- A task that gets in hand is about to be resumed. -/
theorem inHand_act {st : State V C} {before behind : List (Agent V C)} {a : Agent V C} {config : Config V C}
    (step : (a.config st).step = .ok config)
    (member : t ∈ inHand ⟨config.state, before ++ ⟨config.focus, config.stack⟩ :: behind⟩) :
    t ∈ inHand ⟨st, before ++ a :: behind⟩ ∨
      ∃ after stack, ⟨.trampoline t after, stack⟩ ∈ before ++ ⟨config.focus, config.stack⟩ :: behind := by
  rcases List.mem_append.1 ((inHand_perm config.state before behind _).mem_iff.1 member) with here | there
  · have mine (inside : t ∈ a.inHand) : t ∈ inHand ⟨st, before ++ a :: behind⟩ :=
      (inHand_perm st before behind a).mem_iff.2 (List.mem_append_left _ inside)
    cases Config.affects_of_step step with
    | touches touches subset => exact .inl (mine (subset t here))
    | ends subject ends subset => exact .inl (mine (subset t here))
    | @begins u after ready touches begun joiners resources focus stack idle =>
      rw [Agent.inHand, focus, stack, Focus.inHand, idle, List.singleton_append] at here
      rcases List.mem_cons.1 here with rfl | below
      · exact .inr ⟨after, config.stack, List.mem_append_right _ (by rw [focus]; exact List.mem_cons_self)⟩
      · exact .inl (mine (List.mem_append_right _ below))
  · exact .inl ((inHand_perm st before behind a).mem_iff.2 (List.mem_append_right _ there))

theorem Dormant.step (dormant : c.Dormant t) (housed : c.Housed home) (unshared : c.Unshared)
    (step : Step (Minds home) c label c') (rests : ∀ f, label ≠ some (t, f)) :
    State.Respects home (· = t) c.state c'.state ∧ c'.Dormant t := by
  cases step with
  | @act st before behind a config minds step =>
    have apart : t ∉ a.inHand := by
      intro mine
      obtain ⟨after, stack, member⟩ :=
        dormant.idle ((inHand_perm st before behind a).mem_iff.2 (List.mem_append_left _ mine))
      obtain rfl := unshared.focus_of_trampoline member List.mem_cons_self mine
      obtain ⟨task, f, _, _, found, top, _⟩ := Config.trampoline_ok step
      exact rests f (by simp [Agent.resumed?, State.top, found, top])
    have respects : State.Respects home (· = t) st config.state := by
      refine (Config.respects_of_step (housed.agents a (by simp)) minds step).1.mono ?_
      rintro u rfl
      exact ⟨apart, dormant.born, dormant.started⟩
    obtain ⟨task, found⟩ : ∃ task, st.tasks.get? t = some task := by
      simpa [State.life, Option.ne_none_iff_exists'] using dormant.born
    obtain ⟨task', found', _, started⟩ := respects.task found
    refine ⟨respects, ?_, ?_, fun member => ?_⟩
    · simp [State.life, found']
    · have begun : task.life ≠ .init := fun same => dormant.started (by simp [State.life, found, same])
      simpa [State.life, found'] using started begun
    · refine (inHand_act step member).elim (fun before => ?_) id
      obtain ⟨after, stack, member⟩ := dormant.idle before
      refine ⟨after, stack, mem_agents_of_ne member ?_⟩
      rintro rfl
      exact apart List.mem_cons_self
  | @join st agents a new =>
    have nothing : a.inHand = [] := by cases new <;> rfl
    refine ⟨.refl _, dormant.born, dormant.started, fun member => ?_⟩
    obtain ⟨after, stack, old⟩ := dormant.idle (by simpa [inHand, nothing] using member)
    exact ⟨after, stack, List.mem_append_left _ old⟩
  | @lapse st before behind condition limit next stack =>
    refine ⟨.refl _, dormant.born, dormant.started, fun member => ?_⟩
    obtain ⟨after, below, old⟩ := dormant.idle (by simpa [inHand, Agent.inHand, Focus.inHand] using member)
    exact ⟨after, below, mem_agents_of_ne old (by simp)⟩
  | switch thread => exact ⟨.of_tables rfl rfl, dormant.born, dormant.started, dormant.idle⟩

/-! ## What a running task has for its top frame -/

namespace Run

variable {allowed : Crew V C → Agent V C → Prop} (run : Run V C allowed)

/-- A task unwound itself by hand, and its top frame was not resumed since. -/
def Unwound (t : TaskId) (n : Nat) : Prop :=
  ∃ k < n, (run.crew k).Unwinding t ∧ ∀ m, k < m → m < n →
    ¬ ∃ f value error, (run.crew m).Reenters t f value error (run.crew (m + 1))

/-- Between the resumptions of its top frame a task that runs has no error and the default value, unless it unwound
itself by hand. -/
def Fed (t : TaskId) (n : Nat) : Prop :=
  ∀ task, t ∈ (run.crew n).inHand → (run.crew n).state.tasks.get? t = some task →
    (∃ after stack, ⟨.trampoline t after, stack⟩ ∈ (run.crew n).agents) ∨
    task.error = none ∧ (run.Unwound t n ∨
      task.value = default ∧ ¬ ∃ a ∈ (run.crew n).agents, ∃ x ∈ a.stack, x.ByHand t)

variable {run} {n : Nat}

theorem Unwound.next (unwound : run.Unwound t n)
    (away : ¬ ∃ after stack, ⟨.trampoline t after, stack⟩ ∈ (run.crew n).agents) : run.Unwound t (n + 1) := by
  obtain ⟨k, before, unwinding, since⟩ := unwound
  refine ⟨k, by omega, unwinding, fun m later earlier => ?_⟩
  rcases Nat.lt_succ_iff_lt_or_eq.1 earlier with earlier | rfl
  · exact since m later earlier
  · rintro ⟨f, value, error, front, behind, after, stack, _, agents, _⟩
    exact away ⟨after, stack, agents ▸ List.mem_append_right _ List.mem_cons_self⟩

/-- A step that is not about what a task has for its top frame. -/
theorem Fed.carry (fed : run.Fed t n) (here : run.crew n = c) (there : run.crew (n + 1) = c')
    (unshared : c.Unshared)
    (hand : t ∈ c'.inHand → t ∈ c.inHand ∨ ∃ after stack, ⟨.trampoline t after, stack⟩ ∈ c'.agents)
    (waits : (∃ after stack, ⟨.trampoline t after, stack⟩ ∈ c.agents) →
      ∃ after stack, ⟨.trampoline t after, stack⟩ ∈ c'.agents)
    (retains : ∀ {task}, c.state.tasks.get? t = some task →
      ∃ task', c'.state.tasks.get? t = some task' ∧ task'.inputs = task.inputs)
    (hurries : (∃ a ∈ c'.agents, ∃ x ∈ a.stack, x.ByHand t) → ∃ a ∈ c.agents, ∃ x ∈ a.stack, x.ByHand t) :
    run.Fed t (n + 1) := by
  subst here there
  intro task' member found'
  refine (hand member).elim (fun before => ?_) .inl
  obtain ⟨task, found, _⟩ := Option.map_eq_some_iff.1 (unshared.live before)
  by_cases away : ∃ after stack, ⟨.trampoline t after, stack⟩ ∈ (run.crew n).agents
  · exact .inl (waits away)
  · obtain ⟨error, was⟩ := (fed task before found).resolve_left away
    obtain ⟨task'', found'', same⟩ := retains found
    obtain rfl := Option.some.inj (found''.symm.trans found')
    refine .inr ⟨(congrArg Prod.snd same).trans error, was.imp (fun unwound => unwound.next away) ?_⟩
    rintro ⟨value, nobody⟩
    exact ⟨(congrArg Prod.fst same).trans value, fun byHand => nobody (hurries byHand)⟩

/-- A thread makes a step that is about another task, or about none. -/
theorem Fed.carry_act {st : State V C} {before behind : List (Agent V C)} {a : Agent V C} {config : Config V C}
    (fed : run.Fed t n) (here : run.crew n = ⟨st, before ++ a :: behind⟩)
    (there : run.crew (n + 1) = ⟨config.state, before ++ ⟨config.focus, config.stack⟩ :: behind⟩)
    (unshared : Unshared ⟨st, before ++ a :: behind⟩) (step : (a.config st).step = .ok config)
    (apart : ∀ after, a.focus ≠ .trampoline t after)
    (retains : ∀ {task}, st.tasks.get? t = some task →
      ∃ task', config.state.tasks.get? t = some task' ∧ task'.inputs = task.inputs)
    (hurries : Config.Hurries t (a.config st) config) : run.Fed t (n + 1) := by
  refine fed.carry here there unshared (inHand_act step) ?_ retains ?_
  · rintro ⟨after, stack, member⟩
    refine ⟨after, stack, mem_agents_of_ne member ?_⟩
    rintro rfl
    exact apart after rfl
  · rintro ⟨b, member, byHand⟩
    by_cases same : b = ⟨config.focus, config.stack⟩
    · subst same
      exact ⟨a, by simp, hurries byHand⟩
    · exact ⟨b, mem_agents_of_ne member same, byHand⟩

theorem Fed.step (run : Run V C (Minds home)) {t : TaskId} {n : Nat} (bound : n < run.length)
    (fed : run.Fed t n) : run.Fed t (n + 1) := by
  have housed := run.housed n bound.le
  have unshared := (run.mono fun _ _ => unmoved_of_minds).unshared n bound.le
  have step := run.steps n bound
  change (run.crew n).Unshared at unshared
  generalize here : run.crew n = c at step housed unshared
  generalize there : run.crew (n + 1) = c' at step
  generalize run.resumed n = label at step
  cases step with
  | @act st before behind a config minds step =>
    have mine := housed.agents a (by simp)
    have inHand_of_mine (mine : t ∈ a.inHand) : t ∈ inHand ⟨st, before ++ a :: behind⟩ :=
      (inHand_perm st before behind a).mem_iff.2 (List.mem_append_left _ mine)
    have feeds := Config.feeds_of_step mine.anchored (fun request next focus u target same => by
      have minds : (a.config st).Minds home := minds
      simp only [Config.Minds, show (a.config st).focus = _ from focus, same] at minds
      exact minds) step
    -- A step that is about another task is of no concern here.
    have others {u : TaskId} (other : u ≠ t) (settled : (a.config st).focus.run? = none ∨
        ∃ after, (a.config st).focus = .trampoline u after) (retains : State.Retains (· ≠ u) st config.state)
        (hurries : Config.Hurries t (a.config st) config) : run.Fed t (n + 1) := by
      refine fed.carry_act here there unshared step (fun after focus => ?_) (fun found => ?_) hurries
      · obtain settled | ⟨after', settled⟩ := settled
        · simp [Agent.config, focus, Focus.run?] at settled
        · simp only [Agent.config, focus, Focus.trampoline.injEq] at settled
          exact other settled.1.symm
      · obtain ⟨task', found', same⟩ := retains.task found
        exact ⟨task', found', same (Ne.symm other)⟩
    cases feeds with
    | same settled retains hurries =>
      refine fed.carry_act here there unshared step (fun after focus => ?_) (fun found => ?_) (hurries t)
      · simp [Agent.config, focus, Focus.run?] at settled
      · obtain ⟨task', found', same⟩ := retains.task found
        exact ⟨task', found', same trivial⟩
    | @takes u after focus retains cleared hurries =>
      by_cases same : u = t
      · subst same
        intro task member found
        rw [there] at found ⊢
        have inputs := cleared found
        refine .inr ⟨congrArg Prod.snd inputs, .inr ⟨congrArg Prod.fst inputs, ?_⟩⟩
        -- Whoever waits for cancelled frames of the task has it in hand, and so would besides this thread.
        have focus : a.focus = .trampoline u after := focus
        have sole : ⟨.trampoline u after, a.stack⟩ ∈ before ++ a :: behind := by
          rw [← focus]
          exact List.mem_append_right _ List.mem_cons_self
        have below := (unshared.takenUp sole).2.2
        rintro ⟨b, member, byHand⟩
        by_cases same : b = ⟨config.focus, config.stack⟩
        · subst same
          obtain ⟨x, inside, byHand⟩ := hurries u byHand
          exact below (byHand.inHand mine.anchored inside)
        · obtain ⟨x, inside, byHand⟩ := byHand
          have old : b ∈ before ++ a :: behind := mem_agents_of_ne member same
          have theirs : u ∈ b.inHand :=
            List.mem_append_right _ (byHand.inHand (housed.agents b old).anchored inside)
          obtain rfl := unshared.focus_of_trampoline old theirs (a := a)
            (by rw [Agent.inHand, focus]; exact List.mem_cons_self)
          exact below (byHand.inHand mine.anchored inside)
      · exact others same (.inr ⟨after, focus⟩) retains (hurries t)
    | @turns u after settled focus retains hurries =>
      by_cases same : u = t
      · subst same
        intro task _ _
        rw [there]
        exact .inl ⟨after, config.stack, by simp [focus]⟩
      · exact others same (.inl settled) retains (hurries t)
    | @unwinds u settled byHand retains error hurries =>
      by_cases same : u = t
      · subst same
        have unwinds : Unwinding u ⟨st, before ++ a :: behind⟩ ∨ ∃ x ∈ a.stack, x.ByHand u := by
          refine byHand.imp_left ?_
          rintro ⟨target, value, next, focus⟩
          have focus : a.focus = .code (.unwind u target value next) := focus
          exact ⟨target, value, next, a.stack, by rw [← focus]; exact List.mem_append_right _ List.mem_cons_self⟩
        have inside : u ∈ a.inHand := by
          refine List.mem_append_right _ ?_
          obtain ⟨target, value, next, focus⟩ | ⟨x, inside, byHand⟩ := byHand
          · simp only [Minds, Config.Minds, focus] at minds
            exact Activation.inHand_of_runner mine.anchored minds
          · exact byHand.inHand mine.anchored inside
        have away : ¬ ∃ after stack, ⟨.trampoline u after, stack⟩ ∈ (⟨st, before ++ a :: behind⟩ : Crew V C).agents := by
          rintro ⟨after, stack, member⟩
          obtain rfl := unshared.focus_of_trampoline member List.mem_cons_self inside
          cases settled
        have before' := inHand_of_mine inside
        obtain ⟨task, found, _⟩ := Option.map_eq_some_iff.1 (unshared.live before')
        rw [← here] at before' away unwinds
        obtain ⟨none', was⟩ := (fed task before' (here ▸ found)).resolve_left away
        intro task' _ found'
        rw [there] at found'
        refine .inr ⟨(error found found').elim (fun same => same.trans none') id, .inl ?_⟩
        obtain unwinding | waiting := unwinds
        · exact ⟨n, n.lt_succ_self, unwinding, fun m later earlier => by omega⟩
        · refine (was.resolve_right fun nobody => nobody.2 ⟨a, ?_, waiting⟩).next away
          rw [here]
          exact List.mem_append_right _ List.mem_cons_self
      · exact others same (.inl settled) retains (hurries t (Ne.symm same))
    | @ends u settled retains inHand hurries =>
      by_cases same : u = t
      · subst same
        intro task member _
        rw [there] at member
        have once := (inHand_perm st before behind a).nodup_iff.1 unshared.once
        rw [show a.inHand = u :: config.agent.inHand from inHand, List.cons_append, List.nodup_cons] at once
        exact absurd ((inHand_perm config.state before behind _).mem_iff.1 member) once.1
      · exact others same (.inl settled) retains (hurries t)
  | @join st agents a new =>
    have nothing : a.inHand = [] := by cases new <;> rfl
    have bare : a.stack = [] := by cases new <;> rfl
    refine fed.carry here there unshared (fun member => .inl ?_) ?_ (fun found => ⟨_, found, rfl⟩) ?_
    · simpa [inHand, nothing] using member
    · rintro ⟨after, stack, member⟩
      exact ⟨after, stack, List.mem_append_left _ member⟩
    · rintro ⟨b, member, x, inside, byHand⟩
      rcases List.mem_append.1 member with old | added
      · exact ⟨b, old, x, inside, byHand⟩
      · obtain rfl := List.mem_singleton.1 added
        rw [bare] at inside
        cases inside
  | @lapse st before behind condition limit next stack =>
    refine fed.carry here there unshared (fun member => .inl ?_) ?_ (fun found => ⟨_, found, rfl⟩) ?_
    · simpa [inHand, Agent.inHand, Focus.inHand] using member
    · rintro ⟨after, below, member⟩
      exact ⟨after, below, mem_agents_of_ne member (by simp)⟩
    · rintro ⟨b, member, byHand⟩
      by_cases same : b = ⟨.code next, stack⟩
      · subst same
        exact ⟨⟨.waiting condition limit next, stack⟩, by simp, byHand⟩
      · exact ⟨b, mem_agents_of_ne member same, byHand⟩
  | switch thread =>
    exact fed.carry here there unshared .inl id (fun found => ⟨_, found, rfl⟩) id

theorem fed (run : Run V C (Minds home)) (t : TaskId) : ∀ i ≤ run.length, run.Fed t i := by
  intro i
  induction i with
  | zero =>
    intro _ task member
    obtain ⟨parallelism, starts⟩ := run.starts
    rw [starts] at member
    cases member
  | succ i inductionHypothesis => exact fun bound => Fed.step run bound (inductionHypothesis (by omega))

end Run

end Crew

end Tasking
