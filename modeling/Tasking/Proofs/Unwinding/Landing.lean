import Tasking.Proofs.Cancelling
import Tasking.Proofs.Mail.Acting
import Tasking.Proofs.Unwinding.Arranging

/-! # What an unwind leaves of waits

An unwind forgets no wait: it lets a task go on at its target with whatever the cancelled frames left behind.  If
nobody arranges a wait of the task or wakes it meanwhile, then a task that was clear is clear when it goes on
(`Crew.Run.lands_fresh`).  If a cancelled frame arranges a wait, then the next wait does not park the task
(`Crew.lapse_stale`).
-/

namespace Tasking

variable {V C : Type}

namespace Config

variable {c config : Config V C} {st : State V C} {t : TaskId} {focus after : Focus V C}
  {stack : List (Activation V C)}

open State

/-- The next step of a thread arranges a wait of a task or wakes it, or goes on with its run. -/
def Disturbs (c : Config V C) (t : TaskId) : Prop :=
  match c.focus, c.stack with
  | .code (.ask request _), _ => c.state.Disturbs t request
  | .code (.answer (.jump _ _)), _ => False
  | .code (.answer _), .frame u _ _ :: _ => u = t
  | .trampoline u _, _ => u = t
  | _, _ => False

/-- A thread disturbs a task by what it asks for, or by going on with the task's run. -/
theorem Disturbs.runs (disturbs : c.Disturbs t)
    (calm : ∀ request next, c.focus = .code (.ask request next) → ¬ c.state.Disturbs t request) : c.agent.Runs t := by
  obtain ⟨st, focus, stack⟩ := c
  unfold Disturbs at disturbs
  split at disturbs
  · next focus' => exact absurd disturbs (calm _ _ focus')
  · exact disturbs.elim
  · next focus' stack' =>
    obtain rfl : focus = _ := focus'
    obtain rfl : stack = _ := stack'
    exact congrArg some disturbs
  · next focus' =>
    obtain rfl : focus = _ := focus'
    exact congrArg some disturbs
  · exact disturbs.elim

/-- A change of what a task goes on with, or of who runs it, leaves no trace. -/
theorem clear_modifyTask {u : TaskId} {change : Task V → Task V} (clear : st.Clear t)
    (trace : ∀ task : Task V, (change task).trace = task.trace)
    (joiners : ∀ task : Task V, (change task).joiners = task.joiners) : (st.modifyTask u change).Clear t :=
  (Unstirred.modifyTask st (fun _ => trace) fun task member => joiners task ▸ member).clear clear

variable [Inhabited V]

theorem clear_of_cancelNext {u : TaskId} {doomed : List FrameId} {target : FrameId} {value : V}
    (clear : st.Clear t)
    (done : (⟨st, focus, stack⟩ : Config V C).cancelNext u doomed target value after = .ok config) :
    config.state.Clear t := by
  obtain ⟨_, rfl⟩ | ⟨f, rest, resumption, st', _, resumed, rfl⟩ := cancelNext_ok done
  · exact clear_modifyTask clear (fun _ => rfl) fun _ => rfl
  · exact clear.resume (fun _ => rfl) resumed

theorem clear_of_does (clear : c.state.Clear t) (calm : ¬ c.Disturbs t) (does : Does c config) :
    config.state.Clear t := by
  cases does with
  | serves served => exact clear.serve calm served
  | newFrame | registers | passes | rests | hands | opens | closes =>
    refine Unstirred.clear (.of_tables ?_ ?_ ?_) clear
    · rfl
    · rfl
    · exact fun _ => rfl
  | newActor =>
    refine Unstirred.clear (.of_tables ?_ ?_ ?_) clear
    · rfl
    · rfl
    · exact waiters_addResource none
  | @begins st st₁ st₂ focus after u w stack detours busy settled taken begun =>
    obtain ⟨s, taken⟩ | ⟨_, rfl⟩ := taken
    · obtain ⟨other, unstirred⟩ := Unstirred.takeReady clear.astray taken
      have apart : u ≠ t := fun same => other (congrArg some same)
      exact (unstirred.trans (.beginRun apart begun)).clear clear
    · have apart : u ≠ t := by
        rintro rfl
        exact absurd (clear.running.symm.trans (Quiet.beginRun begun).2.1) (by simp)
      exact (Unstirred.beginRun apart begun).clear clear
  | resumes found top resumed =>
    refine Clear.resume ?_ (fun same => absurd same calm) resumed
    exact clear_modifyTask clear (fun _ => rfl) fun _ => rfl
  | suspends parked =>
    refine Unstirred.clear (.park calm parked) ?_
    exact clear_modifyTask clear (fun _ => rfl) fun _ => rfl
  | @returns st u f caller answer result task after stack ends found top link =>
    exact clear_modifyTask clear (fun _ => by cases result <;> rfl) fun _ => by cases result <;> rfl
  | @finishes st st' u f answer result task after stack ends found top link finished =>
    have other : u ≠ t := by obtain ⟨value, rfl⟩ | ⟨error, rfl⟩ := ends <;> exact calm
    have left : (st.modifyTask u fun task => { task with top := none }).Clear t :=
      clear_modifyTask clear (fun _ => rfl) fun _ => rfl
    have ended : ((st.modifyTask u fun task => { task with top := none }).endRun u).Clear t :=
      clear_modifyTask left (fun _ => rfl) fun _ => rfl
    exact (Unstirred.finish other ended.astray finished).clear ended
  | @lands st u f target value task after stack found top =>
    have moved : (st.modifyTask u fun task => { task with top := some target }).Clear t :=
      clear_modifyTask clear (fun _ => rfl) fun _ => rfl
    exact clear_modifyTask moved (fun _ => rfl) fun _ => rfl
  | leaps found top path resumed =>
    refine Clear.resume ?_ (fun _ => rfl) resumed
    exact clear_modifyTask clear (fun _ => rfl) fun _ => rfl
  | cancels resumed => exact clear.resume (fun _ => rfl) resumed
  | unwinds => exact clear_modifyTask clear (fun _ => rfl) fun _ => rfl

/-- A clear task stays so in a step that does not disturb it. -/
theorem clear_of_step (clear : c.state.Clear t) (calm : ¬ c.Disturbs t) (step : c.step = .ok config) :
    config.state.Clear t := by
  by_cases byHand : ∃ t target value next, c.focus = .code (.unwind t target value next)
  · obtain ⟨st, focus, stack⟩ := c
    obtain ⟨u, target, value, next, rfl⟩ := byHand
    obtain ⟨task, doomed, _, _, done⟩ := unwind_ok
      (show (⟨st, _, stack⟩ : Config V C).unwind u target value (.code next) = .ok config from step)
    exact clear_of_cancelNext clear done
  · exact clear_of_does clear calm (does_of_step (fun t target value next here => byHand ⟨t, target, value, next, here⟩) step)

end Config

namespace Crew

open State Config

variable [Inhabited V] {allowed : Crew V C → Agent V C → Prop} {c c' : Crew V C} {p : Nat} {a : Agent V C}
  {label : Option (TaskId × FrameId)} {within : Config V C → Prop}

omit [Inhabited V] in
/-- What one thread does leaves the others at their places. -/
theorem getElem?_replaced {before after : List (Agent V C)} {b b' : Agent V C} (other : p ≠ before.length) :
    (before ++ b' :: after)[p]? = (before ++ b :: after)[p]? := by
  rw [List.getElem?_append, List.getElem?_append]
  split
  · rfl
  · obtain ⟨n, same⟩ : ∃ n, p - before.length = n + 1 := ⟨p - before.length - 1, by omega⟩
    rw [same, List.getElem?_cons_succ, List.getElem?_cons_succ]

/-- A step of a crew is one of the thread, or one of the others, who make no task disappear. -/
theorem Step.goes (step : Step allowed c label c') (here : c.agents[p]? = some a) {first : Config V C}
    {trace : List (Nat × Resumed V)} (goes : Goes within first trace (a.config c.state))
    (inside : within (a.config c.state)) :
    ∃ a' trace', c'.agents[p]? = some a' ∧ Goes within first trace' (a'.config c'.state) := by
  have others {st : State V C} (keeps : ∀ t, (c.state.tasks.get? t).isSome = true → (st.tasks.get? t).isSome = true) :
      Goes within first trace (a.config st) := .others goes inside keeps
  cases step with
  | @act st before after agent config permitted step =>
    by_cases mine : p = before.length
    · subst mine
      obtain rfl : agent = a := by simpa using here
      exact ⟨config.agent, _, by simp [Config.agent], goes.acts inside step⟩
    · exact ⟨a, trace, (getElem?_replaced mine).trans here, others fun t known => known_of_step step known⟩
  | @join st agents b new =>
    refine ⟨a, trace, ?_, goes⟩
    rwa [List.getElem?_append_left (List.getElem?_eq_some_iff.1 here).1]
  | @lapse st before after condition limit next stack =>
    by_cases mine : p = before.length
    · subst mine
      obtain rfl : (⟨.waiting condition limit next, stack⟩ : Agent V C) = a := by simpa using here
      exact ⟨⟨.code next, stack⟩, trace, by simp, goes.lapses inside⟩
    · exact ⟨a, trace, (getElem?_replaced mine).trans here, goes⟩
  | switch thread => exact ⟨a, trace, here, others fun _ => id⟩

namespace Run

variable {run : Run V C allowed} {i j : Nat}

/-- A thread of a run goes on among the others. -/
theorem goes (run : Run V C allowed) (within : Config V C → Prop) {i j : Nat} (later : i ≤ j) (bound : j ≤ run.length)
    (here : (run.crew i).agents[p]? = some a)
    (inside : ∀ k, i ≤ k → k < j → ∀ b, (run.crew k).agents[p]? = some b → within (b.config (run.crew k).state)) :
    ∃ b trace, (run.crew j).agents[p]? = some b ∧
      Goes within (a.config (run.crew i).state) trace (b.config (run.crew j).state) := by
  induction j, later using Nat.le_induction with
  | base => exact ⟨a, [], here, .rests⟩
  | succ j later inductionHypothesis =>
    obtain ⟨b, trace, there, goes⟩ := inductionHypothesis (by omega) fun k first last =>
      inside k first (by omega)
    exact (run.steps j bound).goes there goes (inside j later (by omega) b there)

/-- A clear task stays so as long as nobody disturbs it. -/
theorem stays_clear (run : Run V C allowed) {i j : Nat} {t : TaskId} (later : i ≤ j) (bound : j ≤ run.length)
    (clear : (run.crew i).state.Clear t)
    (calm : ∀ k st before agent behind config, i ≤ k → k < j → run.Acts k st before agent behind config →
      ¬ (agent.config st).Disturbs t) : (run.crew j).state.Clear t := by
  induction j, later using Nat.le_induction with
  | base => exact clear
  | succ j later inductionHypothesis =>
    have before := inductionHypothesis (by omega) fun k st before agent behind config first last =>
      calm k st before agent behind config first (by omega)
    obtain ⟨st, ahead, agent, behind, config, acts⟩ | ⟨_, waits⟩ := run.acts_or_waits (k := j) (by omega)
    · rw [acts.crew] at before
      rw [acts.next]
      exact clear_of_step before (calm j st ahead agent behind config later (by omega) acts) acts.step
    · obtain ⟨thread, same⟩ := waits.state
      rw [same]
      refine Unstirred.clear (.of_tables ?_ ?_ ?_) before
      · rfl
      · rfl
      · exact fun _ => rfl

end Run

end Crew

/-! ## The moment of landing -/

/-- A thread is about to unwind a task: code does so by hand, or a frame of the task jumps. -/
inductive Agent.Unwinds (st : State V C) : Agent V C → Unwind V C → Prop where
  | byHand {t : TaskId} {target : FrameId} {value : V} {next : Program V C} {stack : List (Activation V C)}
      {task : Task V} {doomed : List FrameId} (found : st.tasks.get? t = some task)
      (walk : st.framesAbove task.top target = some doomed) :
      Unwinds st ⟨.code (.unwind t target value next), stack⟩ ⟨t, doomed, target, value, .code next, stack⟩
  | jumps {t : TaskId} {f target : FrameId} {value : V} {after : Focus V C} {stack : List (Activation V C)}
      {doomed : List FrameId} (walk : st.framesAbove (Agent.topAfterJump st t f target) target = some doomed) :
      Unwinds st ⟨.code (.answer (.jump target value)), .frame t f after :: stack⟩
        ⟨t, doomed, target, value, .trampoline t after, stack⟩

namespace Agent.Unwinds

open State Config

variable [Inhabited V] {st : State V C} {a : Agent V C} {w : Unwind V C} {config : Config V C}

omit [Inhabited V] in
theorem notMem_of_framesAbove {top : Option FrameId} {target : FrameId} {doomed : List FrameId}
    (walk : st.framesAbove top target = some doomed) : target ∉ doomed := by
  simp only [framesAbove, Option.ite_none_right_eq_some, Option.some.injEq] at walk
  obtain ⟨_, rfl⟩ := walk
  exact fun member => by simpa using List.all_eq_true.1 List.all_takeWhile target member

/-- The first step of an unwind that finds its target: the first of the frames is cancelled, or the task goes on. -/
theorem reached (unwinds : a.Unwinds st w) (live : st.life w.task = some .running)
    (step : (a.config st).step = .ok config) : ∃ trace, w.Reached trace config := by
  obtain ⟨task, found, running⟩ := Option.map_eq_some_iff.1 live
  cases unwinds with
  | @byHand t target value next stack task' doomed found' walk =>
    obtain ⟨_, _, found'', walk', done⟩ := unwind_ok
      (show (⟨st, _, stack⟩ : Config V C).unwind t target value (.code next) = .ok config from step)
    obtain rfl := Option.some.inj (found'.symm.trans found'')
    obtain rfl := Option.some.inj (walk.symm.trans walk')
    exact ⟨_, Unwind.reached_of_cancelNext (by simp [found']) (List.nil_append _).symm (show resumedAt _ [] = [] from rfl) done⟩
  | @jumps t f target value after stack doomed walk =>
    have jumped : (⟨st, .code (.answer (.jump target value)), stack⟩ : Config V C).jump t f target value after =
        .ok config := step
    obtain ⟨frame, code⟩ : ∃ frame, st.frames.get? f = some frame := by
      simp only [Config.jump, bind_ok, frame_ok] at jumped
      obtain ⟨_, _, frame, code, _⟩ := jumped
      exact ⟨frame, code⟩
    rw [jump_eq found running code walk (notMem_of_framesAbove walk)] at jumped
    have known : ((st.withTop t (Agent.topAfterJump st t f target)).tasks.get? t).isSome = true := by
      simp [State.withTop, get?_modifyTask, found]
    exact ⟨_, Unwind.reached_of_cancelNext known (List.nil_append _).symm (show resumedAt _ [] = [] from rfl) jumped⟩

end Agent.Unwinds

namespace Crew

open State Config

variable [Inhabited V] {allowed : Crew V C → Agent V C → Prop}

omit [Inhabited V] in
/-- While a thread unwinds the task that it runs, nobody goes on with the task's run. -/
theorem Unshared.not_runs {c : Crew V C} (unshared : c.Unshared) {t : TaskId} {p : Nat} {b agent : Agent V C}
    {inner : List (Activation V C)} {x : Activation V C} {below : List (Activation V C)} (member : agent ∈ c.agents)
    (here : c.agents[p]? = some b) (stack : b.stack = inner ++ x :: below) (cancels : ∀ u f after, x ≠ .frame u f after)
    (held : t ∈ (x :: below).flatMap Activation.inHand) : ¬ agent.Runs t := by
  intro runs
  obtain ⟨bound, same⟩ := List.getElem?_eq_some_iff.1 here
  obtain ⟨q, bound', same'⟩ := List.getElem_of_mem member
  have once : (c.agents.flatMap Agent.inHand).Nodup := unshared.once
  rw [List.nodup_flatMap] at once
  have mine : t ∈ b.inHand := by
    rw [Agent.inHand, stack, List.flatMap_append]
    exact List.mem_append_right _ (List.mem_append_right _ held)
  by_cases other : q = p
  · subst other
    obtain rfl : b = agent := same.symm.trans same'
    have single := once.1 b member
    rw [Agent.inHand, stack, List.flatMap_append] at single
    obtain ⟨focus', stack'⟩ := b
    unfold Agent.Runs Agent.running? at runs
    split at runs
    · next focused =>
      obtain rfl := Option.some.inj runs
      obtain rfl : focus' = _ := focused
      exact (List.nodup_append.1 single).2.2 _ List.mem_cons_self _ (List.mem_append_right _ held) rfl
    · next focused stacked =>
      obtain rfl := Option.some.inj runs
      cases inner with
      | nil => exact cancels _ _ _ (List.cons.inj (stack.symm.trans stacked)).1
      | cons y inner =>
        obtain rfl := (List.cons.inj (stack.symm.trans stacked)).1
        have apart := (List.nodup_append.1 (List.nodup_append.1 single).2.1).2.2
        exact apart _ (List.mem_append_left _ List.mem_cons_self) _ held rfl
    · cases runs
  · have theirs := runs.inHand
    have disjoint := List.pairwise_iff_getElem.1 once.2
    obtain less | more := Nat.lt_or_gt_of_ne other
    · exact disjoint q p bound' bound less (same' ▸ theirs) (same ▸ mine)
    · exact disjoint p q bound bound' more (same ▸ mine) (same' ▸ theirs)

/-- Whatever the cancelled frames do and answer, an unwind of a clear task lets it go on at the target without
a trace of a wait, so that its next wait is like a first one, unless somebody asks for a wait of the task meanwhile or
wakes it.  If a thread unwinds a task that it does not run itself, then nobody may go on with the task's run
meanwhile. -/
theorem Run.lands_fresh (run : Run V C allowed) {i j : Nat} {w : Unwind V C} {st : State V C}
    {before behind : List (Agent V C)} {a : Agent V C} {config : Config V C} (acts : run.Acts i st before a behind config)
    (unwinds : a.Unwinds st w) (clear : st.Clear w.task) (later : i < j) (bound : j ≤ run.length)
    (inside : ∀ k, i < k → k < j → ∀ b, (run.crew k).agents[before.length]? = some b →
      w.below.length < b.stack.length)
    (returns : ∀ b, (run.crew j).agents[before.length]? = some b → b.stack.length ≤ w.below.length)
    (calm : ∀ k st before agent behind config, i < k → k < j → run.Acts k st before agent behind config →
      ∀ request next, agent.focus = .code (.ask request next) → ¬ st.Disturbs w.task request)
    (alone : ((∀ c a, allowed c a → Unmoved c a) ∧ w.task ∈ w.after.inHand ++ w.below.flatMap Activation.inHand) ∨
      ∀ k st before agent behind config, i < k → k < j → run.Acts k st before agent behind config →
        ¬ agent.Runs w.task) :
    (run.crew j).agents[before.length]? = some ⟨w.after, w.below⟩ ∧ w.Landed (run.crew j).state ∧
      (run.crew j).state.Clear w.task ∧ (run.crew j).state.Fresh w.task := by
  obtain ⟨trace, begun⟩ := unwinds.reached clear.running acts.step
  have clear₁ : config.state.Clear w.task := by
    refine clear_of_step clear ?_ acts.step
    cases unwinds <;> exact id
  have state₁ : (run.crew (i + 1)).state = config.state := by rw [acts.next]
  have known : (config.state.tasks.get? w.task).isSome = true := by
    obtain ⟨task, found, _⟩ := clear₁.found
    exact Option.isSome_of_eq_some found
  -- Where the unwind is at each moment until it is over.
  have reached (m : Nat) (first : i < m) (last : m ≤ j) : ∃ b trace,
      (run.crew m).agents[before.length]? = some b ∧ w.Reached trace (b.config (run.crew m).state) := by
    have place : (run.crew (i + 1)).agents[before.length]? = some config.agent := by simp [acts.next]
    obtain ⟨b, more, there, goes⟩ := run.goes w.Inside (show i + 1 ≤ m from first) (by omega) place
      fun k earlier sooner b here => inside k earlier (by omega) b here
    rw [state₁] at goes
    exact ⟨b, _, there, (begun.goes known goes).1⟩
  have clear' := run.stays_clear (show i + 1 ≤ j from later) bound (state₁ ▸ clear₁)
    fun k st₁ ahead agent rear config₁ first last acts₁ disturbs => by
      have runs : agent.Runs w.task := disturbs.runs (calm k st₁ ahead agent rear config₁ first last acts₁)
      obtain ⟨lawful, held⟩ | apart := alone
      · obtain ⟨b, trace, there, reached⟩ := reached k first last.le
        have unshared := (run.mono lawful).unshared k (show k ≤ run.length by omega)
        cases reached with
        | @underway inner _ rest _ stack =>
          have member : agent ∈ (run.crew k).agents := by simp [acts₁.crew]
          exact unshared.not_runs member there stack (fun u f after same => by cases same) held runs
        | returned _ stack =>
          have long := inside k first last b there
          have short : b.stack = w.below := stack
          rw [short] at long
          exact absurd long (Nat.lt_irrefl _)
      · exact apart k st₁ ahead agent rear config₁ first last acts₁ runs
  obtain ⟨b, trace, there, reached⟩ := reached j later le_rfl
  cases reached with
  | @underway inner _ rest _ stack =>
    have long := congrArg List.length stack
    have short : b.stack.length ≤ _ := returns b there
    simp only [Agent.config, List.length_append, List.length_cons] at long
    omega
  | returned focus stack landed =>
    obtain ⟨focus', stack'⟩ := b
    obtain rfl : focus' = w.after := focus
    obtain rfl : stack' = w.below := stack
    exact ⟨there, landed, clear', clear'.fresh⟩

/-! ### A task that is taken back to its first frame

The last frame of a task jumps to the first one, which then waits for an event.  What the frame in between does when
it is cancelled is up to it. -/

def lapse (cancelled : Context → Program Unit Empty) : Program Unit Empty :=
  .ask .newRegistry fun g =>
  .ask (.newScheduler .manual g) fun
    | .error _ => .answer .suspended
    | .ok s =>
      .newFrame "first" (fun context _ _ => .ask (.waitExternal context.task) fun _ => .answer .suspended) fun first =>
      .newFrame "middle" (fun context _ _ => cancelled context) fun middle =>
      .newFrame "last" (fun _ _ _ => .answer (.jump first ())) fun last =>
      .ask (.attach middle (some first)) fun _ =>
      .ask (.attach last (some middle)) fun _ =>
      .ask (.spawn s last) fun
        | .error _ => .answer .suspended
        | .ok t => .ask (.start t) fun _ => .drive s fun _ => .answer (.done ())

/-- The host after so many steps. -/
def lapseHost (cancelled : Context → Program Unit Empty) (n : Nat) : Config Unit Empty :=
  (Config.start (.initial 1) (lapse cancelled)).after n

/-- A frame that lets go of nothing when it is cancelled, and suspends. -/
def lingers (_ : Context) : Program Unit Empty := .answer .suspended

theorem lapse_ok : ∀ n < 17, (lapseHost lingers n).step.isOk = true := by decide +kernel

theorem lapse_unmoved : ∀ n < 17, Unmoved (lapseHost lingers n).alone (lapseHost lingers n).agent := by
  intro n bound
  interval_cases n <;> trivial

def lapseRun : Run Unit Empty Unmoved := .ofHost 1 (lapse lingers) 17 lapse_ok lapse_unmoved

/-- The last frame goes back to the first one, and the one in between is cancelled. -/
def lapseUnwind : Unwind Unit Empty :=
  ⟨⟨1⟩, [⟨2⟩], ⟨1⟩, (), .trampoline ⟨1⟩ (.drain ⟨1⟩ 1 fun _ => .answer (.done ())), []⟩

theorem lapse_lands : lapseUnwind.Landed (lapseRun.crew 15).state ∧ (lapseRun.crew 15).state.Clear ⟨1⟩ ∧
    (lapseRun.crew 15).state.Fresh ⟨1⟩ ∧
    (lapseRun.crew 18).state.trace? ⟨1⟩ = some (.waiting, false, some .external, true, false) := by
  have acts : lapseRun.Acts 13 (lapseHost lingers 12).state [] (lapseHost lingers 12).agent [] (lapseHost lingers 13) :=
    ⟨by decide, rfl, lapse_unmoved 12 (by decide), Config.step_after (lapse_ok 12 (by decide)), rfl, rfl⟩
  have unwinds : (lapseHost lingers 12).agent.Unwinds (lapseHost lingers 12).state lapseUnwind :=
    .jumps (by decide +kernel)
  have lands := lapseRun.lands_fresh (j := 15) acts unwinds (by decide +kernel) (by decide) (by decide) ?_ ?_ ?_
    (.inl ⟨fun _ _ => id, List.mem_cons_self⟩)
  · exact ⟨lands.2.1, lands.2.2.1, lands.2.2.2, by decide +kernel⟩
  · intro k first last b here
    obtain rfl : k = 14 := by omega
    obtain rfl := Option.some.inj here
    decide
  · intro b here
    obtain rfl := Option.some.inj here
    decide
  · intro k st before agent behind config first last acts request next asks
    obtain rfl : k = 14 := by omega
    -- There is one thread only, whose cancelled frame suspends.
    have sole : [(lapseHost lingers 13).agent] = before ++ agent :: behind := congrArg Crew.agents acts.crew
    obtain ⟨rfl, rfl, rfl⟩ : before = [] ∧ (lapseHost lingers 13).agent = agent ∧ behind = [] := by
      cases before with
      | nil => exact ⟨rfl, List.cons.inj sole |>.1, (List.cons.inj sole).2.symm⟩
      | cons b before => simp at sole
    cases asks

/-- A frame that yields when it is cancelled, and suspends. -/
def yields (context : Context) : Program Unit Empty := .ask (.yield context.task) fun _ => .answer .suspended

/-- The unwind keeps the wake of the cancelled frame.  So the first frame is not parked when it waits for an event, but
is ready at once, and its task is counted as one that waits. -/
theorem lapse_stale : (∀ n < 18, (lapseHost yields n).step.isOk = true) ∧
    (lapseHost yields 12).state.Clear ⟨1⟩ ∧ (lapseHost yields 12).agent.Unwinds (lapseHost yields 12).state lapseUnwind ∧
    lapseUnwind.Landed (lapseHost yields 15).state ∧
    (lapseHost yields 15).state.trace? ⟨1⟩ = some (.running, true, none, false, false) ∧
    (lapseHost yields 18).state.trace? ⟨1⟩ = some (.ready, false, some .external, true, true) := by
  refine ⟨by decide +kernel, by decide +kernel, .jumps (by decide +kernel), ?_, by decide +kernel, by decide +kernel⟩
  obtain ⟨task, found⟩ : ∃ task, (lapseHost yields 15).state.tasks.get? ⟨1⟩ = some task :=
    Option.isSome_iff_exists.1 (by decide +kernel)
  have shape : (some task).map (fun task => (task.top, task.error.isNone)) = some (some ⟨1⟩, true) := by
    rw [← found]
    decide +kernel
  obtain ⟨top, error⟩ := Prod.mk.inj (Option.some.inj shape)
  exact ⟨task, found, top, rfl, by simpa using error⟩

end Crew

end Tasking
