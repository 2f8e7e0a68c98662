import Tasking.Proofs.Listing

/-! # Finished tasks and the books

A task that is at its end is off its scheduler's list, is not runnable and not blocked, whatever code did
before (`State.Kept`).  It still counts as waiting for an event outside if it did so when it ended: nobody
takes an announcement back that no wake has answered (`Crew.Run.leaves_books`).

So when all tasks of a scheduler are at their end, the scheduler is quiescent, and whoever waits for that
goes on, if and only if none of them ended with such an announcement.  A task that announces that it waits
for an event, and then finishes because there will be no such event, keeps its scheduler from being stopped
for ever (`Crew.dropout_counted`).

Nothing is asked of code but that it forges no stage, starts only tasks that were handed out, and takes up
only such tasks on threads of their own as have one (`Crew.Unforged`).
-/

namespace Tasking

variable {V C : Type}

/-! ## Whole runs -/

namespace Crew

/-- What code keeps to that forges nothing.  A thread takes up only a task whose thread it can be. -/
def Unforged (c : Crew V C) (a : Agent V C) : Prop :=
  match a.focus with
  | .code (.ask request _) => c.state.Unforged request
  | .own t _ => ∃ task, c.state.tasks.get? t = some task ∧ task.bound.isSome = true
  | _ => True

/-- The last frame of a task that was running finishes; `announced` says whether the task counted as waiting
for an event outside, and it still does. -/
def Departs (c c' : Crew V C) (t : TaskId) (announced : Bool) : Prop :=
  ∃ task life, c.state.tasks.get? t = some task ∧ task.life = .running ∧ task.external = announced ∧
    c'.state.ending? t = some ((task.scheduler, life), announced)

open State

variable [Inhabited V] {c c' : Crew V C} {label : Option (TaskId × FrameId)}

/-- A step keeps the books, and at most one task comes to its end in it. -/
theorem Step.kept (step : Step Unforged c label c') (kept : c.state.Kept) : c'.state.Kept ∧
    ∀ t, c'.state.ending? t = c.state.ending? t ∨ ∃ announced, c.Departs c' t announced := by
  have still : ∀ {st : State V C}, st.Kept ∧ KeepsEnds c.state st →
      st.Kept ∧ ∀ t, st.ending? t = c.state.ending? t ∨ ∃ announced, c.Departs ⟨st, c'.agents⟩ t announced :=
    fun ⟨kept', keeps⟩ => ⟨kept', fun t => .inl (keeps t)⟩
  cases step with
  | @act st before after a config unforged step =>
    have permitted : ∀ request next, (a.config st).focus = .code (.ask request next) →
        State.Unforged (a.config st).state request := by
      intro request next focus
      simp only [Unforged, show a.focus = .code (.ask request next) from focus] at unforged
      exact unforged
    cases Config.course_of_step permitted step with
    | deeds deeds _ => exact still (kept.deeds deeds)
    | @begins t w st₁ taken begun _ =>
      rcases taken with ⟨s, _, taken⟩ | ⟨⟨index, own⟩, rfl⟩
      · obtain ⟨kept₁, keeps, ⟨task, found⟩, out⟩ := kept.takeReady taken
        obtain ⟨kept', keeps'⟩ := kept₁.beginRun found out begun
        exact still ⟨kept', keeps.trans keeps'⟩
      · simp only [Unforged, show a.focus = .own t index from own] at unforged
        obtain ⟨task, found, bound⟩ := unforged
        refine still (kept.beginRun found (fun s queued => ?_) begun)
        -- A task with a thread of its own is in no queue.
        obtain ⟨other, found', _, unbound⟩ := kept.ready queued
        obtain rfl := Option.some.inj (found.symm.trans found')
        simp [unbound] at bound
    | parks aside parked _ =>
      obtain ⟨kept₁, keeps⟩ := kept.aside aside
      obtain ⟨kept', keeps'⟩ := kept₁.park parked
      exact still ⟨kept', keeps.trans keeps'⟩
    | @finishes t result st₁ aside finished _ =>
      obtain ⟨kept₁, keeps⟩ := kept.aside aside
      obtain ⟨kept', others, task, found, live, ended⟩ := kept₁.finish finished
      refine ⟨kept', fun u => ?_⟩
      by_cases here : u = t
      · subst here
        have rel := aside.tasks u
        rw [found] at rel
        cases found' : (a.config st).state.tasks.get? u with
        | none => rw [found'] at rel; cases rel
        | some before =>
          rw [found'] at rel
          cases rel with
          | some same =>
            rw [same] at live ended
            exact .inr ⟨_, before, _, found', live, rfl, ended⟩
      · exact .inl ((others u here).trans (keeps u))
  | join => exact still (kept.congr rfl fun _ => rfl)
  | lapse => exact still (kept.congr rfl fun _ => rfl)
  | switch => exact still (kept.congr rfl fun _ => rfl)

namespace Run

variable (run : Run V C Unforged)

theorem kept : ∀ i ≤ run.length, (run.crew i).state.Kept := by
  intro i
  induction i with
  | zero =>
    intro _
    obtain ⟨parallelism, starts⟩ := run.starts
    rw [starts]
    exact ⟨⟨by simp [Crew.initial, State.initial, State.queue], by simp [Crew.initial, State.initial, State.queue]⟩,
      by simp [Crew.initial, State.initial, State.Counted], by simp [Crew.initial, State.initial],
      by simp [Crew.initial, State.initial]⟩
  | succ i inductionHypothesis =>
    intro bound
    exact ((run.steps i (by omega)).kept (inductionHypothesis (by omega))).1

/-- A task that is at its end came to it in some step. -/
theorem departed {i : Nat} (bound : i ≤ run.length) {t : TaskId} {standing : SchedulerId × Life}
    {announced : Bool} (ended : (run.crew i).state.ending? t = some (standing, announced)) :
    ∃ j < i, (run.crew j).Departs (run.crew (j + 1)) t announced := by
  induction i with
  | zero =>
    obtain ⟨parallelism, starts⟩ := run.starts
    rw [starts] at ended
    simp [Crew.initial, State.initial, State.ending?] at ended
  | succ i inductionHypothesis =>
    rcases ((run.steps i bound).kept (run.kept i (by omega))).2 t with same | ⟨announced', departs⟩
    · obtain ⟨j, earlier, departs⟩ := inductionHypothesis (by omega) (same ▸ ended)
      exact ⟨j, by omega, departs⟩
    · obtain ⟨task, life', found, live, external, ended'⟩ := departs
      obtain ⟨rfl, rfl⟩ := Prod.mk.inj (Option.some.inj (ended.symm.trans ended'))
      exact ⟨i, by omega, task, life', found, live, external, ended'⟩

/-- A task stays as it ended. -/
theorem stays_ended {i j : Nat} (later : i ≤ j) (bound : j ≤ run.length) {t : TaskId} {how : (SchedulerId × Life) × Bool}
    (ended : (run.crew i).state.ending? t = some how) : (run.crew j).state.ending? t = some how := by
  induction j, later using Nat.le_induction with
  | base => exact ended
  | succ j later inductionHypothesis =>
    have before := inductionHypothesis (by omega)
    rcases ((run.steps j bound).kept (run.kept j (by omega))).2 t with same | ⟨_, task, _, found, live, _⟩
    · exact same.trans before
    · simp [State.ending?, found, Task.ending?, live, Life.isTerminal] at before

end Run

end Crew

/-! ## Waiting for quiescence -/

/-- A thread that can only wait stays as it is. -/
theorem Config.step_of_mustWait [Inhabited V] {c : Config V C} (waits : mustWait c.state c.focus = true) :
    c.step = .ok c := by
  obtain ⟨st, focus, stack⟩ := c
  cases focus with
  | waiting condition limit next =>
    simp only [mustWait, Bool.and_eq_true, Bool.not_eq_true', Option.isNone_iff_eq_none] at waits
    simp only [Config.step, keepWaiting, waits.1, waits.2]
    rfl
  | _ => simp [mustWait] at waits

theorem Config.after_succ [Inhabited V] {c c' : Config V C} {n : Nat} (step : (c.after n).step = .ok c') :
    c.after (n + 1) = c' := by
  rw [after, step]

theorem Config.after_of_step [Inhabited V] {c : Config V C} (same : c.step = .ok c) (n : Nat) : c.after n = c := by
  induction n with
  | zero => rfl
  | succ n inductionHypothesis => exact after_succ (by rwa [inductionHypothesis])

namespace State

variable {st : State V C} {s : SchedulerId} {scheduler : Scheduler}

/-- The counters of a scheduler count its tasks. -/
def Tells (st : State V C) (s : SchedulerId) (scheduler : Scheduler) : Prop :=
  st.statsOf s scheduler =
    { tasks := st.population s fun task => task.listed
      runnable := st.population s fun task => task.life = .ready || task.life = .running
      external := st.population s fun task => task.external
      blocked := st.population s fun task => task.listed && task.isBlocked
      ready := (st.queue s).length }

/-- Whoever waits until a scheduler is quiescent goes on, and whoever shuts it down has stopped it. -/
def LetsGo [Inhabited V] (st : State V C) (s : SchedulerId) : Prop :=
  (∀ limit next stack, (⟨st, .code (.await (.quiescent s) limit next), stack⟩ : Config V C).after 2 =
    ⟨st, .code next, stack⟩) ∧
  ∃ st', st.stop s = .ok st' ∧ ∀ next stack,
    (⟨st, .code (Code.shutdown s next), stack⟩ : Config V C).after 3 = ⟨st', .code (next ()), stack⟩

theorem letsGo_of_holds [Inhabited V] (known : st.schedulers.get? s = some scheduler)
    (holds : Config.holds st (.quiescent s) = true) : st.LetsGo s := by
  have waits : ∀ limit next stack, (⟨st, .code (.await (.quiescent s) limit next), stack⟩ : Config V C).after 2 =
      ⟨st, .code next, stack⟩ := by
    intro limit next stack
    have goes : (⟨st, .waiting (.quiescent s) limit next, stack⟩ : Config V C).step =
        .ok ⟨st, .code next, stack⟩ := by
      simp only [Config.step, Config.keepWaiting, holds, if_true]
      rfl
    exact Config.after_succ goes
  obtain ⟨st', stopped⟩ : ∃ st', st.stop s = .ok st' :=
    ⟨_, by simp only [State.stop, State.scheduler, State.find, known]; rfl⟩
  refine ⟨waits, st', stopped, fun next stack => Config.after_succ ?_⟩
  have shuts : Code.shutdown s next = .await (.quiescent s) none (.ask (.stop s) fun _ => next ()) := rfl
  rw [shuts, waits]
  simp only [Config.step, Config.stepCode, State.serve, stopped]
  rfl

theorem Kept.tells (kept : st.Kept) (known : st.schedulers.get? s = some scheduler) : st.Tells s scheduler := by
  have counts : ∀ c, scheduler.count c = st.population s fun task => task.counts c := fun c => by
    have exact' := kept.counted s scheduler known c
    rwa [tally_eq_population, Int.add_zero] at exact'
  have tasks := counts .tasks
  have runnable := counts .runnable
  have external := counts .external
  simp only [Scheduler.count] at tasks runnable external
  have ready : scheduler.ready.length = (st.queue s).length := by simp [State.queue, known]
  simp only [Tells, statsOf, tasks, runnable, external, ready, Int.toNat_natCast, Task.counts,
    blockedCount_eq_population]

/-- A task at its end is on no list, in no queue, neither runnable nor blocked. -/
theorem Kept.absent (kept : st.Kept) {t : TaskId} {task : Task V} (found : st.tasks.get? t = some task)
    (ended : task.isFinished = true) : task.counts .tasks = false ∧ task.counts .runnable = false ∧
      task.isBlocked = false ∧ ∀ v, t ∉ st.queue v := by
  have terminal : task.life.isTerminal = true := ended
  have listed := kept.listed found
  rw [Task.Listed, if_pos terminal] at listed
  have idle : ∀ life : Life, life.isTerminal = false → task.life ≠ life := fun life live same => by
    simp [same, live] at terminal
  refine ⟨listed, ?_, ?_, fun v => kept.notMem found (idle .ready rfl) v⟩
  · simp [Task.counts, idle .ready rfl, idle .running rfl]
  · simp [Task.isBlocked, idle .waiting rfl]

/-- All tasks of a scheduler are at their end. -/
def AllEnded (st : State V C) (s : SchedulerId) : Prop :=
  ∀ {t task}, st.tasks.get? t = some task → task.scheduler = s → task.isFinished = true

theorem Kept.empty (kept : st.Kept) (known : st.schedulers.get? s = some scheduler) (all : st.AllEnded s) :
    (st.statsOf s scheduler).tasks = 0 ∧ (st.statsOf s scheduler).runnable = 0 ∧
      (st.statsOf s scheduler).blocked = 0 ∧ (st.statsOf s scheduler).ready = 0 := by
  rw [kept.tells known]
  refine ⟨population_eq_zero.2 fun found own => ?_, population_eq_zero.2 fun found own => ?_,
    population_eq_zero.2 fun found own => ?_, ?_⟩
  · exact (kept.absent found (all found own)).1
  · exact (kept.absent found (all found own)).2.1
  · simp [(kept.absent found (all found own)).2.2.1]
  · rw [List.length_eq_zero_iff]
    refine List.eq_nil_iff_forall_not_mem.2 fun t queued => ?_
    obtain ⟨task, found, stands, _⟩ := kept.ready queued
    exact (kept.absent found (all found (congrArg Prod.fst stands))).2.2.2 s queued

/-- A scheduler with a task that counts as waiting for an event outside is not quiescent. -/
theorem Kept.busy (kept : st.Kept) {t : TaskId} {task : Task V} (found : st.tasks.get? t = some task)
    (announced : task.external = true) : Config.holds st (.quiescent task.scheduler) = false := by
  obtain ⟨scheduler, known⟩ := Option.isSome_iff_exists.1 (kept.known found)
  have counts := kept.counted _ _ known .external
  rw [tally_eq_population, Int.add_zero] at counts
  have somebody : st.population task.scheduler (fun task => task.counts .external) ≠ 0 := fun nobody => by
    have silent := population_eq_zero.1 nobody found rfl
    simp [Task.counts, announced] at silent
  simp only [Scheduler.count] at counts
  have positive : ¬ scheduler.external ≤ 0 := by omega
  simp [Config.holds, known, Scheduler.isQuiescent, positive]

theorem Kept.quiescent (kept : st.Kept) (known : st.schedulers.get? s = some scheduler) (all : st.AllEnded s)
    (none' : ∀ {t task}, st.tasks.get? t = some task → task.scheduler = s → task.external = false) :
    Config.holds st (.quiescent s) = true := by
  obtain ⟨_, runnable, _, ready⟩ := kept.empty known all
  have external : (st.statsOf s scheduler).external = 0 := by
    rw [kept.tells known]
    exact population_eq_zero.2 none'
  simp only [statsOf, Int.toNat_eq_zero] at runnable external
  have nobody : scheduler.ready.isEmpty = true := by
    rw [Line.isEmpty_iff, ← List.length_eq_zero_iff]
    simpa [statsOf] using ready
  simp [Config.holds, known, Scheduler.isQuiescent, runnable, external, nobody]

end State

namespace Crew

open State

variable [Inhabited V]

/-- At every moment the counters of a scheduler count its tasks, and a task at its end is in none of them but
the one for events outside, in which it is if and only if it was when its last frame finished.

If all tasks of a scheduler are at their end and none of them counts as waiting outside then whoever waits for
the scheduler, or shuts it down, goes on.  If one of them does then the scheduler is never quiescent again. -/
theorem Run.leaves_books (run : Run V C Unforged) {i : Nat} (bound : i ≤ run.length) {s : SchedulerId}
    {scheduler : Scheduler} (known : (run.crew i).state.schedulers.get? s = some scheduler) :
    (run.crew i).state.Tells s scheduler ∧
      (∀ {t task}, (run.crew i).state.tasks.get? t = some task → task.isFinished = true →
        task.counts .tasks = false ∧ task.counts .runnable = false ∧ task.isBlocked = false ∧
        (∀ v, t ∉ (run.crew i).state.queue v) ∧
        (∃ j < i, (run.crew j).Departs (run.crew (j + 1)) t task.external) ∧
        (task.external = true → ∀ j, i ≤ j → j ≤ run.length →
          Config.holds (run.crew j).state (.quiescent task.scheduler) = false)) ∧
      ((run.crew i).state.AllEnded s →
        ((run.crew i).state.statsOf s scheduler).tasks = 0 ∧
        ((run.crew i).state.statsOf s scheduler).runnable = 0 ∧
        ((run.crew i).state.statsOf s scheduler).blocked = 0 ∧
        ((run.crew i).state.statsOf s scheduler).ready = 0 ∧
        ((∀ {t task}, (run.crew i).state.tasks.get? t = some task → task.scheduler = s →
          task.external = false) → (run.crew i).state.LetsGo s)) := by
  have kept := run.kept i bound
  refine ⟨kept.tells known, fun {t task} found ended => ?_, fun all => ?_⟩
  · obtain ⟨listed, idle, free, out⟩ := kept.absent found ended
    have ends : (run.crew i).state.ending? t = some (task.standing, task.external) := by
      have terminal : task.life.isTerminal = true := ended
      simp [State.ending?, found, Task.ending?, terminal]
    refine ⟨listed, idle, free, out, run.departed bound ends, fun announced j later within => ?_⟩
    -- The task stays as it ended, and its scheduler counts it.
    have stays := run.stays_ended later within ends
    obtain ⟨task', found', ended'⟩ := Option.bind_eq_some_iff.1 stays
    simp only [Task.ending?, Option.ite_none_right_eq_some, Option.some.injEq, Prod.mk.injEq] at ended'
    obtain ⟨_, standing, external⟩ := ended'
    have busy := (run.kept j within).busy found' (external.trans announced)
    rwa [show task'.scheduler = task.scheduler from congrArg Prod.fst standing] at busy
  · obtain ⟨tasks, runnable, blocked, ready⟩ := kept.empty known all
    exact ⟨tasks, runnable, blocked, ready, fun none' => letsGo_of_holds known (kept.quiescent known all none')⟩

/-! ### A task that finishes without the event -/

/-- The task announces that it waits for an event outside; as there will be none, it finishes at once.  The
host then shuts the scheduler down. -/
def dropout : Program Unit Empty :=
  let body : Body Unit Empty := fun context _ _ =>
    .ask (.waitExternal context.task) fun _ => .answer (.done ())
  .ask .newRegistry fun g =>
  .ask (.newScheduler .manual g) fun
    | .error _ => .answer .suspended
    | .ok s => .newFrame "dropout" body fun entry =>
      .ask (.spawn s entry) fun
      | .error _ => .answer .suspended
      | .ok t => .ask (.start t) fun _ => .drive s fun _ => Code.shutdown s fun _ => .answer (.done ())

/-- The host of the task after so many steps. -/
def dropoutHost (n : Nat) : Config Unit Empty := (Config.start (.initial 1) dropout).after n

theorem dropout_ok : ∀ n < 12, (dropoutHost n).step.isOk = true := by decide +kernel

theorem dropout_unforged : ∀ n < 12, Unforged (dropoutHost n).alone (dropoutHost n).agent := by
  intro n bound
  interval_cases n
  case «4» =>
    intro task found
    have listed : ((dropoutHost 4).state.tasks.get? ⟨1⟩).all Task.listed = true := by decide +kernel
    rwa [show (dropoutHost 4).state.tasks.get? ⟨1⟩ = some task from found] at listed
  all_goals trivial

def dropoutRun : Run Unit Empty Unforged := .ofHost 1 dropout 12 dropout_ok dropout_unforged

/-- The task is off the list, but the scheduler still waits for its event. -/
theorem dropout_leaves : ∃ scheduler task,
    (dropoutRun.crew 13).state.schedulers.get? ⟨1⟩ = some scheduler ∧
    (dropoutRun.crew 13).state.tasks.get? ⟨1⟩ = some task ∧ task.life = .done ∧
    (dropoutRun.crew 13).state.Tells ⟨1⟩ scheduler ∧ task.counts .tasks = false ∧
    (∃ j < 13, (dropoutRun.crew j).Departs (dropoutRun.crew (j + 1)) ⟨1⟩ true) ∧
    Config.holds (dropoutRun.crew 13).state (.quiescent ⟨1⟩) = false := by
  obtain ⟨scheduler, known⟩ : ∃ scheduler, (dropoutRun.crew 13).state.schedulers.get? ⟨1⟩ = some scheduler :=
    Option.isSome_iff_exists.1 (by decide +kernel)
  have books : ((dropoutRun.crew 13).state.tasks.get? ⟨1⟩).map
      (fun task => (task.life, task.scheduler, task.external)) = some (.done, ⟨1⟩, true) := by decide +kernel
  obtain ⟨task, found, books⟩ := Option.map_eq_some_iff.1 books
  simp only [Prod.mk.injEq] at books
  obtain ⟨done, home, announced⟩ := books
  obtain ⟨tells, absent, _⟩ := dropoutRun.leaves_books (show 13 ≤ 13 by decide) known
  obtain ⟨listed, _, _, _, departs, busy⟩ := absent found (by simp [Task.isFinished, done, Life.isTerminal])
  rw [announced] at departs
  exact ⟨scheduler, task, known, found, done, tells, listed, departs, home ▸ busy announced 13 le_rfl le_rfl⟩

/-- The only task is done, no task is parked, and the scheduler counts one that waits for an event outside.  So
the host that shuts it down waits, and nothing is left that could let it go on. -/
theorem dropout_counted : (∀ n < 12, (dropoutHost n).step.isOk = true) ∧
    (dropoutHost 12).state.life ⟨1⟩ = some .done ∧ (dropoutHost 12).state.tasks.size = 1 ∧
    ((dropoutHost 12).state.schedulers.get? ⟨1⟩).map
      (fun scheduler => ((dropoutHost 12).state.statsOf ⟨1⟩ scheduler).external) = some 1 ∧
    ∀ n, dropoutHost (12 + n) = dropoutHost 12 := by
  refine ⟨dropout_ok, by decide +kernel, by decide +kernel, by decide +kernel, fun n => ?_⟩
  have waits : (dropoutHost 12).step = .ok (dropoutHost 12) :=
    Config.step_of_mustWait (by decide +kernel)
  exact (Config.after_add _ 12 n).trans (Config.after_of_step waits n)

end Crew

end Tasking
