import Tasking.Proofs.Accounts

/-! # What a scheduler says of its tasks

Whatever the code does that runs on any number of threads, at every moment the counters of each scheduler
tell its tasks, and its queue holds the ready ones (`Crew.Run.keeps_accounts`).  All that is asked of the
code is that it forces no task from one stage to another, gives no task a thread of its own, and stops a
scheduler only when that is quiescent (`Crew.Unforced`).
-/

namespace Tasking

variable {V C : Type}

/-! ## Reading the accounts -/

namespace Table

variable {kind : Kind} {α : Type}

theorem nodup_ids (table : Table kind α) : table.ids.Nodup := by
  refine List.nodup_range.map fun n m same => ?_
  simpa using same

theorem mem_ids {table : Table kind α} {i : Id kind} {a : α} (found : table.get? i = some a) :
    i ∈ table.ids := by
  obtain ⟨n⟩ := i
  have used := (table.isSome_get?_iff ⟨n⟩).1 (by simp [found])
  refine List.mem_map.2 ⟨n - 1, ?_, ?_⟩
  · simp only [size] at used
    simp only [List.mem_range]
    omega
  · simp only [Id.mk.injEq] at used ⊢
    omega

theorem countP_entries (table : Table kind α) (p : α → Bool) :
    table.entries.toList.countP p = table.ids.countP fun i => (table.get? i).any p := by
  have listed : table.ids.map table.get? = table.entries.toList.map some := by
    refine List.ext_getElem? fun n => ?_
    by_cases inside : n < table.entries.size
    · simp [ids, get?, inside]
    · simp [ids, inside]
  have counts := congrArg (List.countP fun a => a.any p) listed
  rw [List.countP_map, List.countP_map] at counts
  exact counts.symm

end Table

namespace State.Accounts

variable {st : State V C} {s : SchedulerId} {scheduler : Scheduler}

theorem mem_queue (accounts : st.Accounts) {t : TaskId} : t ∈ st.queue s ↔
    ∃ task, st.tasks.get? t = some task ∧ task.scheduler = s ∧ task.life = .ready := by
  rw [accounts.filed.queued]
  simp [Task.standing]

theorem length_queue (accounts : st.Accounts) :
    (st.queue s).length = st.population s fun task => task.life = .ready := by
  have same : (st.queue s).Perm (st.tasks.ids.filter fun t =>
      (st.tasks.get? t).any fun task => task.scheduler = s && task.life = .ready) := by
    refine (List.perm_ext_iff_of_nodup (accounts.filed.distinct s)
      ((Table.nodup_ids _).filter _)).2 fun t => ?_
    rw [accounts.mem_queue, List.mem_filter]
    constructor
    · rintro ⟨task, found, own, ready⟩
      exact ⟨Table.mem_ids found, by simp [found, own, ready]⟩
    · rintro ⟨_, fits⟩
      obtain ⟨task, found, fits⟩ := (Option.any_eq_true _ _).1 fits
      exact ⟨task, found, by simpa using fits⟩
  rw [same.length_eq, population, Table.countP_entries, List.countP_eq_length_filter]

/-- What a counter says, and what it counts. -/
theorem count_eq (accounts : st.Accounts) (known : st.schedulers.get? s = some scheduler) (c : Counter) :
    scheduler.count c = st.population s fun task => task.counts c := by
  have counts := accounts.counted s scheduler known c
  rwa [tally_eq_population, Int.add_zero] at counts

end State.Accounts

/-- The counters of every scheduler are exact, and exactly its ready tasks are in its queue, each once. -/
structure State.Accounted (st : State V C) (s : SchedulerId) (scheduler : Scheduler) : Prop where
  tasks : (st.statsOf s scheduler).tasks = st.population s fun task => !task.isFinished
  runnable : (st.statsOf s scheduler).runnable =
    st.population s fun task => task.life = .ready || task.life = .running
  external : (st.statsOf s scheduler).external = st.population s fun task => task.external
  ready : (st.statsOf s scheduler).ready = st.population s fun task => task.life = .ready
  queued : ∀ t, t ∈ st.queue s ↔
    ∃ task, st.tasks.get? t = some task ∧ task.scheduler = s ∧ task.life = .ready
  once : (st.queue s).Nodup

theorem State.Accounts.accounted {st : State V C} {s : SchedulerId} {scheduler : Scheduler}
    (accounts : st.Accounts) (known : st.schedulers.get? s = some scheduler) :
    st.Accounted s scheduler where
  tasks := by
    have counts := accounts.count_eq known .tasks
    have unfinished : st.population s (fun task => task.counts .tasks) =
        st.population s fun task => !task.isFinished :=
      population_congr fun found => (accounts.posted found).entered
    rw [unfinished] at counts
    simp only [Scheduler.count] at counts
    simp [statsOf, counts]
  runnable := by
    have counts := accounts.count_eq known .runnable
    simp only [Scheduler.count] at counts
    simp [statsOf, counts, Task.counts]
  external := by
    have counts := accounts.count_eq known .external
    simp only [Scheduler.count] at counts
    simp [statsOf, counts, Task.counts]
  ready := by
    rw [← accounts.length_queue]
    simp [statsOf, queue, known]
  queued _ := accounts.mem_queue
  once := accounts.filed.distinct s

/-! ## Whole runs -/

namespace Crew

/-- The tasks whose runs are in progress. -/
def inHand (c : Crew V C) : List TaskId := c.agents.flatMap Agent.inHand

/-- What code keeps to that does not force tasks from one stage to another. -/
def Unforced (c : Crew V C) (a : Agent V C) : Prop :=
  match a.focus with
  | .code (.ask request _) => c.state.Unforced request
  | .own _ _ => False
  | _ => True

/-- The accounts are right, and a task in its running stage is run by some thread. -/
structure Accountable (c : Crew V C) : Prop where
  accounts : c.state.Accounts
  manned : ∀ {t}, c.state.life t = some .running → t ∈ c.inHand

theorem accountable_initial (parallelism : Nat) : (initial parallelism : Crew V C).Accountable where
  accounts := by
    refine ⟨⟨fun {t s} => ?_, fun s => ?_⟩, fun s scheduler found => ?_, fun found => ?_⟩
    · simp [initial, State.initial, State.queue]
    · simp [initial, State.initial, State.queue]
    · simp [initial, State.initial] at found
    · simp [initial, State.initial] at found
  manned live := by simp [initial, State.initial, State.life] at live

variable [Inhabited V]

theorem Accountable.act {st : State V C} {before after : List (Agent V C)} {a : Agent V C}
    {config : Config V C} (accountable : Accountable ⟨st, before ++ a :: after⟩)
    (unforced : Unforced ⟨st, before ++ a :: after⟩ a) (step : (a.config st).step = .ok config) :
    Accountable ⟨config.state, before ++ ⟨config.focus, config.stack⟩ :: after⟩ := by
  have accounts : st.Accounts := accountable.accounts
  have manned : ∀ {t}, st.life t = some .running →
      t ∈ before.flatMap Agent.inHand ∨ t ∈ a.inHand ∨ t ∈ after.flatMap Agent.inHand := fun live => by
    simpa [inHand] using accountable.manned live
  have permitted : ∀ request next, (a.config st).focus = .code (.ask request next) →
      State.Unforced (a.config st).state request := by
    intro request next focus
    simp only [Unforced, show a.focus = .code (.ask request next) from focus] at unforced
    exact unforced
  -- It is enough to find every running task among those that the thread still has in hand, or to know
  -- that it was running before and is not one that the thread let go of.
  have assemble : config.state.Accounts → (∀ t, config.state.life t = some .running →
      t ∈ config.agent.inHand ∨ st.life t = some .running ∧ (t ∈ a.inHand → t ∈ config.agent.inHand)) →
      Accountable ⟨config.state, before ++ ⟨config.focus, config.stack⟩ :: after⟩ := by
    intro accounts' running
    refine ⟨accounts', fun {t} live => ?_⟩
    have goal : t ∈ before.flatMap Agent.inHand ∨ t ∈ config.agent.inHand ∨
        t ∈ after.flatMap Agent.inHand := by
      rcases running t live with now | ⟨earlier, still⟩
      · exact .inr (.inl now)
      · rcases manned earlier with left | own | right
        · exact .inl left
        · exact .inr (.inl (still own))
        · exact .inr (.inr right)
    simpa [inHand, Config.agent] using goal
  cases Config.course_of_step permitted step with
  | deeds deeds inHand =>
    obtain ⟨accounts', persists⟩ := accounts.deeds deeds
    refine assemble accounts' fun t live => .inr ⟨persists.idle live, fun own => ?_⟩
    rwa [inHand]
  | @begins t w st₁ taken begun inHand =>
    rcases taken with ⟨s, _, taken⟩ | ⟨⟨index, own⟩, _⟩
    · obtain ⟨accounts', task, _, _, becomes⟩ := accounts.begins taken begun
      refine assemble accounts' fun u live => ?_
      rw [inHand]
      by_cases same : u = t
      · exact .inl (by simp [same])
      · refine .inr ⟨?_, fun own => List.mem_cons_of_mem _ own⟩
        exact (congrArg (Option.map Task.life) (becomes.other same)).symm.trans live
    · simp only [Unforced, show a.focus = .own t index from own] at unforced
  | @parks t st₁ aside parked inHand =>
    obtain ⟨accounts₁, persists⟩ := accounts.aside aside
    obtain ⟨accounts', task, _, _, ends, becomes⟩ := accounts₁.parks parked
    refine assemble accounts' fun u live => ?_
    have different : u ≠ t := by
      rintro rfl
      exact ends (by simpa [State.life, becomes.self] using live)
    refine .inr ⟨persists.idle ?_, fun own => ?_⟩
    · exact (congrArg (Option.map Task.life) (becomes.other different)).symm.trans live
    · rw [show a.inHand = t :: config.agent.inHand from inHand] at own
      exact (List.mem_cons.1 own).resolve_left different
  | @finishes t result st₁ aside finished inHand =>
    obtain ⟨accounts₁, persists⟩ := accounts.aside aside
    obtain ⟨accounts', ends, others⟩ := accounts₁.finishes finished
    refine assemble accounts' fun u live => ?_
    have different : u ≠ t := fun same => ends (same ▸ live)
    refine .inr ⟨persists.idle (others u different live), fun own => ?_⟩
    rw [show a.inHand = t :: config.agent.inHand from inHand] at own
    exact (List.mem_cons.1 own).resolve_left different

theorem Accountable.step {c c' : Crew V C} {label : Option (TaskId × FrameId)}
    (accountable : c.Accountable) (step : Step Unforced c label c') : c'.Accountable := by
  cases step with
  | act unforced step => exact accountable.act unforced step
  | @join st agents a new =>
    refine ⟨accountable.accounts, fun live => ?_⟩
    have member := accountable.manned live
    simp only [inHand, List.flatMap_append, List.mem_append]
    exact .inl member
  | @lapse st before after condition limit next stack =>
    refine ⟨accountable.accounts, fun live => ?_⟩
    have member := accountable.manned live
    simpa [inHand, Agent.inHand, Focus.inHand] using member
  | @switch st agents thread =>
    have accounts : st.Accounts := accountable.accounts
    have same : State.Aside st { st with running := thread } := .of_tables rfl rfl (fun _ => rfl) fun _ => rfl
    exact ⟨(accounts.aside same).1, accountable.manned⟩

/-- The accounts are right at every moment of a run. -/
theorem Run.accountable (run : Run V C Unforced) : ∀ i ≤ run.length, (run.crew i).Accountable := by
  intro i
  induction i with
  | zero =>
    intro _
    obtain ⟨parallelism, starts⟩ := run.starts
    exact starts ▸ accountable_initial parallelism
  | succ i inductionHypothesis =>
    intro bound
    exact (inductionHypothesis (by omega)).step (run.steps i (by omega))

omit [Inhabited V] in
/-- A thread inside no run has no task in hand. -/
theorem inHand_eq_nil {c : Crew V C} (still : c.runs = []) : c.inHand = [] := by
  refine List.flatMap_eq_nil_iff.2 fun a member => ?_
  have none' : a.runs = [] := List.flatMap_eq_nil_iff.1 still a member
  obtain ⟨focus, stack⟩ := a
  simp only [Agent.runs, List.append_eq_nil_iff, List.filterMap_eq_nil_iff] at none'
  obtain ⟨focused, stacked⟩ := none'
  simp only [Agent.inHand, List.append_eq_nil_iff, List.flatMap_eq_nil_iff]
  refine ⟨?_, fun x inside => ?_⟩
  · cases focus with
    | trampoline t after => simp [Focus.run?] at focused
    | _ => rfl
  · have nothing := stacked x inside
    cases x with
    | frame | cancel => simp [Activation.run?] at nothing
    | _ => rfl

/-- At every moment the counters of every scheduler are exact, and its queue is.  If its queue is empty
and no run of a task is in progress then nothing is runnable, and whoever waits until the scheduler is
quiescent waits for nothing but events outside. -/
theorem Run.keeps_accounts (run : Run V C Unforced) {i : Nat} (bound : i ≤ run.length) {s : SchedulerId}
    {scheduler : Scheduler} (known : (run.crew i).state.schedulers.get? s = some scheduler) :
    (run.crew i).state.Accounted s scheduler ∧
      ((run.crew i).state.queue s = [] → (run.crew i).runs = [] →
        ((run.crew i).state.statsOf s scheduler).runnable = 0 ∧
        (Config.holds (run.crew i).state (.quiescent s) = true ↔
          ((run.crew i).state.statsOf s scheduler).external = 0)) := by
  have accountable := run.accountable i bound
  have accounted := accountable.accounts.accounted known
  refine ⟨accounted, fun empty still => ?_⟩
  have idle : ((run.crew i).state.statsOf s scheduler).runnable = 0 := by
    rw [accounted.runnable, State.population_eq_zero]
    intro t task found own
    have queued : t ∉ (run.crew i).state.queue s := by simp [empty]
    rw [accounted.queued] at queued
    have running : (run.crew i).state.life t ≠ some .running := fun live => by
      have member := accountable.manned live
      simp [inHand_eq_nil still] at member
    simp only [State.life, found, Option.map_some, ne_eq, Option.some.injEq] at running
    simp only [Bool.or_eq_false_iff, decide_eq_false_iff_not]
    exact ⟨fun ready => queued ⟨task, found, own, ready⟩, running⟩
  refine ⟨idle, ?_⟩
  have nobody : scheduler.ready.isEmpty = true := by
    rw [Line.isEmpty_iff]
    simpa [State.queue, known] using empty
  simp only [State.statsOf, Int.toNat_eq_zero] at idle ⊢
  simp [Config.holds, known, Scheduler.isQuiescent, idle, nobody]

/-! ### A task that waits for an event outside -/

def sleeper : Program Unit Empty :=
  let body : Body Unit Empty := fun context _ _ =>
    .ask (.waitExternal context.task) fun _ => .answer .suspended
  .ask .newRegistry fun g =>
  .ask (.newScheduler .manual g) fun
    | .error _ => .answer .suspended
    | .ok s => .newFrame "sleeper" body fun entry =>
      .ask (.spawn s entry) fun
      | .error _ => .answer .suspended
      | .ok t => .ask (.start t) fun _ => .drive s fun _ => .answer (.done ())

/-- The host of the task after so many steps. -/
def sleeperHost (n : Nat) : Config Unit Empty := (Config.start (.initial 1) sleeper).after n

theorem sleeper_ok : ∀ n < 11, (sleeperHost n).step.isOk = true := by decide +kernel

theorem sleeper_unforced : ∀ n < 11, Unforced (sleeperHost n).alone (sleeperHost n).agent := by
  intro n bound
  interval_cases n
  all_goals trivial

def sleeperRun : Run Unit Empty Unforced := .ofHost 1 sleeper 11 sleeper_ok sleeper_unforced

/-- Nothing is runnable any more, and the scheduler is not quiescent. -/
theorem sleeper_accounts : ∃ scheduler, (sleeperRun.crew 12).state.schedulers.get? ⟨1⟩ = some scheduler ∧
    (sleeperRun.crew 12).state.Accounted ⟨1⟩ scheduler ∧
    ((sleeperRun.crew 12).state.statsOf ⟨1⟩ scheduler).runnable = 0 ∧
    ((sleeperRun.crew 12).state.statsOf ⟨1⟩ scheduler).external = 1 ∧
    Config.holds (sleeperRun.crew 12).state (.quiescent ⟨1⟩) = false := by
  obtain ⟨scheduler, known⟩ : ∃ scheduler, (sleeperRun.crew 12).state.schedulers.get? ⟨1⟩ =
      some scheduler := Option.isSome_iff_exists.1 (by decide +kernel)
  obtain ⟨accounted, idle⟩ := sleeperRun.keeps_accounts (show 12 ≤ 12 by decide) known
  obtain ⟨still, waits⟩ := idle (by decide +kernel) (by decide +kernel)
  have outside : ((sleeperRun.crew 12).state.statsOf ⟨1⟩ scheduler).external = 1 :=
    accounted.external.trans (by decide +kernel)
  refine ⟨scheduler, known, accounted, still, outside, ?_⟩
  rw [← Bool.not_eq_true, waits, outside]
  decide

end Crew

end Tasking
