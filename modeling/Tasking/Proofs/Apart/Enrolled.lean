import Tasking.Proofs.Accounts

/-! # The list of a single scheduler

If all tasks are on one scheduler, then every task that is not at its end is on its list, and it counts the
tasks on the list.  Whatever code does, it stays so (`Config.enrolled_of_step`): tasks are put on the list when
they are created, and struck off at their end.  It matters not here whether somebody forces tasks from one
stage to another.
-/

namespace Tasking

variable {V C : Type}

/-- A task was neither put on a list nor struck off, and did not come back from its end. -/
structure Task.Remains (task task' : Task V) : Prop where
  scheduler : task'.scheduler = task.scheduler
  listed : task'.listed = task.listed
  finished : task.isFinished = true → task'.isFinished = true

namespace Task.Remains

variable {task task' task'' : Task V}

theorem refl (task : Task V) : task.Remains task := ⟨rfl, rfl, id⟩

theorem trans (first : task.Remains task') (second : task'.Remains task'') : task.Remains task'' where
  scheduler := second.scheduler.trans first.scheduler
  listed := second.listed.trans first.listed
  finished ended := second.finished (first.finished ended)

theorem of_sameBooks (same : task.SameBooks task') : task.Remains task' := by
  rw [same]
  exact ⟨rfl, rfl, id⟩

theorem weight (remains : task.Remains task') (s : SchedulerId) :
    task'.weight s .tasks = task.weight s .tasks := by
  change (if task'.scheduler = s ∧ task'.listed = true then (1 : Int) else 0) =
    if task.scheduler = s ∧ task.listed = true then 1 else 0
  rw [remains.scheduler, remains.listed]

/-- A task that is not at its end went to another stage. -/
theorem setLife (open' : task.isFinished = false) (life : Life) :
    task.Remains { task with life := life, notified := false } :=
  ⟨rfl, rfl, fun ended => by simp [open'] at ended⟩

end Task.Remains

namespace State

variable {st st₁ st₂ : State V C} {home s : SchedulerId} {t : TaskId} {task : Task V}

/-- All tasks are on one scheduler, which has on its list all that are not at their ends. -/
structure Enrolled (s : SchedulerId) (st : State V C) : Prop where
  home : ∀ {t task}, st.tasks.get? t = some task → task.scheduler = s
  listed : ∀ {t task}, st.tasks.get? t = some task → task.isFinished = false → task.listed = true
  known : ∃ scheduler, st.schedulers.get? s = some scheduler ∧ scheduler.tasks = st.tally s .tasks
  only : ∀ {u}, (st.schedulers.get? u).isSome = true → u = s

/-- Nobody was put on a list or struck off. -/
structure Remains (st st₁ : State V C) : Prop where
  tasks : ∀ t, Option.Rel Task.Remains (st.tasks.get? t) (st₁.tasks.get? t)
  counts : ∀ s, (st₁.schedulers.get? s).map Scheduler.tasks = (st.schedulers.get? s).map Scheduler.tasks

namespace Remains

theorem refl (st : State V C) : Remains st st where
  tasks t := by
    cases st.tasks.get? t with
    | none => exact .none
    | some task => exact .some (.refl task)
  counts _ := rfl

theorem trans (first : Remains st st₁) (second : Remains st₁ st₂) : Remains st st₂ where
  tasks t := by
    have early := first.tasks t
    have late := second.tasks t
    cases found : st.tasks.get? t with
    | none =>
      rw [found] at early
      cases found₁ : st₁.tasks.get? t with
      | none => rwa [found₁] at late
      | some task₁ =>
        rw [found₁] at early
        cases early
    | some task =>
      rw [found] at early
      cases found₁ : st₁.tasks.get? t with
      | none =>
        rw [found₁] at early
        cases early
      | some task₁ =>
        rw [found₁] at early late
        cases early with
        | some remains =>
          generalize st₂.tasks.get? t = last at late
          cases late with
          | some remains' => exact .some (remains.trans remains')
  counts s := (second.counts s).trans (first.counts s)

theorem of_tables (tasks : st₁.tasks = st.tasks) (schedulers : st₁.schedulers = st.schedulers) :
    Remains st st₁ :=
  ⟨fun t => tasks ▸ (refl st).tasks t, fun s => by rw [schedulers]⟩

theorem of_aside (aside : Aside st st₁) : Remains st st₁ where
  tasks t := by
    have related := aside.tasks t
    revert related
    generalize st.tasks.get? t = x, st₁.tasks.get? t = y
    intro related
    cases related with
    | none => exact .none
    | some same => exact .some (.of_sameBooks same)
  counts s := by rw [aside.schedulers]

theorem modifyTask (found : st.tasks.get? t = some task) {f : Task V → Task V} (remains : task.Remains (f task)) :
    Remains st (st.modifyTask t f) where
  tasks u := by
    rw [get?_modifyTask]
    split
    · next here =>
      rw [here, found]
      exact .some remains
    · exact (refl st).tasks u
  counts _ := rfl

/-- A change that no list speaks of. -/
theorem modifyTask_aside (st : State V C) (t : TaskId) {f : Task V → Task V}
    (remains : ∀ task : Task V, task.Remains (f task)) : Remains st (st.modifyTask t f) where
  tasks u := by
    rw [get?_modifyTask]
    split
    · next here =>
      rw [here]
      cases st.tasks.get? t with
      | none => exact .none
      | some task => exact .some (remains task)
    · exact (refl st).tasks u
  counts _ := rfl

theorem modifyScheduler (st : State V C) (s : SchedulerId) {f : Scheduler → Scheduler}
    (same : ∀ scheduler, st.schedulers.get? s = some scheduler → (f scheduler).tasks = scheduler.tasks) :
    Remains st (st.modifyScheduler s f) where
  tasks := (refl st).tasks
  counts u := by
    rw [get?_modifyScheduler]
    split
    · next here =>
      rw [here]
      cases found : st.schedulers.get? s with
      | none => rfl
      | some scheduler => exact congrArg some (same scheduler found)
    · rfl

theorem adjust {c : Counter} {change : Int} (done : st.adjust s c change = .ok st₁) (other : c ≠ .tasks) :
    Remains st st₁ := by
  obtain ⟨scheduler, _, _, rfl⟩ := adjust_ok.1 done
  apply modifyScheduler
  intro scheduler' _
  cases c with
  | tasks => exact absurd rfl other
  | runnable | external => rfl

theorem schedule (done : st.schedule t = .ok st₁) : Remains st st₁ := by
  obtain ⟨task, found, ⟨_, rfl⟩ | ⟨_, _, rfl⟩⟩ := schedule_ok done
  · exact .refl st₁
  · apply trans (modifyTask_aside st t (f := fun task => { task with linked := true }) fun _ => ⟨rfl, rfl, id⟩)
    exact modifyScheduler _ _ fun _ _ => rfl

theorem finishWait (done : st.finishWait t = .ok st₁) : Remains st st₁ := by
  obtain ⟨task, found, done⟩ := finishWait_ok done
  have settled : Remains st (st.modifyTask t fun task => { task with waiting := none, external := false }) :=
    modifyTask_aside st t fun _ => ⟨rfl, rfl, id⟩
  split at done
  · exact settled.trans (adjust done nofun)
  · exact done ▸ settled

theorem start (done : st.start t = .ok st₁) : Remains st st₁ := by
  obtain ⟨task, found⟩ := exists_of_task done
  obtain ⟨new, st₂, counts, scheduled⟩ := start_ok found done
  have open' : task.isFinished = false := by rw [Task.isFinished, new]; rfl
  have begun : Remains st (st.setLife t .ready) := modifyTask found (.setLife open' .ready)
  exact (begun.trans (adjust counts nofun)).trans (schedule scheduled)

theorem ready (done : st.ready t = .ok st₁) : Remains st st₁ := by
  obtain ⟨task, found⟩ := exists_of_task done
  cases ready_ok found done with
  | inl parked =>
    obtain ⟨parked, st₂, st₃, counts, settled, scheduled⟩ := parked
    have open' : task.isFinished = false := by rw [Task.isFinished, parked]; rfl
    have woken : Remains st (st.setLife t .ready) := modifyTask found (.setLife open' .ready)
    exact ((woken.trans (adjust counts nofun)).trans (finishWait settled)).trans (schedule scheduled)
  | inr live =>
    have marked : Remains st (st.modifyTask t fun task => { task with notified := true }) :=
      modifyTask_aside st t fun _ => ⟨rfl, rfl, id⟩
    exact marked.trans (finishWait live.2)

theorem readyAll {ts : List TaskId} (done : st.readyAll ts = .ok st₁) : Remains st st₁ := by
  induction ts generalizing st with
  | nil => exact pure_ok.1 done ▸ .refl st
  | cons t rest inductionHypothesis =>
    simp only [State.readyAll, bind_ok] at done
    obtain ⟨st₂, first, later⟩ := done
    exact (ready first).trans (inductionHypothesis later)

theorem waitExternal (done : st.waitExternal t = .ok st₁) : Remains st st₁ := by
  obtain ⟨task, found⟩ := exists_of_task done
  obtain ⟨_, done⟩ := waitExternal_ok found done
  have announced : Remains st (st.modifyTask t fun task =>
      { task with waiting := some .external, external := true }) :=
    modifyTask_aside st t fun _ => ⟨rfl, rfl, id⟩
  split at done
  · exact done ▸ announced
  · exact announced.trans (adjust done nofun)

theorem move {life : Life} {reply : Except IllegalMove Life} (done : st.move t life = .ok (reply, st₁)) :
    Remains st st₁ := by
  simp only [State.move, bind_ok, task_ok] at done
  obtain ⟨task, found, done⟩ := done
  split at done
  · next may =>
    simp only [pure_ok, Prod.mk.injEq] at done
    have open' : task.isFinished = false := by
      by_contra ended
      simp [Life.canMove_of_isTerminal (by simpa [Task.isFinished] using ended)] at may
    exact done.2 ▸ modifyTask found (.setLife open' life)
  · simp only [pure_ok, Prod.mk.injEq] at done
    exact done.2 ▸ .refl st

theorem acquire {r : ResourceId} {granted : Except Deadlock Grant}
    (done : st.acquire r t = .ok (granted, st₁)) : Remains st st₁ := by
  obtain ⟨_, _, ⟨_, _, rfl⟩ | ⟨_, ⟨_, _, _, rfl⟩ | ⟨_, _, _, rfl⟩⟩⟩ := acquire_ok done
  · exact .of_tables rfl rfl
  · exact .refl st₁
  · have announced : Remains st (st.announceWait t (.resource r)) :=
      modifyTask_aside st t fun _ => ⟨rfl, rfl, id⟩
    have linked : Remains _ ((st.announceWait t (.resource r)).modifyTask t fun task =>
        { task with linked := true }) := modifyTask_aside _ t fun _ => ⟨rfl, rfl, id⟩
    exact (announced.trans linked).trans (.of_tables rfl rfl)

theorem release {r : ResourceId} (done : st.release r t = .ok st₁) : Remains st st₁ := by
  obtain ⟨_, _, ⟨_, rfl⟩ | ⟨next, rest, _, woken⟩⟩ := release_ok done
  · exact .of_tables rfl rfl
  · have handed : Remains st (st.handed next r rest) := by
      have given : Remains st (st.modifyResource r fun resource =>
        { resource with owner := some next, waiters := rest }) := .of_tables rfl rfl
      exact given.trans (modifyTask_aside _ next fun _ => ⟨rfl, rfl, id⟩)
    exact handed.trans (ready woken)

theorem waitFor {child : TaskId} {reply : Except Deadlock (Option (Outcome V))}
    (done : st.waitFor t child = .ok (reply, st₁)) : Remains st st₁ := by
  obtain ⟨awaited, _, ⟨_, _, rfl⟩ | ⟨_, ⟨_, _, _, rfl⟩ | ⟨_, _, rfl⟩⟩⟩ := waitFor_ok done
  · exact .refl st₁
  · exact .refl st₁
  · have announced : Remains st (st.announceWait t (.task child)) :=
      modifyTask_aside st t fun _ => ⟨rfl, rfl, id⟩
    exact announced.trans (modifyTask_aside _ child fun _ => ⟨rfl, rfl, id⟩)

theorem takeReady {next : Option TaskId} (done : st.takeReady s = .ok (next, st₁)) : Remains st st₁ := by
  obtain ⟨_, rfl⟩ | ⟨u, rest, _, _, _, rfl⟩ := takeReady_ok done
  · exact .refl st₁
  · apply trans (modifyScheduler st s (f := fun scheduler => { scheduler with ready := rest }) fun _ _ => rfl)
    exact modifyTask_aside _ u fun _ => ⟨rfl, rfl, id⟩

theorem beginRun {w : Worker} (done : st.beginRun t w = .ok st₁) : Remains st st₁ := by
  have known : ∃ task, st.tasks.get? t = some task := by
    simp only [State.beginRun, advance, bind_ok, task_ok] at done
    obtain ⟨_, ⟨task, found, _⟩, _⟩ := done
    exact ⟨task, found⟩
  obtain ⟨task, found⟩ := known
  obtain ⟨ready, rfl⟩ := beginRun_ok found done
  have open' : task.isFinished = false := by rw [Task.isFinished, ready]; rfl
  have begun : Remains st (st.setLife t .running) := modifyTask found (.setLife open' .running)
  exact begun.trans (modifyTask_aside _ t fun _ => ⟨rfl, rfl, id⟩)

theorem park (done : st.park t = .ok st₁) : Remains st st₁ := by
  obtain ⟨task, found⟩ := exists_of_task done
  obtain ⟨live, parked⟩ := park_ok found done
  have open' : task.isFinished = false := by rw [Task.isFinished, live]; rfl
  cases parked with
  | inl noticed => exact (modifyTask found (.setLife open' .ready)).trans (schedule noticed.2)
  | inr unnoticed => exact (modifyTask found (.setLife open' .waiting)).trans (adjust unnoticed.2.2 nofun)

end Remains

theorem Enrolled.remains (enrolled : st.Enrolled home) (remains : Remains st st₁) : st₁.Enrolled home := by
  have before : ∀ {t task₁}, st₁.tasks.get? t = some task₁ →
      ∃ task, st.tasks.get? t = some task ∧ task.Remains task₁ := by
    intro t task₁ found₁
    have related := remains.tasks t
    rw [found₁] at related
    generalize st.tasks.get? t = x at related
    cases related with
    | some same => exact ⟨_, rfl, same⟩
  refine ⟨fun found₁ => ?_, fun found₁ open' => ?_, ?_, fun {u} known => ?_⟩
  · obtain ⟨task, found, same⟩ := before found₁
    rw [same.scheduler, enrolled.home found]
  · obtain ⟨task, found, same⟩ := before found₁
    rw [same.listed]
    apply enrolled.listed found
    by_contra ended
    simp [same.finished (by simpa using ended)] at open'
  · obtain ⟨scheduler, known, counts⟩ := enrolled.known
    have same := remains.counts home
    rw [known] at same
    obtain ⟨scheduler₁, known₁, equal⟩ := Option.map_eq_some_iff.1 same
    refine ⟨scheduler₁, known₁, equal.trans (counts.trans ?_)⟩
    -- Each task weighs what it did.
    refine (Table.total_congr fun t => ?_).symm
    have related := remains.tasks t
    revert related
    generalize st.tasks.get? t = x, st₁.tasks.get? t = y
    intro related
    cases related with
    | none => rfl
    | some same => exact congrArg some (same.weight home)
  · apply enrolled.only
    have same := congrArg Option.isSome (remains.counts u)
    rw [Option.isSome_map, Option.isSome_map] at same
    exact same ▸ known

/-- A new task is on the list from the beginning. -/
theorem Enrolled.spawn [Inhabited V] (enrolled : st.Enrolled home) {entry : FrameId}
    {reply : Except HostError TaskId} (done : st.spawn s entry = .ok (reply, st₁)) : st₁.Enrolled home := by
  simp only [State.spawn, bind_ok, scheduler_ok] at done
  obtain ⟨scheduler, found, done⟩ := done
  obtain rfl := enrolled.only (by rw [found]; rfl)
  split at done
  · simp only [pure_ok, Prod.mk.injEq] at done
    exact done.2 ▸ enrolled
  · simp only [pure_ok, Prod.mk.injEq] at done
    obtain ⟨_, rfl⟩ := done
    have tasks : ∀ u, ((st.addTask s entry none).2.enlist s (st.addTask s entry none).1).tasks.get? u = _ :=
      get?_spawned s entry none
    refine ⟨fun {u task} here => ?_, fun {u task} here _ => ?_, ?_, fun {u} known => ?_⟩
    · rw [tasks] at here
      split at here
      · exact Option.some.inj here ▸ rfl
      · exact enrolled.home here
    · rw [tasks] at here
      split at here
      · exact Option.some.inj here ▸ rfl
      · next open' _ => exact enrolled.listed here open'
    · obtain ⟨scheduler', known, counts⟩ := enrolled.known
      obtain rfl := Option.some.inj (found.symm.trans known)
      refine ⟨{ scheduler with tasks := scheduler.tasks + 1 }, ?_, ?_⟩
      · simp only [State.enlist, get?_modifyScheduler, ↓reduceIte]
        exact congrArg (Option.map _) found
      · have new : ((st.tasks.add (.new s entry none)).modify st.tasks.next fun task =>
            { task with listed := true }).total (Task.weight s .tasks) = st.tally s .tasks + 1 := by
          rw [Table.total_modify (Table.get?_add_new ..), Table.total_add]
          simp [Task.weight, Task.counts, Task.new, State.tally]
        exact (congrArg (· + 1) counts).trans new.symm
    · apply enrolled.only
      rw [State.enlist, isSome_modifyScheduler] at known
      exact known

/-- A task that ended is struck off. -/
theorem Enrolled.finish [Inhabited V] (enrolled : st.Enrolled home) {result : Except (Error V) V}
    (done : st.finish t result = .ok st₁) : st₁.Enrolled home := by
  obtain ⟨task, found⟩ := exists_of_task done
  obtain ⟨live, st₂, woken, retired⟩ := finish_ok found done
  have open' : task.isFinished = false := by rw [Task.isFinished, live]; rfl
  have closed : Remains st (st.closed t result) := by
    have ended : Remains st (st.setLife t (finalLife result)) := .modifyTask found (.setLife open' _)
    exact ended.trans (.modifyTask_aside _ t fun _ => ⟨rfl, rfl, id⟩)
  -- The task is at its end, and on the list still, when those that joined it were told.
  have enrolled₂ := (enrolled.remains closed).remains (.readyAll woken)
  have before := (Remains.readyAll woken).tasks t
  rw [(becomes_closed found).self] at before
  simp only [State.retire, bind_ok, task_ok] at retired
  obtain ⟨task₂, found₂, st₃, counts, runnable⟩ := retired
  have remains : (task.closed t result).Remains task₂ := by
    rw [found₂] at before
    cases before with
    | some remains => exact remains
  have listed : task₂.listed = true := by
    have before := enrolled.listed found open'
    exact remains.listed.trans before
  have ended : task₂.isFinished = true := remains.finished (isTerminal_finalLife result)
  suffices struckOff : st₃.Enrolled home from struckOff.remains (.adjust runnable (by decide))
  obtain ⟨scheduler, known, _, rfl⟩ := adjust_ok.1 counts
  have here := enrolled₂.home found₂
  rw [here] at known ⊢
  have struck := becomes_modifyTask found₂ fun task => { task with listed := false }
  refine ⟨fun {u other} there => ?_, fun {u other} there open' => ?_, ?_, fun {u} known => ?_⟩
  · replace there := (struck u).symm.trans there
    split at there
    · exact Option.some.inj there ▸ here
    · exact enrolled₂.home there
  · replace there := (struck u).symm.trans there
    split at there
    · obtain rfl := Option.some.inj there
      simp [Task.isFinished] at ended open'
      simp [ended] at open'
    · exact enrolled₂.listed there open'
  · obtain ⟨scheduler', known', counted⟩ := enrolled₂.known
    obtain rfl := Option.some.inj (known'.symm.trans known)
    refine ⟨_, by rw [get?_modifyScheduler, if_pos rfl]; exact congrArg (Option.map _) known, ?_⟩
    have less := Table.total_modify found₂ (Task.weight home .tasks) fun task => { task with listed := false }
    have one : task₂.weight home .tasks = 1 := by simp [Task.weight, Task.counts, listed, here]
    have none' : Task.weight home .tasks { task₂ with listed := false } = 0 := by simp [Task.weight, Task.counts]
    rw [one, none'] at less
    exact (congrArg (· + -1) counted).trans less.symm
  · exact enrolled₂.only ((isSome_modifyScheduler _ _ _ u).symm.trans known)

/-- Requests that leave it at one scheduler, and give no task a thread of its own. -/
def Simple (_ : State V C) : Request V C → Prop
  | .spawnBound _ _ | .newScheduler _ _ | .stop _ => False
  | _ => True

section Steps

variable [Inhabited V]

theorem Enrolled.serve (enrolled : st.Enrolled home) {request : Request V C} {reply : request.Reply}
    (simple : st.Simple request) (done : st.serve request = .ok (reply, st₁)) : st₁.Enrolled home := by
  have bookless : request.bookless = true → st₁.Enrolled home := by
    intro bookless
    obtain ⟨tasks, schedulers, _⟩ := serve_bookless bookless done
    exact enrolled.remains (.of_tables tasks schedulers)
  cases request with
  | spawnBound | newScheduler | stop => exact simple.elim
  | spawn => exact enrolled.spawn done
  | start t =>
    simp only [State.serve, bind_ok, pure_ok, Prod.mk.injEq] at done
    obtain ⟨_, started, _, rfl⟩ := done
    exact enrolled.remains (.start started)
  | ready t =>
    simp only [State.serve, bind_ok, pure_ok, Prod.mk.injEq] at done
    obtain ⟨_, woken, _, rfl⟩ := done
    exact enrolled.remains (.ready woken)
  | yield t =>
    simp only [State.serve, State.yield, bind_ok, check_ok, pure_ok, Prod.mk.injEq] at done
    obtain ⟨_, ⟨_, _, _, rfl⟩, _, rfl⟩ := done
    exact enrolled.remains (.modifyTask_aside st t fun _ => ⟨rfl, rfl, id⟩)
  | waitExternal t =>
    simp only [State.serve, bind_ok, pure_ok, Prod.mk.injEq] at done
    obtain ⟨_, waits, _, rfl⟩ := done
    exact enrolled.remains (.waitExternal waits)
  | pause t f =>
    simp only [State.serve, bind_ok, pure_ok, Prod.mk.injEq] at done
    obtain ⟨_, paused, _, rfl⟩ := done
    exact enrolled.remains (.of_aside (.of_pause paused))
  | move => exact enrolled.remains (.move done)
  | waitFor => exact enrolled.remains (.waitFor done)
  | tryAcquire r t =>
    simp only [State.serve, State.tryAcquire, bind_ok] at done
    obtain ⟨_, _, _, _, done⟩ := done
    split at done
    · simp only [pure_ok, Prod.mk.injEq] at done
      exact done.2 ▸ enrolled.remains (.of_tables rfl rfl)
    · simp only [pure_ok, Prod.mk.injEq] at done
      exact done.2 ▸ enrolled
  | acquire => exact enrolled.remains (.acquire done)
  | release r t =>
    simp only [State.serve, bind_ok, pure_ok, Prod.mk.injEq] at done
    obtain ⟨_, released, _, rfl⟩ := done
    exact enrolled.remains (.release released)
  | task | newGuard | newJoin | newMessage | attach | frame | newResource | resource | findCycle | newExclusive
    | exclusive | setPayload | actorState | newRegistry | intern | lookup | nameOf | findNative | closeRegistry
    | registry | scheduler | stats | thread | newCell | read | write | update => exact bookless rfl

theorem Enrolled.deed (enrolled : st.Enrolled home) (deed : Deed Simple st st₁) : st₁.Enrolled home := by
  cases deed with
  | aside aside => exact enrolled.remains (.of_aside aside)
  | serve simple served => exact enrolled.serve simple served
  | acquire acquired => exact enrolled.remains (.acquire acquired)
  | release released => exact enrolled.remains (.release released)
  | waitFor waited => exact enrolled.remains (.waitFor waited)

end Steps

end State

/-- Whatever code does on a single scheduler, all tasks that are not at their ends stay on its list. -/
theorem Config.enrolled_of_step [Inhabited V] {c config : Config V C} {home : SchedulerId}
    (enrolled : c.state.Enrolled home)
    (simple : ∀ request next, c.focus = .code (.ask request next) → c.state.Simple request)
    (step : c.step = .ok config) : config.state.Enrolled home := by
  cases course_of_step simple step with
  | deeds deeds =>
    obtain ⟨st₁, st₂, earlier, deed, later⟩ := deeds
    exact ((enrolled.remains (.of_aside earlier)).deed deed).remains (.of_aside later)
  | begins taken begun =>
    cases taken with
    | inl taken =>
      obtain ⟨s, _, taken⟩ := taken
      exact (enrolled.remains (.takeReady taken)).remains (.beginRun begun)
    | inr own => exact enrolled.remains (.beginRun (own.2 ▸ begun))
  | parks aside parked => exact (enrolled.remains (.of_aside aside)).remains (.park parked)
  | finishes aside finished => exact (enrolled.remains (.of_aside aside)).finish finished

end Tasking
