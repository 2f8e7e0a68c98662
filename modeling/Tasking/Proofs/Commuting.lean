import Tasking.Proofs.Leaving

/-! # Wakes that come before the task is parked

A task announces what it waits for, and is parked a little later, when its frame has suspended.  Whoever
wakes it may come in between, and then finds it running: the wake is noted, and the task is not parked but
ready again.  `State.ready_park_comm` says that nobody can tell the difference.  Whether the wake comes before
the task is parked or after, the whole state is the same in the end, for each kind of wait and with each way
in which the wake comes: a resource that is handed on, a task that finishes, an event outside the scheduler.

Both orders lead through `State.roused`, in which the task is ready and is still to be handed to whoever runs
it.  The counters go through different values on the way, so they must be large enough to count the task,
which they are in every state that code can reach (`State.Kept.counts`).
-/

namespace Tasking

variable {V C : Type}

/-! ## Changes put together -/

namespace State

variable {st st' : State V C} {t : TaskId} {task : Task V}

theorem modifyTask_modifyTask (st : State V C) (t : TaskId) (f g : Task V → Task V) :
    (st.modifyTask t f).modifyTask t g = st.modifyTask t fun task => g (f task) :=
  congrArg (fun tasks => { st with tasks := tasks }) (st.tasks.modify_modify t f g)

theorem modifyTask_congr (found : st.tasks.get? t = some task) {f g : Task V → Task V}
    (same : f task = g task) : st.modifyTask t f = st.modifyTask t g :=
  congrArg (fun tasks => { st with tasks := tasks }) (Table.modify_congr found same)

theorem setLife_setLife (st : State V C) (t : TaskId) (first second : Life) :
    (st.setLife t first).setLife t second = st.setLife t second := modifyTask_modifyTask st t _ _

theorem modifyScheduler_modifyScheduler (st : State V C) (s : SchedulerId) (f g : Scheduler → Scheduler) :
    (st.modifyScheduler s f).modifyScheduler s g = st.modifyScheduler s fun scheduler => g (f scheduler) :=
  congrArg (fun schedulers => { st with schedulers := schedulers }) (st.schedulers.modify_modify s f g)

theorem modifyScheduler_congr {s : SchedulerId} {scheduler : Scheduler}
    (known : st.schedulers.get? s = some scheduler) {f g : Scheduler → Scheduler}
    (same : f scheduler = g scheduler) : st.modifyScheduler s f = st.modifyScheduler s g :=
  congrArg (fun schedulers => { st with schedulers := schedulers }) (Table.modify_congr known same)

theorem modifyScheduler_self {s : SchedulerId} {scheduler : Scheduler}
    (known : st.schedulers.get? s = some scheduler) {f : Scheduler → Scheduler} (same : f scheduler = scheduler) :
    st.modifyScheduler s f = st :=
  congrArg (fun schedulers => { st with schedulers := schedulers }) (Table.modify_self known same)

/-- A counter is changed that is large enough. -/
theorem adjust_eq {s : SchedulerId} {scheduler : Scheduler} {c : Counter} {change : Int}
    (f : Scheduler → Scheduler) (known : st.schedulers.get? s = some scheduler) (enough : 0 ≤ scheduler.count c + change)
    (changes : f scheduler = scheduler.withCount c (scheduler.count c + change)) :
    st.adjust s c change = .ok (st.modifyScheduler s f) :=
  adjust_ok.2 ⟨scheduler, known, enough, modifyScheduler_congr known changes⟩

theorem find_eq {kind : Kind} {α : Type} {table : Table kind α} {i : Id kind} {a : α}
    (found : table.get? i = some a) : st.find table i = .ok a := find_ok.2 found

/-! ## The two orders -/

/-- The counters of its scheduler are large enough to count a running task. -/
def Counts (st : State V C) (task : Task V) : Prop :=
  ∃ scheduler, st.schedulers.get? task.scheduler = some scheduler ∧ 0 < scheduler.runnable ∧
    (task.external = true → 0 < scheduler.external)

/-- Nobody waits for an event outside on behalf of the task any more. -/
def discounted (st : State V C) (task : Task V) : State V C :=
  if task.external then
    st.modifyScheduler task.scheduler fun scheduler => { scheduler with external := scheduler.external - 1 }
  else
    st

/-- The state in which a task that waited is ready, and is still to be handed to whoever runs it. -/
def roused (st : State V C) (t : TaskId) (task : Task V) : State V C :=
  (st.modifyTask t fun task =>
    { task with life := .ready, notified := false, waiting := none, external := false }).discounted task

theorem modifyTask_discounted (st : State V C) (t : TaskId) (f : Task V → Task V) (task : Task V) :
    (st.discounted task).modifyTask t f = (st.modifyTask t f).discounted task := by
  unfold discounted
  split <;> rfl

theorem tasks_discounted (st : State V C) (task : Task V) : (st.discounted task).tasks = st.tasks := by
  unfold discounted
  split <;> rfl

theorem schedulers_discounted (st : State V C) (task : Task V) (s : SchedulerId) :
    (st.discounted task).schedulers.get? s = (st.schedulers.get? s).map fun scheduler =>
      if s = task.scheduler then
        { scheduler with external := scheduler.external - if task.external then 1 else 0 }
      else scheduler := by
  unfold discounted
  split
  · rw [get?_modifyScheduler]
    split
    · next here => simp [here]
    · simp
  · simp

/-- A task that is counted may forget what it waits for. -/
theorem finishWait_eq (found : st.tasks.get? t = some task)
    (counts : ∃ scheduler, st.schedulers.get? task.scheduler = some scheduler ∧
      (task.external = true → 0 < scheduler.external)) :
    st.finishWait t = .ok ((st.modifyTask t fun task =>
      { task with waiting := none, external := false }).discounted task) := by
  obtain ⟨scheduler, known, counted⟩ := counts
  simp only [finishWait, State.task, find_eq found, bind, Except.bind, discounted]
  split
  · next outside =>
    have enough : 0 ≤ scheduler.count .external + -1 := by
      have positive := counted outside
      simp only [Scheduler.count]
      omega
    exact adjust_eq _ (show (st.modifyTask t _).schedulers.get? _ = _ from known) enough rfl
  · rfl

/-- A wake that finds the task running. -/
theorem ready_running (found : st.tasks.get? t = some task) (live : task.life = .running)
    (counts : st.Counts task) : st.ready t = .ok ((st.modifyTask t fun task =>
      { task with notified := true, waiting := none, external := false }).discounted task) := by
  obtain ⟨scheduler, known, _, counted⟩ := counts
  have noted : (st.modifyTask t fun task => { task with notified := true }).tasks.get? t =
      some { task with notified := true } := (becomes_modifyTask found _).self
  simp only [State.ready, State.task, find_eq found, bind, Except.bind, live]
  rw [finishWait_eq noted ⟨scheduler, known, counted⟩, modifyTask_modifyTask]
  rfl

/-- The wake comes first: the task is not parked. -/
theorem ready_park (found : st.tasks.get? t = some task) (live : task.life = .running)
    (counts : st.Counts task) : (st.ready t >>= (·.park t)) = (st.roused t task).schedule t := by
  have noted := (becomes_modifyTask found fun task =>
    { task with notified := true, waiting := none, external := false }).self
  rw [← tasks_discounted _ task] at noted
  rw [ready_running found live counts]
  simp only [bind, Except.bind, State.park, State.task, find_eq noted, live, ne_eq, not_true_eq_false, if_false,
    if_true]
  rw [setLife, modifyTask_discounted, modifyTask_modifyTask]
  rfl

/-- A task that arranged to wait is parked. -/
theorem park_eq (found : st.tasks.get? t = some task) (live : task.life = .running) (waits : task.waiting ≠ none)
    (unnoticed : task.notified = false) (counts : st.Counts task) :
    st.park t = .ok ((st.setLife t .waiting).modifyScheduler task.scheduler fun scheduler =>
      { scheduler with runnable := scheduler.runnable - 1 }) := by
  obtain ⟨scheduler, known, busy, _⟩ := counts
  have announced : task.waiting.isNone = false := by simpa [Option.isSome_iff_ne_none] using waits
  have enough : 0 ≤ scheduler.count .runnable + -1 := by
    simp only [Scheduler.count]
    omega
  simp only [State.park, State.task, find_eq found, bind, Except.bind, live, unnoticed, announced, ne_eq,
    not_true_eq_false, Bool.false_eq_true, if_false]
  exact adjust_eq _ (show (st.setLife t .waiting).schedulers.get? _ = _ from known) enough rfl

/-- The task is parked first, and the wake finds it so. -/
theorem park_ready (found : st.tasks.get? t = some task) (live : task.life = .running)
    (waits : task.waiting ≠ none) (unnoticed : task.notified = false) (counts : st.Counts task) :
    (st.park t >>= (·.ready t)) = (st.roused t task).schedule t := by
  rw [park_eq found live waits unnoticed counts]
  obtain ⟨scheduler, known, busy, counted⟩ := counts
  generalize parked : (st.setLife t .waiting).modifyScheduler task.scheduler (fun scheduler =>
    { scheduler with runnable := scheduler.runnable - 1 }) = st₁
  have found₁ : st₁.tasks.get? t = some { task with life := .waiting, notified := false } :=
    parked ▸ (becomes_modifyTask found _).self
  -- The counter goes up again to where it was.
  have raised : (st₁.setLife t .ready).adjust task.scheduler .runnable 1 = .ok (st.setLife t .ready) := by
    have known₁ : (st₁.setLife t .ready).schedulers.get? task.scheduler =
        some { scheduler with runnable := scheduler.runnable - 1 } := by
      rw [← parked]
      exact (Table.get?_modify_self _ _ _).trans (congrArg _ known)
    have enough : 0 ≤ Scheduler.count { scheduler with runnable := scheduler.runnable - 1 } .runnable + 1 := by
      simp only [Scheduler.count]
      omega
    refine (adjust_eq (fun scheduler => { scheduler with runnable := scheduler.runnable + 1 }) known₁ enough
      rfl).trans (congrArg Except.ok ?_)
    calc (st₁.setLife t .ready).modifyScheduler task.scheduler _
      _ = (((st.setLife t .waiting).setLife t .ready).modifyScheduler task.scheduler fun scheduler =>
            { scheduler with runnable := scheduler.runnable - 1 }).modifyScheduler task.scheduler fun scheduler =>
            { scheduler with runnable := scheduler.runnable + 1 } := by
        rw [← parked]
        rfl
      _ = st.setLife t .ready := by
        rw [setLife_setLife, modifyScheduler_modifyScheduler]
        refine @modifyScheduler_self _ _ (st.setLife t .ready) _ scheduler known _ ?_
        simp
  have found₂ : (st.setLife t .ready).tasks.get? t = some { task with life := .ready, notified := false } :=
    (becomes_modifyTask found _).self
  simp only [bind, Except.bind, State.ready, State.task, find_eq found₁, raised,
    finishWait_eq found₂ ⟨scheduler, known, counted⟩]
  rw [setLife, modifyTask_modifyTask]
  rfl

/-- A second wake finds the first one noted. -/
theorem ready_ready (found : st.tasks.get? t = some task) (live : task.life = .running)
    (counts : st.Counts task) : (st.ready t >>= (·.ready t)) = st.ready t := by
  have noted := (becomes_modifyTask found fun task =>
    { task with notified := true, waiting := none, external := false }).self
  rw [← tasks_discounted _ task] at noted
  have counts' : ((st.modifyTask t fun task =>
      { task with notified := true, waiting := none, external := false }).discounted task).Counts
      { task with notified := true, waiting := none, external := false } := by
    obtain ⟨scheduler, known, busy, _⟩ := counts
    refine ⟨_, (schedulers_discounted _ task task.scheduler).trans (congrArg _ known), ?_, by simp⟩
    simpa using busy
  rw [ready_running found live counts]
  simp only [bind, Except.bind]
  rw [ready_running noted live counts', modifyTask_discounted, modifyTask_modifyTask]
  rfl

/-! ## What becomes of the task -/

/-- What a wake has done once the task is out of its run.  The task is ready and waits for nothing, its scheduler
does not count it among those that wait for an event outside any more, it is at the end of the ready queue
unless it has a thread of its own, and nothing else changed. -/
structure Awakened (st : State V C) (t : TaskId) (task : Task V) (st' : State V C) : Prop where
  becomes : Becomes st t (Task.scheduled
    { task with life := .ready, notified := false, waiting := none, external := false }) st'
  schedulers : ∀ s, st'.schedulers.get? s = (st.schedulers.get? s).map fun scheduler =>
    if s = task.scheduler then
      { scheduler with
          external := scheduler.external - if task.external then 1 else 0
          ready := if task.bound.isSome then scheduler.ready else scheduler.ready.push t }
    else scheduler
  rest : { st' with tasks := st.tasks, schedulers := st.schedulers } = st

theorem schedulers_roused (st : State V C) (t : TaskId) (task : Task V) (s : SchedulerId) :
    (st.roused t task).schedulers.get? s = (st.schedulers.get? s).map fun scheduler =>
      if s = task.scheduler then
        { scheduler with external := scheduler.external - if task.external then 1 else 0 }
      else scheduler :=
  schedulers_discounted (st.modifyTask t _) task s

/-- A task that sits in no queue, or that has a thread of its own, goes on as soon as it is woken. -/
theorem exists_awakened (found : st.tasks.get? t = some task) (free : task.linked = false ∨ task.bound.isSome = true) :
    ∃ st', (st.roused t task).schedule t = .ok st' ∧ Awakened st t task st' := by
  have becomes := becomes_modifyTask found fun task =>
    { task with life := .ready, notified := false, waiting := none, external := false }
  replace becomes : Becomes st t _ (st.roused t task) := becomes.of_tasks (tasks_discounted _ task)
  cases bound : task.bound.isSome with
  | true =>
    have scheduled : (st.roused t task).schedule t = .ok (st.roused t task) := by
      simp only [schedule, State.task, find_eq becomes.self, bind, Except.bind, bound, if_true]
      rfl
    refine ⟨_, scheduled, becomes.trans (becomes_schedule becomes.self scheduled), fun s => ?_, ?_⟩
    · simpa only [bound, if_true] using schedulers_roused st t task s
    · unfold roused discounted
      split <;> rfl
  | false =>
    have unlinked : task.linked = false := free.resolve_right (by simp [bound])
    have scheduled : (st.roused t task).schedule t = .ok ((st.roused t task).enqueued t task.scheduler) := by
      simp only [schedule, claimLink, State.task, find_eq becomes.self, bind, Except.bind, bound, unlinked,
        Bool.false_eq_true, if_false]
      rfl
    refine ⟨_, scheduled, becomes.trans (becomes_schedule becomes.self scheduled), fun s => ?_, ?_⟩
    · refine (get?_modifyScheduler _ task.scheduler s _).trans ?_
      change (if s = task.scheduler then ((st.roused t task).schedulers.get? _).map _ else
        (st.roused t task).schedulers.get? s) = _
      rw [schedulers_roused, schedulers_roused]
      split
      · next here =>
        rw [here, Option.map_map]
        simp [Function.comp_def, bound]
      · simp
    · unfold enqueued roused discounted
      split <;> rfl

/-! ## A resource that is handed on -/

section

variable {r : ResourceId} {u : TaskId} {resource : Resource} {rest : Line TaskId}

theorem release_eq (known : st.resources.get? r = some resource) (owns : resource.owner = some u)
    (line : resource.waiters.pop? = some (t, rest)) : st.release r u = (st.handed t r rest).ready t := by
  simp only [State.release, State.resource, find_eq known, bind, Except.bind, owns, line, ne_eq, not_true_eq_false,
    if_false]
  rfl

theorem setLife_handed (st : State V C) (t : TaskId) (r : ResourceId) (rest : Line TaskId) (life : Life) :
    (st.handed t r rest).setLife t life = (st.setLife t life).handed t r rest := by
  have apart : ∀ f g, (st.modifyTask t f).modifyResource r g = (st.modifyResource r g).modifyTask t f :=
    fun _ _ => rfl
  simp only [handed, dropLink, setLife, apart, modifyTask_modifyTask]

/-- Whoever waits longest is parked in the same way before it is handed the resource and after. -/
theorem park_handed (found : st.tasks.get? t = some task) (live : task.life = .running) (waits : task.waiting ≠ none)
    (unnoticed : task.notified = false) (counts : st.Counts task) :
    (st.handed t r rest).park t = (st.park t).map fun st => st.handed t r rest := by
  have found' : (st.handed t r rest).tasks.get? t = some { task with linked := false } :=
    (becomes_modifyTask found fun task => { task with linked := false }).self
  rw [park_eq found live waits unnoticed counts,
    @park_eq _ _ (st.handed t r rest) t { task with linked := false } found' live waits unnoticed counts]
  refine congrArg Except.ok ?_
  rw [setLife_handed]
  rfl

/-- A task that waits for a resource is parked before the resource is handed to it, or after. -/
theorem release_park (known : st.resources.get? r = some resource) (owns : resource.owner = some u)
    (line : resource.waiters.pop? = some (t, rest)) (found : st.tasks.get? t = some task)
    (live : task.life = .running) (waits : task.waiting ≠ none) (unnoticed : task.notified = false)
    (counts : st.Counts task) :
    ∃ st', (st.release r u >>= (·.park t)) = .ok st' ∧ (st.park t >>= (·.release r u)) = .ok st' ∧
      Awakened (st.handed t r rest) t { task with linked := false } st' := by
  have found' : (st.handed t r rest).tasks.get? t = some { task with linked := false } :=
    (becomes_modifyTask found fun task => { task with linked := false }).self
  have counts' : (st.handed t r rest).Counts { task with linked := false } := counts
  obtain ⟨st', scheduled, roused⟩ := exists_awakened found' (.inl rfl)
  have parked := park_eq found live waits unnoticed counts
  refine ⟨st', ?_, ?_, roused⟩
  · rw [release_eq known owns line, ready_park found' live counts', scheduled]
  · rw [← scheduled, ← park_ready found' live waits unnoticed counts', park_handed found live waits unnoticed counts,
      parked]
    exact release_eq (show (modifyScheduler _ _ _).resources.get? r = _ from known) owns line

end

/-- The counters of a scheduler count every task of it that runs. -/
theorem Kept.counts (kept : st.Kept) (found : st.tasks.get? t = some task) (live : task.life = .running) :
    st.Counts task := by
  obtain ⟨scheduler, known⟩ := Option.isSome_iff_exists.1 (kept.known found)
  have positive : ∀ c, task.counts c = true → 0 < scheduler.count c := fun c counted => by
    have exact' := kept.counted _ _ known c
    rw [tally_eq_population, Int.add_zero] at exact'
    have somebody : st.population task.scheduler (fun task => task.counts c) ≠ 0 := fun nobody => by
      simp [population_eq_zero.1 nobody found rfl] at counted
    omega
  exact ⟨scheduler, known, positive .runnable (by simp [Task.counts, live]), positive .external⟩

end State

namespace Crew

open State

variable [Inhabited V]

/-- A task that runs, has arranged to wait and was not woken yet may be woken and then parked, or parked and then
woken: the whole state is the same in the end, and if one order meets a fault then the other meets the same
one.  Neither does if the task sits in no queue, or has a thread of its own.  A second wake before the task is
parked changes nothing.  It makes no difference either whether the resource that the task waits for is handed
on to it, which wakes it, before it is parked or after.

That the counters count the task is true in every state that code can reach which forges nothing. -/
theorem ready_park_comm :
    (∀ {st : State V C} {t task}, st.tasks.get? t = some task → task.life = .running → task.waiting ≠ none →
      task.notified = false → st.Counts task →
      (st.ready t >>= (·.park t)) = (st.park t >>= (·.ready t)) ∧
      (st.ready t >>= (·.ready t)) = st.ready t ∧
      (task.linked = false ∨ task.bound.isSome = true →
        ∃ st', (st.park t >>= (·.ready t)) = .ok st' ∧ st.Awakened t task st') ∧
      (∀ {r resource u rest}, st.resources.get? r = some resource → resource.owner = some u →
        resource.waiters.pop? = some (t, rest) → ∃ st', (st.release r u >>= (·.park t)) = .ok st' ∧
          (st.park t >>= (·.release r u)) = .ok st' ∧
          (st.handed t r rest).Awakened t { task with linked := false } st')) ∧
    ∀ (run : Run V C Unforged) {i t task}, i ≤ run.length → (run.crew i).state.tasks.get? t = some task →
      task.life = .running → (run.crew i).state.Counts task := by
  refine ⟨fun {st t task} found live waits unnoticed counts => ?_, fun run {i t task} bound found live => ?_⟩
  · have parkedFirst := park_ready found live waits unnoticed counts
    refine ⟨(ready_park found live counts).trans parkedFirst.symm, ready_ready found live counts, fun free => ?_,
      fun known owns line => release_park known owns line found live waits unnoticed counts⟩
    rw [parkedFirst]
    exact exists_awakened found free
  · exact (run.kept i bound).counts found live

/-! ### A resource is handed on before its next owner is parked -/

/-- A task owns a resource, and another one asks for it. -/
def handover : Program Unit Empty :=
  .ask .newRegistry fun g =>
  .ask (.newScheduler .manual g) fun
    | .error _ => .answer .suspended
    | .ok s => .ask (.newResource none) fun r =>
      .newFrame "asks" (fun context _ _ => .ask (.acquire r context.task) fun _ => .answer .suspended) fun entry =>
      .ask (.spawn s entry) fun
      | .error _ => .answer .suspended
      | .ok owner => .ask (.acquire r owner) fun _ => .ask (.spawn s entry) fun
        | .error _ => .answer .suspended
        | .ok t => .ask (.start t) fun _ => .drive s fun _ => .answer (.done ())

/-- The host of the two tasks after so many steps. -/
def handoverHost (n : Nat) : Config Unit Empty := (Config.start (.initial 1) handover).after n

theorem handover_ok : ∀ n < 12, (handoverHost n).step.isOk = true := by decide +kernel

theorem handover_unforged : ∀ n < 12, Unforged (handoverHost n).alone (handoverHost n).agent := by
  intro n bound
  interval_cases n
  case «7» =>
    intro task found
    have listed : ((handoverHost 7).state.tasks.get? ⟨2⟩).all Task.listed = true := by decide +kernel
    rwa [show (handoverHost 7).state.tasks.get? ⟨2⟩ = some task from found] at listed
  all_goals trivial

def handoverRun : Run Unit Empty Unforged := .ofHost 1 handover 12 handover_ok handover_unforged

/-- The second task has asked for the resource and is still running.  A wake by hand meets the same fault in both
orders, as the task sits in line. -/
theorem handover_comm : ∃ task st', (handoverRun.crew 13).state.tasks.get? ⟨2⟩ = some task ∧
    task.waiting = some (.resource ⟨1⟩) ∧
    ((handoverRun.crew 13).state.ready ⟨2⟩ >>= (·.park ⟨2⟩)) =
      ((handoverRun.crew 13).state.park ⟨2⟩ >>= (·.ready ⟨2⟩)) ∧
    ((handoverRun.crew 13).state.release ⟨1⟩ ⟨1⟩ >>= (·.park ⟨2⟩)) = .ok st' ∧
    ((handoverRun.crew 13).state.park ⟨2⟩ >>= (·.release ⟨1⟩ ⟨1⟩)) = .ok st' ∧ st'.life ⟨2⟩ = some .ready := by
  have books : ((handoverRun.crew 13).state.tasks.get? ⟨2⟩).map
      (fun task => (task.life, task.waiting, task.notified)) = some (.running, some (.resource ⟨1⟩), false) := by
    decide +kernel
  obtain ⟨task, found, books⟩ := Option.map_eq_some_iff.1 books
  simp only [Prod.mk.injEq] at books
  obtain ⟨live, waits, unnoticed⟩ := books
  have line : ((handoverRun.crew 13).state.resources.get? ⟨1⟩).map
      (fun resource => (resource.owner, resource.waiters.pop?)) = some (some ⟨1⟩, some (⟨2⟩, .empty)) := by
    decide +kernel
  obtain ⟨resource, known, line⟩ := Option.map_eq_some_iff.1 line
  obtain ⟨owns, line⟩ := Prod.mk.inj line
  obtain ⟨commute, count⟩ := @ready_park_comm Unit Empty _
  have counts := count handoverRun (show 13 ≤ 13 by decide) found live
  obtain ⟨same, _, _, handed⟩ := commute found live (by simp [waits]) unnoticed counts
  obtain ⟨st', before, after, awakened⟩ := handed known owns line
  refine ⟨task, st', found, waits, same, before, after, ?_⟩
  simp [State.life, awakened.becomes.self, Task.scheduled]

end Crew

end Tasking
