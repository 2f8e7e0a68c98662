import Mathlib.Data.List.Destutter
import Tasking.Proofs.Cancelling
import Tasking.Proofs.Direct
import Tasking.Proofs.Unshared

/-! # The life of a task

The stage that a task is in is kept in one place, its outcome, the worker that runs it, the mark of a wake and its
chain in others.  They agree at every moment, whatever code does (`Crew.Run.lives_once`): the stages that a task
goes through are a path through the table, the last one is never left, and the outcome is there from then on and
stays as it is.

The chain is an exception.  A task loses it at its end, but an unwind of a task that was not started yet can go on
while one of the frames that it cancels starts the task and drives it to its end, and then puts the task on its
target (`Crew.revival_revived`).  It is the only way: a task at its end without such an unwind has no chain.

Code does little to a stage: it may start a task, or wake it (`Task.Yields`).  All else is done by those who run
tasks (`Task.Advances`).
-/

namespace Tasking

variable {V C : Type}

namespace Task

variable {t : TaskId} {task task' task'' : Task V} {late : Prop}

/-- What is kept of a task agrees with the stage that it is in. -/
structure Agrees (t : TaskId) (task : Task V) : Prop where
  outcome : task.outcome.isSome = true ↔ task.isFinished = true
  done : (∃ value, task.outcome = some (.done value)) ↔ task.life = .done
  failed : (∃ error, task.outcome = some (.failed ⟨t, error⟩)) ↔ task.life = .failed
  worker : task.worker.isSome = true ↔ task.life = .running
  notified : task.notified = true → task.life = .running
  top : task.isFinished = false → task.top ≠ none

/-- What code makes of a task.  If it does so late, it may put a task on a chain that is at its end. -/
structure Yields (late : Prop) (task task' : Task V) : Prop where
  life : task'.life = task.life ∨ (task.life = .init ∨ task.life = .waiting) ∧ task'.life = .ready
  outcome : task'.outcome = task.outcome
  worker : task'.worker = task.worker
  notified : (task.notified = true → task.life = .running) → task'.notified = true → task'.life = .running
  top : task.top ≠ none → task'.top ≠ none
  still : task.isFinished = true → ¬ late → task'.top = task.top

/-- What a step makes of a task. -/
structure Advances (late : Prop) (t : TaskId) (task task' : Task V) : Prop where
  life : task'.life = task.life ∨ task.life.canMove task'.life = true
  agrees : task.Agrees t → task'.Agrees t
  outcome : task.isFinished = true → task'.outcome = task.outcome
  still : task.isFinished = true → ¬ late → task'.top = task.top
  ends : task.isFinished = false → task'.isFinished = true → task'.top = none

namespace Yields

/-- Code changes what has to do with the stage in no way. -/
theorem of_same (same : (task'.life, task'.outcome, task'.worker, task'.notified, task'.top) =
    (task.life, task.outcome, task.worker, task.notified, task.top)) : Yields late task task' := by
  simp only [Prod.mk.injEq] at same
  obtain ⟨life, outcome, worker, notified, top⟩ := same
  exact ⟨.inl life, outcome, worker, fun live marked => life.trans (live (notified ▸ marked)), fun begun => top ▸ begun,
    fun _ _ => top⟩

@[refl] theorem refl (task : Task V) : Yields late task task := .of_same rfl

theorem isFinished (yields : Yields late task task') : task'.isFinished = task.isFinished := by
  unfold Task.isFinished
  obtain same | ⟨new | parked, ready⟩ := yields.life
  · rw [same]
  · rw [new, ready]; rfl
  · rw [parked, ready]; rfl

theorem trans (first : Yields late task task') (second : Yields late task' task'') : Yields late task task'' where
  life := by
    obtain same | ⟨idle, ready⟩ := first.life
    · rw [← same]
      exact second.life
    · -- A task that was made ready by code stays so.
      obtain same | ⟨new | parked, _⟩ := second.life
      · exact .inr ⟨idle, same.trans ready⟩
      · simp [ready] at new
      · simp [ready] at parked
  outcome := second.outcome.trans first.outcome
  worker := second.worker.trans first.worker
  notified agrees := second.notified (first.notified agrees)
  top begun := second.top (first.top begun)
  still ended intime := (second.still (first.isFinished.trans ended) intime).trans (first.still ended intime)

theorem agrees (yields : Yields late task task') (agrees : task.Agrees t) : task'.Agrees t := by
  have ended := yields.isFinished
  have kept {life : Life} (terminal : life.isTerminal = true) : task'.life = life ↔ task.life = life := by
    obtain same | ⟨new | parked, ready⟩ := yields.life
    · rw [same]
    · rw [new, ready]
      cases terminal' : life <;> simp_all [Life.isTerminal]
    · rw [parked, ready]
      cases terminal' : life <;> simp_all [Life.isTerminal]
  constructor
  · rw [yields.outcome, agrees.outcome, ended]
  · rw [yields.outcome, agrees.done, kept rfl]
  · rw [yields.outcome, agrees.failed, kept rfl]
  · rw [yields.worker, agrees.worker]
    obtain same | ⟨new | parked, ready⟩ := yields.life
    · rw [same]
    · simp [new, ready]
    · simp [parked, ready]
  · exact yields.notified agrees.notified
  · exact fun unended => yields.top (agrees.top (ended ▸ unended))

theorem advances (yields : Yields late task task') : Advances late t task task' where
  life := yields.life.imp id fun moved => by
    obtain ⟨new | parked, ready⟩ := moved
    · rw [new, ready]; rfl
    · rw [parked, ready]; rfl
  agrees := yields.agrees
  outcome _ := yields.outcome
  still := yields.still
  ends unended ended := by simp [yields.isFinished, unended] at ended

/-- A task that is woken. -/
theorem woken (live : task.life = .waiting ∨ task.life = .running) : Yields late task task.woken := by
  unfold Task.woken
  obtain parked | running := live
  · rw [if_pos parked]
    refine ⟨.inr ⟨.inr parked, rfl⟩, rfl, rfl, fun _ marked => ?_, id, fun _ _ => rfl⟩
    cases marked
  · rw [if_neg (by simp [running])]
    exact ⟨.inl rfl, rfl, rfl, fun _ _ => running, id, fun _ _ => rfl⟩

end Yields

/-- Whatever code does to a task in the same step after it came to its end, it leaves it there. -/
theorem Advances.later (advances : Advances late t task task') (ended : task'.isFinished = true) (intime : ¬ late)
    (yields : Yields late task' task'') : Advances late t task task'' where
  life := by
    obtain same | ⟨idle, _⟩ := yields.life
    · exact same ▸ advances.life
    · obtain new | parked := idle
      · simp [Task.isFinished, new, Life.isTerminal] at ended
      · simp [Task.isFinished, parked, Life.isTerminal] at ended
  agrees agrees := yields.agrees (advances.agrees agrees)
  outcome before := yields.outcome.trans (advances.outcome before)
  still before _ := (yields.still ended intime).trans (advances.still before intime)
  ends before _ := (yields.still ended intime).trans (advances.ends before ended)

/-! ### Runs begin and end -/

/-- Before its end, a task moves along the table and comes to agree with its next stage. -/
theorem Advances.of_unended (unended : task.isFinished = false) (moves : task.life.canMove task'.life = true)
    (agrees : task.Agrees t → task'.Agrees t) (ends : task'.isFinished = true → task'.top = none) :
    Advances late t task task' where
  life := .inr moves
  agrees := agrees
  outcome ended := by simp [unended] at ended
  still ended := by simp [unended] at ended
  ends _ := ends

theorem advances_beginRun (ready : task.life = .ready) (w : Worker) {linked : Bool} : Advances late t task
    { task with linked := linked, life := .running, notified := false, worker := some w } := by
  have unended : task.isFinished = false := by simp [Task.isFinished, ready, Life.isTerminal]
  refine .of_unended unended (by rw [ready]; rfl) (fun agrees => ?_) fun ended => ?_
  · have outcome : task.outcome = none := by simpa [unended] using agrees.outcome
    constructor
    · simp [outcome, Task.isFinished, Life.isTerminal]
    · simp [outcome]
    · simp [outcome]
    · simp
    · simp
    · exact fun _ => agrees.top unended
  · simp [Task.isFinished, Life.isTerminal] at ended

/-- A run that was left is over for now: nobody runs the task, and no wake is pending. -/
theorem advances_park (running : task.life = .running) :
    Advances late t task ({ task with worker := none } : Task V).parked := by
  have unended : task.isFinished = false := by simp [Task.isFinished, running, Life.isTerminal]
  -- Whether the task was woken decides about its next stage, and about nothing else here.
  obtain ⟨task', parked, life, outcome, top, worker, notified⟩ : ∃ task',
      ({ task with worker := none } : Task V).parked = task' ∧ (task'.life = .ready ∨ task'.life = .waiting) ∧
        task'.outcome = task.outcome ∧ task'.top = task.top ∧ task'.worker = none ∧ task'.notified = false := by
    unfold Task.parked
    split
    · exact ⟨_, rfl, .inl rfl, rfl, rfl, rfl, rfl⟩
    · exact ⟨_, rfl, .inr rfl, rfl, rfl, rfl, rfl⟩
  rw [parked]
  have unended' : task'.isFinished = false := by
    obtain ready | waiting := life
    · simp [Task.isFinished, ready, Life.isTerminal]
    · simp [Task.isFinished, waiting, Life.isTerminal]
  refine .of_unended unended ?_ (fun agrees => ?_) fun ended => ?_
  · obtain ready | waiting := life
    · rw [running, ready]; rfl
    · rw [running, waiting]; rfl
  · have none : task'.outcome = none := by simpa [outcome, unended] using agrees.outcome
    obtain ready | waiting := life
    · exact ⟨by simp [none, unended'], by simp [none, ready], by simp [none, ready], by simp [worker, ready],
        by simp [notified], fun _ => top ▸ agrees.top unended⟩
    · exact ⟨by simp [none, unended'], by simp [none, waiting], by simp [none, waiting], by simp [worker, waiting],
        by simp [notified], fun _ => top ▸ agrees.top unended⟩
  · simp [unended'] at ended

theorem advances_closed [Inhabited V] (running : task.life = .running) (result : Except (Error V) V) :
    Advances late t task (({ task with top := none, worker := none } : Task V).closed t result) := by
  have unended : task.isFinished = false := by simp [Task.isFinished, running, Life.isTerminal]
  refine .of_unended unended ?_ (fun _ => ?_) fun _ => rfl
  · rw [running]
    cases result <;> rfl
  · constructor <;> cases result <;>
      simp [Task.closed, State.outcomeOf, State.finalLife, Task.isFinished, Life.isTerminal]

/-- A new task agrees with its stage. -/
theorem agrees_new [Inhabited V] (t : TaskId) (s : SchedulerId) (entry : FrameId) (own : Option Nat) :
    (Task.new s entry own : Task V).Agrees t := by
  constructor <;> simp [Task.new, Task.isFinished, Life.isTerminal]

end Task

namespace State

variable {st st' st'' : State V C} {late : TaskId → Prop} {t : TaskId} {task task' : Task V}

/-- What code makes of tasks.  Those that it creates are such that it could have made them of new ones. -/
structure Yields [Inhabited V] (late : TaskId → Prop) (st st' : State V C) : Prop where
  old : ∀ {t task}, st.tasks.get? t = some task → ∃ task', st'.tasks.get? t = some task' ∧
    Task.Yields (late t) task task'
  new : ∀ {t task'}, st.tasks.get? t = none → st'.tasks.get? t = some task' →
    ∃ s entry own, Task.Yields (late t) (.new s entry own) task'

/-- What a step makes of tasks. -/
structure Advances [Inhabited V] (late : TaskId → Prop) (st st' : State V C) : Prop where
  old : ∀ {t task}, st.tasks.get? t = some task → ∃ task', st'.tasks.get? t = some task' ∧
    Task.Advances (late t) t task task'
  new : ∀ {t task'}, st.tasks.get? t = none → st'.tasks.get? t = some task' →
    task'.Agrees t ∧ (task'.life = .init ∨ task'.life = .ready)

/-- What code may ask for: it moves no task by hand from one stage to another, and puts no task on a frame that is at
its end. -/
def Lawful (st : State V C) : Request V C → Prop
  | .move _ _ => False
  | .pause t _ => st.isOver t = false
  | _ => True

variable [Inhabited V]

namespace Yields

theorem of_tasks (same : st'.tasks = st.tasks) : Yields late st st' where
  old found := ⟨_, same ▸ found, .refl _⟩
  new gone found := by simp [same, gone] at found

@[refl] theorem refl (st : State V C) : Yields late st st := .of_tasks rfl

theorem trans (first : Yields late st st') (second : Yields late st' st'') : Yields late st st'' where
  old {t task} found := by
    obtain ⟨task', found', earlier⟩ := first.old found
    obtain ⟨task'', found'', later⟩ := second.old found'
    exact ⟨task'', found'', earlier.trans later⟩
  new {t task''} gone found'' := by
    cases found' : st'.tasks.get? t with
    | none => exact second.new found' found''
    | some task' =>
      obtain ⟨s, entry, own, earlier⟩ := first.new gone found'
      obtain ⟨_, same, later⟩ := second.old found'
      obtain rfl := Option.some.inj (found''.symm.trans same)
      exact ⟨s, entry, own, earlier.trans later⟩

theorem change (found : st.tasks.get? t = some task) (becomes : Becomes st t task' st')
    (yields : Task.Yields (late t) task task') : Yields late st st' where
  old {u other} found' := by
    by_cases here : u = t
    · subst here
      obtain rfl := Option.some.inj (found.symm.trans found')
      exact ⟨task', becomes.self, yields⟩
    · exact ⟨other, (becomes.other here).trans found', .refl _⟩
  new {u other} gone found' := by
    rw [becomes] at found'
    split at found'
    · next here => simp [here, found] at gone
    · simp [gone] at found'

theorem modifyTask (st : State V C) (t : TaskId) {f : Task V → Task V}
    (yields : ∀ task, st.tasks.get? t = some task → Task.Yields (late t) task (f task)) :
    Yields late st (st.modifyTask t f) := by
  cases found : st.tasks.get? t with
  | some task => exact .change found (becomes_modifyTask found f) (yields task found)
  | none =>
    refine ⟨fun {u task} found' => ?_, fun {u task} gone found' => ?_⟩
    · have other : u ≠ t := by
        rintro rfl
        simp [found] at found'
      exact ⟨task, by rw [get?_modifyTask, if_neg other, found'], .refl _⟩
    · rw [get?_modifyTask] at found'
      split at found'
      · simp [found] at found'
      · simp [gone] at found'

theorem isOver (yields : Yields late st st') (t : TaskId) : st'.isOver t = st.isOver t := by
  unfold State.isOver
  cases found : st.tasks.get? t with
  | some task =>
    obtain ⟨task', found', yields⟩ := yields.old found
    simp [found', yields.isFinished]
  | none =>
    cases found' : st'.tasks.get? t with
    | none => rfl
    | some task' =>
      obtain ⟨s, entry, own, yields⟩ := yields.new found found'
      exact yields.isFinished

/-! ### Operations -/

theorem ready (done : st.ready t = .ok st') : Yields late st st' := by
  obtain ⟨task, found⟩ := exists_of_task done
  have live : task.life = .waiting ∨ task.life = .running := by
    obtain ⟨parked, _⟩ | ⟨running, _⟩ := ready_ok found done
    · exact .inl parked
    · exact .inr running
  exact .change found (becomes_ready found done) (.woken live)

theorem readyAll {ts : List TaskId} (done : st.readyAll ts = .ok st') : Yields late st st' := by
  induction ts generalizing st with
  | nil => exact pure_ok.1 done ▸ .refl st
  | cons t ts inductionHypothesis =>
    simp only [State.readyAll, bind_ok] at done
    obtain ⟨st₁, woken, later⟩ := done
    exact (ready woken).trans (inductionHypothesis later)

theorem start (done : st.start t = .ok st') : Yields late st st' := by
  obtain ⟨task, found⟩ := exists_of_task done
  obtain ⟨new, _⟩ := start_ok found done
  refine .change found (becomes_start found done) ⟨.inr ⟨.inl new, rfl⟩, rfl, rfl, fun _ => ?_, id, fun _ _ => rfl⟩
  intro marked
  cases marked

theorem waitExternal (done : st.waitExternal t = .ok st') : Yields late st st' := by
  obtain ⟨task, found⟩ := exists_of_task done
  exact .change found (becomes_waitExternal found done) (.of_same rfl)

theorem yield (done : st.yield t = .ok st') : Yields late st st' := by
  simp only [State.yield, bind_ok, task_ok, check_ok, pure_ok] at done
  obtain ⟨task, found, live, rfl⟩ := done
  have running : task.life = .running := by simpa using live
  exact .change found (becomes_modifyTask found _) ⟨.inl rfl, rfl, rfl, fun _ _ => running, id, fun _ _ => rfl⟩

theorem dropLinks (st : State V C) (ts : List TaskId) : Yields late st (st.dropLinks ts) := by
  induction ts generalizing st with
  | nil => exact .refl st
  | cons t ts inductionHypothesis =>
    have dropped : Yields late st (st.dropLink t) := .modifyTask st t fun _ _ => .of_same rfl
    exact dropped.trans (inductionHypothesis _)

theorem stop {s : SchedulerId} (done : st.stop s = .ok st') : Yields late st st' := by
  simp only [State.stop, bind_ok, scheduler_ok, pure_ok] at done
  obtain ⟨scheduler, _, rfl⟩ := done
  have closed : Yields late st (st.modifyScheduler s fun s => { s with isShutDown := true, ready := .empty }) :=
    .of_tasks rfl
  exact closed.trans (dropLinks _ _)

theorem inLine (st : State V C) (t : TaskId) (r : ResourceId) : Yields late st (st.inLine t r) := by
  have linked : Yields late st (st.modifyTask t fun task => { task with linked := true }) :=
    .modifyTask st t fun _ _ => .of_same rfl
  exact linked.trans (.of_tasks rfl)

theorem acquire {r : ResourceId} {granted : Except Deadlock Grant} (done : st.acquire r t = .ok (granted, st')) :
    Yields late st st' := by
  obtain ⟨_, _, ⟨_, _, rfl⟩ | ⟨_, ⟨_, _, _, rfl⟩ | ⟨_, _, _, rfl⟩⟩⟩ := acquire_ok done
  · exact .of_tasks rfl
  · exact .refl _
  · have announced : Yields late st (st.announceWait t (.resource r)) := .modifyTask st t fun _ _ => .of_same rfl
    exact announced.trans (inLine _ t r)

theorem release {r : ResourceId} (done : st.release r t = .ok st') : Yields late st st' := by
  obtain ⟨_, _, ⟨_, rfl⟩ | ⟨next, rest, _, woken⟩⟩ := release_ok done
  · exact .of_tasks rfl
  · have given : Yields late st (st.modifyResource r fun resource =>
        { resource with owner := some next, waiters := rest }) := .of_tasks rfl
    have dropped : Yields late _ (st.handed next r rest) := .modifyTask _ next fun _ _ => .of_same rfl
    exact (given.trans dropped).trans (ready woken)

theorem waitFor {child : TaskId} {reply : Except Deadlock (Option (Outcome V))}
    (done : st.waitFor t child = .ok (reply, st')) : Yields late st st' := by
  obtain ⟨_, _, ⟨_, _, rfl⟩ | ⟨_, ⟨_, _, _, rfl⟩ | ⟨_, _, rfl⟩⟩⟩ := waitFor_ok done
  · exact .refl _
  · exact .refl _
  · have announced : Yields late st (st.announceWait t (.task child)) := .modifyTask st t fun _ _ => .of_same rfl
    exact announced.trans (.modifyTask _ child fun _ _ => .of_same rfl)

/-- A task is put on a frame, before its end or late. -/
theorem onFrame (may : st.isOver t = false ∨ late t) {f : Task V → Task V}
    (same : ∀ task, ((f task).life, (f task).outcome, (f task).worker, (f task).notified) =
      (task.life, task.outcome, task.worker, task.notified)) (begins : ∀ task, (f task).top ≠ none) :
    Yields late st (st.modifyTask t f) := by
  refine .modifyTask st t fun task found => ?_
  have kept := same task
  simp only [Prod.mk.injEq] at kept
  obtain ⟨life, outcome, worker, notified⟩ := kept
  refine ⟨.inl life, outcome, worker, fun live marked => life.trans (live (notified ▸ marked)),
    fun _ => begins task, fun ended intime => ?_⟩
  obtain going | late := may
  · simp [State.isOver, found, ended] at going
  · exact absurd late intime

theorem pause {f : FrameId} (going : st.isOver t = false) (done : st.pause t f = .ok st') : Yields late st st' := by
  obtain ⟨_, rfl⟩ := pause_ok done
  exact onFrame (.inl going) (fun _ => rfl) fun _ => by simp

theorem spawned (s : SchedulerId) (entry : FrameId) (own : Option Nat) :
    Yields late st (st.addTask s entry own).2 where
  old {t task} found := by
    refine ⟨task, ?_, .refl _⟩
    rw [State.addTask, Table.get?_add_eq, if_neg (Table.ne_next_of_get? found), found]
  new {t task'} gone found := by
    rw [State.addTask, Table.get?_add_eq] at found
    split at found
    · exact ⟨s, entry, own, Option.some.inj found ▸ .refl _⟩
    · simp [gone] at found

theorem enlist (st : State V C) (s : SchedulerId) (t : TaskId) : Yields late st (st.enlist s t) := by
  have listed : Yields late st (st.modifyTask t fun task => { task with listed := true }) :=
    .modifyTask st t fun _ _ => .of_same rfl
  exact listed.trans (.of_tasks rfl)

theorem spawn {s : SchedulerId} {entry : FrameId} {reply : Except HostError TaskId}
    (done : st.spawn s entry = .ok (reply, st')) : Yields late st st' := by
  simp only [State.spawn, bind_ok, scheduler_ok] at done
  obtain ⟨scheduler, _, done⟩ := done
  split at done
  · simp only [pure_ok, Prod.mk.injEq] at done
    exact done.2 ▸ .refl st
  · simp only [pure_ok, Prod.mk.injEq] at done
    exact done.2 ▸ (spawned s entry none).trans (enlist _ s _)

theorem startBound {s : SchedulerId} (done : st.startBound s t = .ok st') : Yields late st st' := by
  have threaded : Yields late st (st.modifyScheduler s fun scheduler =>
      { scheduler with bound := scheduler.bound ++ [t] }) := .of_tasks rfl
  exact (threaded.trans (enlist _ s t)).trans (start done)

theorem spawnBound {s : SchedulerId} {entry : FrameId} {reply : Except HostError TaskId}
    (done : st.spawnBound s entry = .ok (reply, st')) : Yields late st st' := by
  simp only [State.spawnBound, bind_ok, scheduler_ok] at done
  obtain ⟨scheduler, _, done⟩ := done
  split at done
  · simp only [pure_ok, Prod.mk.injEq] at done
    exact done.2 ▸ .refl st
  have numbered : Yields late st (st.modifyScheduler s fun other =>
      { other with nextThread := scheduler.nextThread + 1 }) := .of_tasks rfl
  have created := numbered.trans (spawned s entry (some scheduler.nextThread))
  split at done
  · obtain rfl := congrArg Prod.snd (pure_ok.1 done)
    exact created
  · simp at done
  · simp only [bind_ok, pure_ok, Prod.mk.injEq] at done
    obtain ⟨st₁, begun, _, rfl⟩ := done
    exact created.trans (startBound begun)

/-! ### Requests and resumptions -/

theorem serve {request : Request V C} {reply : request.Reply} (lawful : st.Lawful request)
    (done : st.serve request = .ok (reply, st')) : Yields late st st' := by
  cases request with
  | move => exact lawful.elim
  | spawn s entry => exact spawn done
  | spawnBound s entry => exact spawnBound done
  | start t =>
    simp only [State.serve, bind_ok, pure_ok, Prod.mk.injEq] at done
    obtain ⟨_, started, _, rfl⟩ := done
    exact start started
  | ready t =>
    simp only [State.serve, bind_ok, pure_ok, Prod.mk.injEq] at done
    obtain ⟨_, woken, _, rfl⟩ := done
    exact ready woken
  | yield t =>
    simp only [State.serve, bind_ok, pure_ok, Prod.mk.injEq] at done
    obtain ⟨_, yielded, _, rfl⟩ := done
    exact yield yielded
  | waitExternal t =>
    simp only [State.serve, bind_ok, pure_ok, Prod.mk.injEq] at done
    obtain ⟨_, announced, _, rfl⟩ := done
    exact waitExternal announced
  | pause t f =>
    simp only [State.serve, bind_ok, pure_ok, Prod.mk.injEq] at done
    obtain ⟨_, paused, _, rfl⟩ := done
    exact pause lawful paused
  | waitFor t child => exact waitFor done
  | tryAcquire r t =>
    obtain ⟨_, _, ⟨_, _, rfl⟩ | ⟨_, _, rfl⟩⟩ := tryAcquire_ok done
    · exact .of_tasks rfl
    · exact .refl _
  | acquire r t => exact acquire done
  | release r t =>
    simp only [State.serve, bind_ok, pure_ok, Prod.mk.injEq] at done
    obtain ⟨_, released, _, rfl⟩ := done
    exact release released
  | newScheduler settings g =>
    obtain rfl | ⟨workers, rfl⟩ := addScheduler_ok done
    · exact .refl _
    · exact .of_tasks rfl
  | stop s =>
    simp only [State.serve, bind_ok, pure_ok, Prod.mk.injEq] at done
    obtain ⟨_, stopped, _, rfl⟩ := done
    exact stop stopped
  | _ => exact .of_tasks (serve_bookless rfl done).1

theorem callFrame {f callee : FrameId} {value : V} {answer : Answer V} (going : st.isOver t = false)
    (done : st.callFrame t f callee value = .ok (answer, st')) : Yields late st st' := by
  simp only [State.callFrame, bind_ok, pure_ok, Prod.mk.injEq] at done
  obtain ⟨st₁, attached, st₂, paused, _, rfl⟩ := done
  obtain ⟨_, _, rfl⟩ := attach_ok attached
  have linked : Yields late st (st.modifyFrame callee fun frame => { frame with caller := some f }) := .of_tasks rfl
  exact linked.trans (pause going paused)

/-- A guard puts its task on its body, but not when it is resumed with an error. -/
theorem resumeGuard {f : FrameId} {r : ResourceId} {phase : Phase V} {value : V} {error : Option (Error V)}
    {answer : Answer V} (going : error = none → st.isOver t = false)
    (done : st.resumeGuard t f r phase value error = .ok (answer, st')) : Yields late st st' := by
  have recoded (st : State V C) (phase : Phase V) : Yields late st (st.setCode f (.guard r phase)) := .of_tasks rfl
  cases phase with
  | start body =>
    simp only [State.resumeGuard] at done
    cases error with
    | some error =>
      simp only [pure_ok, Prod.mk.injEq] at done
      exact done.2 ▸ recoded st .released
    | none =>
      simp only [bind_ok] at done
      obtain ⟨⟨granted, st₁⟩, acquired, done⟩ := done
      have asked : Yields late st st₁ := (recoded st .released).trans (acquire acquired)
      have still : st₁.isOver t = false := (asked.isOver t).trans (going rfl)
      dsimp only at done
      split at done
      · exact (asked.trans (recoded st₁ .held)).trans (callFrame still done)
      · simp only [pure_ok, Prod.mk.injEq] at done
        exact done.2 ▸ asked.trans (recoded st₁ _)
      · simp only [pure_ok, Prod.mk.injEq] at done
        exact done.2 ▸ asked
  | waiting body kept =>
    simp only [State.resumeGuard, check_ok] at done
    obtain ⟨quiet, _, done⟩ := done
    have well : error = none := by simpa using quiet
    exact ((recoded st .released).trans (recoded _ .held)).trans (callFrame (going well) done)
  | held =>
    simp only [State.resumeGuard, bind_ok, pure_ok, Prod.mk.injEq] at done
    obtain ⟨st₁, released, _, rfl⟩ := done
    exact (recoded st .released).trans (release released)
  | released => simp [State.resumeGuard] at done

theorem resumeJoin {f : FrameId} {child : TaskId} {parked : Bool} {error : Option (Error V)} {answer : Answer V}
    (done : st.resumeJoin t f child parked error = .ok (answer, st')) : Yields late st st' := by
  have rest : st' = st → Yields late st st' := by
    rintro rfl
    exact .refl st'
  unfold State.resumeJoin at done
  split at done
  · simp only [pure_ok, Prod.mk.injEq] at done
    exact rest done.2.symm
  · split at done
    · simp only [bind_ok, task_ok] at done
      obtain ⟨awaited, _, done⟩ := done
      split at done
      · simp only [pure_ok, Prod.mk.injEq] at done
        exact rest done.2.symm
      · simp at done
    · simp only [bind_ok] at done
      obtain ⟨⟨reply, st₁⟩, waited, done⟩ := done
      have asked : Yields late st st₁ := waitFor waited
      split at done
      · simp only [pure_ok, Prod.mk.injEq] at done
        exact done.2 ▸ asked
      · simp only [pure_ok, Prod.mk.injEq] at done
        exact done.2 ▸ asked.trans (.of_tasks rfl)
      · simp only [pure_ok, Prod.mk.injEq] at done
        exact done.2 ▸ asked

theorem resumeMessage {f : FrameId} {a : ActorId} {message : V} {delivered : Bool} {value : V}
    {error : Option (Error V)} {resumption : Resumption V C}
    (done : st.resumeMessage t f a message delivered value error = .ok (resumption, st')) : Yields late st st' := by
  unfold State.resumeMessage at done
  split at done
  · simp only [pure_ok, Prod.mk.injEq] at done
    exact done.2 ▸ .refl st
  · split at done
    · simp only [pure_ok, Prod.mk.injEq] at done
      exact done.2 ▸ .of_tasks rfl
    · simp only [bind_ok] at done
      obtain ⟨actor, _, may, _, done⟩ := done
      split at done
      · simp only [pure_ok, Prod.mk.injEq] at done
        exact done.2 ▸ .of_tasks rfl
      · simp at done

theorem resume {f : FrameId} {value : V} {error : Option (Error V)} {resumption : Resumption V C}
    (going : error = none → st.isOver t = false) (done : st.resume t f value error = .ok (resumption, st')) :
    Yields late st st' := by
  simp only [State.resume, bind_ok, frame_ok] at done
  obtain ⟨frame, _, done⟩ := done
  cases code : frame.code with
  | host body =>
    simp only [code, pure_ok, Prod.mk.injEq] at done
    exact done.2 ▸ .refl st
  | guard r phase =>
    simp only [code, bind_ok, pure_ok, Prod.mk.injEq] at done
    obtain ⟨⟨answer, st₁⟩, resumed, _, rfl⟩ := done
    exact resumeGuard going resumed
  | join child parked =>
    simp only [code, bind_ok, pure_ok, Prod.mk.injEq] at done
    obtain ⟨⟨answer, st₁⟩, resumed, _, rfl⟩ := done
    exact resumeJoin resumed
  | message a message delivered =>
    simp only [code] at done
    exact resumeMessage done

end Yields

namespace Advances

theorem of_yields (yields : Yields late st st') : Advances late st st' where
  old found := by
    obtain ⟨task', found', yields⟩ := yields.old found
    exact ⟨task', found', yields.advances⟩
  new gone found := by
    obtain ⟨s, entry, own, yields⟩ := yields.new gone found
    exact ⟨yields.agrees (Task.agrees_new _ s entry own), yields.life.imp id And.right⟩

theorem mono {late' : TaskId → Prop} (advances : Advances late st st') (lax : ∀ t, late t → late' t) :
    Advances late' st st' where
  old {t task} found := by
    obtain ⟨task', found', ⟨life, agrees, outcome, still, ends⟩⟩ := advances.old found
    exact ⟨task', found', life, agrees, outcome, fun ended intime => still ended fun late => intime (lax t late), ends⟩
  new := advances.new

/-- Only one task changes. -/
theorem of_becomes (found : st.tasks.get? t = some task) (becomes : Becomes st t task' st')
    (advances : Task.Advances (late t) t task task') : Advances late st st' where
  old {u other} found' := by
    by_cases here : u = t
    · subst here
      obtain rfl := Option.some.inj (found.symm.trans found')
      exact ⟨task', becomes.self, advances⟩
    · exact ⟨other, (becomes.other here).trans found', (Task.Yields.refl other).advances⟩
  new {u other} gone found' := by
    rw [becomes] at found'
    split at found'
    · next here => simp [here, found] at gone
    · simp [gone] at found'

/-- One task comes to its end, and then others are woken. -/
theorem of_end (found : st.tasks.get? t = some task) (becomes : Becomes st t task' st')
    (advances : Task.Advances (late t) t task task') (ended : task'.isFinished = true) (intime : ¬ late t)
    (later : Yields late st' st'') : Advances late st st'' where
  old {u other} found' := by
    by_cases here : u = t
    · subst here
      obtain rfl := Option.some.inj (found.symm.trans found')
      obtain ⟨task'', found'', yields⟩ := later.old becomes.self
      exact ⟨task'', found'', advances.later ended intime yields⟩
    · obtain ⟨other', found'', yields⟩ := later.old ((becomes.other here).trans found')
      exact ⟨other', found'', yields.advances⟩
  new {u other} gone found' := by
    have gone' : st'.tasks.get? u = none := by
      rw [becomes]
      split
      · next here => simp [here, found] at gone
      · exact gone
    exact (of_yields later).new gone' found'

end Advances

end State

/-! ## Steps -/

/-- A thread is about to put a task on the target of an unwind, all of whose frames are cancelled. -/
def Agent.Lands (a : Agent V C) (t : TaskId) : Prop :=
  ∃ answer target value after rest, a.focus = .code (.answer answer) ∧
    a.stack = .cancel t [] target value after :: rest

namespace Config

variable [Inhabited V] {c c' : Config V C} {t : TaskId}

open State

theorem going_of_unwind {st : State V C} {focus after : Focus V C} {stack : List (Activation V C)} {config : Config V C}
    {target : FrameId} {value : V} (done : (⟨st, focus, stack⟩ : Config V C).unwind t target value after = .ok config) :
    st.isOver t = false := by
  simp only [unwind, bind_ok, task_ok, check_ok] at done
  obtain ⟨task, found, live, _⟩ := done
  have live : task.life = .init ∨ task.life = .running := by
    by_contra other
    exact live (not_or.1 other)
  obtain new | running := live
  · simp [State.isOver, found, Task.isFinished, new, Life.isTerminal]
  · simp [State.isOver, found, Task.isFinished, running, Life.isTerminal]

theorem yields_landAt {late : TaskId → Prop} {st : State V C} (may : st.isOver t = false ∨ late t) (target : FrameId)
    (value : V) : State.Yields late st (landAt st t target value) :=
  .onFrame may (fun _ => rfl) fun _ => by simp

/-- Whoever begins to run a task takes a ready one. -/
theorem advances_of_begins {late : TaskId → Prop} {st st₁ st₂ : State V C} {w : Worker}
    (taken : (∃ s, st.takeReady s = .ok (some t, st₁)) ∨ st₁ = st) (begun : st₁.beginRun t w = .ok st₂) :
    State.Advances late st st₂ := by
  obtain ⟨_, alert, _⟩ := State.Quiet.beginRun begun
  obtain ⟨task₁, found₁, ready⟩ := Option.map_eq_some_iff.1 alert
  have begins := becomes_beginRun found₁ begun
  obtain ⟨s, taken⟩ | rfl := taken
  · obtain ⟨_, impossible⟩ | ⟨_, rest, same, _, _, rfl⟩ := takeReady_ok taken
    · simp_all
    obtain rfl := Option.some.inj same
    have former : (st.dequeued t s rest).tasks.get? t =
        (st.tasks.get? t).map fun task => { task with linked := false } := by
      rw [State.dequeued, State.dropLink, State.get?_modifyTask, if_pos rfl]
      rfl
    obtain ⟨task, found, rfl⟩ := Option.map_eq_some_iff.1 (former.symm.trans found₁)
    have dequeues : Becomes st t { task with linked := false } (st.dequeued t s rest) := becomes_modifyTask found _
    have ready : task.life = .ready := ready
    exact .of_becomes found (dequeues.trans begins) (Task.advances_beginRun ready w)
  · exact .of_becomes found₁ begins (Task.advances_beginRun ready w)

/-- What a step does to tasks.  Those that are in hand run. -/
theorem advances_of_step {late : TaskId → Prop} (lands : ∀ t, late t ↔ c.agent.Lands t)
    (live : ∀ t ∈ c.agent.inHand, c.state.life t = some .running)
    (lawful : ∀ request next, c.focus = .code (.ask request next) → c.state.Lawful request)
    (step : c.step = .ok c') : State.Advances late c.state c'.state := by
  by_cases byHand : ∃ t target value next, c.focus = .code (.unwind t target value next)
  · obtain ⟨st, focus, stack⟩ := c
    obtain ⟨t, target, value, next, rfl⟩ := byHand
    have unwinds : (⟨st, _, stack⟩ : Config V C).unwind t target value (.code next) = .ok c' := step
    obtain ⟨task, doomed, _, _, done⟩ := unwind_ok unwinds
    obtain ⟨_, rfl⟩ | ⟨f, rest, resumption, st', _, resumed, rfl⟩ := cancelNext_ok done
    · exact .of_yields (yields_landAt (.inl (going_of_unwind unwinds)) target value)
    · exact .of_yields (.resume (by simp) resumed)
  have going {t : TaskId} (inHand : t ∈ c.agent.inHand) : c.state.isOver t = false := by
    obtain ⟨task, found, running⟩ := Option.map_eq_some_iff.1 (live t inHand)
    simp [State.isOver, found, Task.isFinished, running, Life.isTerminal]
  cases does_of_step (fun t target value next here => byHand ⟨t, target, value, next, here⟩) step with
  | serves served => exact .of_yields (.serve (lawful _ _ rfl) served)
  | newFrame | newActor | registers | passes | rests | hands | opens | closes => exact .of_yields (.of_tasks rfl)
  | begins _ _ _ taken begun => exact advances_of_begins (taken.imp id And.right) begun
  | @resumes st st' t f task after resumption stack found top resumed =>
    have cleared : State.Yields late st
        (st.modifyTask t fun task => { task with value := default, error := none }) :=
      .modifyTask st t fun _ _ => .of_same rfl
    have still := (cleared.isOver t).trans (going (by simp [Agent.inHand, Config.agent, Focus.inHand]))
    exact .of_yields (cleared.trans (.resume (fun _ => still) resumed))
  | @suspends st st' t f after stack parked =>
    obtain ⟨task, found, running⟩ := Option.map_eq_some_iff.1 (live t (by simp [Agent.inHand, Config.agent,
      Activation.inHand]))
    have ends := becomes_modifyTask found fun task => { task with worker := none }
    exact .of_becomes found (ends.trans (becomes_park ends.self parked)) (Task.advances_park running)
  | @returns st t f caller answer result task after stack ends found top link =>
    have may := going (t := t) (by simp [Agent.inHand, Config.agent, Activation.inHand])
    cases result <;> exact .of_yields (.onFrame (.inl may) (fun _ => rfl) fun _ => by simp [returnTo])
  | @finishes st st' t f answer result task after stack ends found top link finished =>
    have running : task.life = .running := by
      have runs := live t (by simp [Agent.inHand, Config.agent, Activation.inHand])
      exact Option.some.inj ((life_of_get? found).symm.trans runs)
    have cut := becomes_modifyTask found fun task => { task with top := none }
    have ends := cut.trans (becomes_modifyTask cut.self fun task => { task with worker := none })
    obtain ⟨_, st₁, woken, retired⟩ := finish_ok ends.self finished
    obtain ⟨last, found', retires⟩ := becomes_retire retired
    have struck : State.Yields late st₁ st' := .change found' retires (.of_same rfl)
    refine .of_end found (ends.trans (becomes_closed ends.self)) (Task.advances_closed running result) ?_ ?_
      ((State.Yields.readyAll woken).trans struck)
    · cases result <;> rfl
    · rw [lands]
      simp [Agent.Lands, Config.agent]
  | @lands st t f target value task after stack found top =>
    have may := going (t := t) (by simp [Agent.inHand, Config.agent, Activation.inHand])
    have cut : State.Yields late st (st.modifyTask t fun task => { task with top := some target }) :=
      .onFrame (.inl may) (fun _ => rfl) fun _ => by simp
    exact .of_yields (cut.trans (yields_landAt (.inl ((cut.isOver t).trans may)) target value))
  | @leaps st st' t f g target value task rest after resumption stack found top path resumed =>
    have may := going (t := t) (by simp [Agent.inHand, Config.agent, Activation.inHand])
    have cut : State.Yields late st (st.modifyTask t fun task => { task with top := some g }) :=
      .onFrame (.inl may) (fun _ => rfl) fun _ => by simp
    exact .of_yields (cut.trans (.resume (by simp) resumed))
  | cancels resumed => exact .of_yields (.resume (by simp) resumed)
  | @unwinds st t target answer value after stack =>
    exact .of_yields (yields_landAt (.inr ((lands t).2 ⟨answer, target, value, after, stack, rfl, rfl⟩)) target value)

end Config

/-! ## Paths -/

/-- A path that rests at times is a path where the rests are left out. -/
theorem isChain_destutter'_of_rests {α : Type} [DecidableEq α] {moves : α → α → Prop} {a : α} {l : List α}
    (rests : (a :: l).IsChain fun a b => b = a ∨ moves a b) : (l.destutter' (· ≠ ·) a).IsChain moves ∧
      ∀ b, moves b a → (b :: l.destutter' (· ≠ ·) a).IsChain moves := by
  induction l generalizing a with
  | nil => simp
  | cons c l inductionHypothesis =>
    obtain ⟨here, later⟩ := List.isChain_cons_cons.1 rests
    obtain ⟨chain, before⟩ := inductionHypothesis later
    obtain rfl | moved := here
    · rw [List.destutter'_cons_neg _ (by simp)]
      exact ⟨chain, before⟩
    · by_cases same : a = c
      · subst same
        rw [List.destutter'_cons_neg _ (by simp)]
        exact ⟨chain, before⟩
      · rw [List.destutter'_cons_pos _ same]
        refine ⟨before a moved, fun b moved' => ?_⟩
        exact List.isChain_cons_cons.2 ⟨moved', before a moved⟩

/-! ## Runs -/

namespace Crew

/-- What code keeps to that moves no task by hand from one stage to another, and puts no task on a frame that is at its
end. -/
def Lawful (c : Crew V C) (a : Agent V C) : Prop :=
  match a.focus with
  | .code (.ask request _) => c.state.Lawful request
  | _ => True

/-- Some thread is about to put a task on the target of an unwind, all of whose frames are cancelled. -/
def Lands (c : Crew V C) (t : TaskId) : Prop := ∃ a ∈ c.agents, a.Lands t

theorem Lawful.unmoved {c : Crew V C} {a : Agent V C} (lawful : Lawful c a) : Unmoved c a := by
  unfold Lawful at lawful
  unfold Unmoved
  split
  · next focus =>
    rw [focus] at lawful
    exact lawful
  · trivial

variable [Inhabited V]

/-- The stages in which a task was so far in a run, one for each moment at which it was there. -/
def Run.lives {allowed : Crew V C → Agent V C → Prop} (run : Run V C allowed) (t : TaskId) (i : Nat) : List Life :=
  (List.range (i + 1)).filterMap fun j => (run.crew j).state.life t

/-- What holds of a task at a moment of a run. -/
structure Run.Lives {allowed : Crew V C → Agent V C → Prop} (run : Run V C allowed) (t : TaskId) (i : Nat)
    (task : Task V) : Prop where
  path : ((.init :: run.lives t i).destutter (· ≠ ·)).IsChain fun life life' => life.canMove life' = true
  agrees : task.Agrees t
  final : task.isFinished = true → ∀ j, i ≤ j → j ≤ run.length → ∃ task',
    (run.crew j).state.tasks.get? t = some task' ∧ task'.life = task.life ∧ task'.outcome = task.outcome
  bare : task.isFinished = true → task.top = none ∨
    ∃ j < i, (run.crew j).state.isOver t = true ∧ (run.crew j).Lands t

theorem Step.advances {c c' : Crew V C} {label : Option (TaskId × FrameId)} (step : Step Lawful c label c')
    (unshared : c.Unshared) : State.Advances c.Lands c.state c'.state := by
  cases step with
  | @act st before after a config lawful step =>
    have own : State.Advances a.Lands st config.state := by
      refine Config.advances_of_step (c := a.config st) (fun _ => .rfl) (fun t inHand => ?_)
        (fun request next focus => ?_) step
      · exact unshared.live (List.mem_flatMap.2 ⟨a, by simp, inHand⟩)
      · simp only [Lawful, show a.focus = .code (.ask request next) from focus] at lawful
        exact lawful
    exact own.mono fun t lands => ⟨a, by simp, lands⟩
  | join | lapse | switch => exact .of_yields (.of_tasks rfl)

namespace Run

variable (run : Run V C Lawful) {i j : Nat} {t : TaskId} {task : Task V}

theorem advances (bound : i < run.length) :
    State.Advances (run.crew i).Lands (run.crew i).state (run.crew (i + 1)).state :=
  (run.steps i bound).advances ((run.mono fun _ _ => Lawful.unmoved).unshared i bound.le)

omit run in
theorem starts_bare {allowed : Crew V C → Agent V C → Prop} (run : Run V C allowed) (t : TaskId) :
    (run.crew 0).state.tasks.get? t = none := by
  obtain ⟨parallelism, starts⟩ := run.starts
  simp [starts, Crew.initial, State.initial]

theorem agrees (bound : i ≤ run.length) (found : (run.crew i).state.tasks.get? t = some task) : task.Agrees t := by
  induction i generalizing task with
  | zero => simp [starts_bare] at found
  | succ i inductionHypothesis =>
    have advances := run.advances (i := i) (by omega)
    cases before : (run.crew i).state.tasks.get? t with
    | none => exact (advances.new before found).1
    | some earlier =>
      obtain ⟨task', found', step⟩ := advances.old before
      obtain rfl := Option.some.inj (found.symm.trans found')
      exact step.agrees (inductionHypothesis (by omega) before)

/-- A task that is at its end stays so, and keeps its outcome. -/
theorem ends_for_good (later : i ≤ j) (bound : j ≤ run.length)
    (found : (run.crew i).state.tasks.get? t = some task) (ended : task.isFinished = true) :
    ∃ task', (run.crew j).state.tasks.get? t = some task' ∧ task'.life = task.life ∧ task'.outcome = task.outcome := by
  induction j, later using Nat.le_induction with
  | base => exact ⟨task, found, rfl, rfl⟩
  | succ j later inductionHypothesis =>
    obtain ⟨task', found', life, outcome⟩ := inductionHypothesis (by omega)
    obtain ⟨task'', found'', step⟩ := (run.advances (i := j) (by omega)).old found'
    have ended' : task'.life.isTerminal = true := life ▸ ended
    refine ⟨task'', found'', ?_, (step.outcome ended').trans outcome⟩
    obtain same | moved := step.life
    · exact same.trans life
    · simp [Life.canMove_of_isTerminal ended'] at moved

theorem bare (bound : i ≤ run.length) (found : (run.crew i).state.tasks.get? t = some task)
    (ended : task.isFinished = true) : task.top = none ∨
      ∃ j < i, (run.crew j).state.isOver t = true ∧ (run.crew j).Lands t := by
  induction i generalizing task with
  | zero => simp [starts_bare] at found
  | succ i inductionHypothesis =>
    have advances := run.advances (i := i) (by omega)
    cases before : (run.crew i).state.tasks.get? t with
    | none =>
      obtain ⟨_, new | ready⟩ := advances.new before found
      · simp [Task.isFinished, new, Life.isTerminal] at ended
      · simp [Task.isFinished, ready, Life.isTerminal] at ended
    | some earlier =>
      obtain ⟨task', found', step⟩ := advances.old before
      obtain rfl := Option.some.inj (found.symm.trans found')
      by_cases past : earlier.isFinished = true
      · by_cases lands : (run.crew i).Lands t
        · exact .inr ⟨i, by omega, by simp [State.isOver, before, past], lands⟩
        · obtain none | ⟨j, earlier, late⟩ := inductionHypothesis (by omega) before past
          · exact .inl ((step.still past lands).trans none)
          · exact .inr ⟨j, by omega, late⟩
      · exact .inl (step.ends (by simpa using past) ended)

theorem lives_succ (run : Run V C Lawful) (t : TaskId) (i : Nat) :
    run.lives t (i + 1) = run.lives t i ++ ((run.crew (i + 1)).state.life t).toList := by
  rw [lives, List.range_succ, List.filterMap_append]
  cases now : (run.crew (i + 1)).state.life t <;> simp [lives, now]

/-- The stages so far are a path that rests at times, and it comes to the present one. -/
theorem rests (bound : i ≤ run.length) (t : TaskId) :
    (.init :: run.lives t i).IsChain (fun life life' => life' = life ∨ life.canMove life' = true) ∧
      (.init :: run.lives t i).getLast? = some (((run.crew i).state.life t).getD .init) := by
  induction i with
  | zero => simp [lives, State.life, starts_bare]
  | succ i inductionHypothesis =>
    obtain ⟨chain, last⟩ := inductionHypothesis (by omega)
    have advances := run.advances (i := i) (by omega)
    rw [lives_succ]
    cases now : (run.crew (i + 1)).state.tasks.get? t with
    | none =>
      -- A task that is missing was missing before.
      have before : (run.crew i).state.tasks.get? t = none := by
        cases before : (run.crew i).state.tasks.get? t with
        | none => rfl
        | some task =>
          obtain ⟨task', found, _⟩ := advances.old before
          simp [now] at found
      have still : (run.crew (i + 1)).state.life t = (run.crew i).state.life t := by simp [State.life, now, before]
      have missing : (run.crew (i + 1)).state.life t = none := by simp [State.life, now]
      rw [missing, Option.toList_none, List.append_nil, ← missing, still]
      exact ⟨chain, last⟩
    | some task =>
      have moves : task.life = ((run.crew i).state.life t).getD .init ∨
          (((run.crew i).state.life t).getD .init).canMove task.life = true := by
        cases before : (run.crew i).state.tasks.get? t with
        | none =>
          obtain ⟨_, new | ready⟩ := advances.new before now
          · simp [State.life, before, new]
          · simp [State.life, before, ready, Life.canMove]
        | some earlier =>
          obtain ⟨task', found, step⟩ := advances.old before
          obtain rfl := Option.some.inj (now.symm.trans found)
          simpa [State.life, before] using step.life
      rw [State.life_of_get? now, Option.toList_some, ← List.cons_append]
      refine ⟨chain.append (List.isChain_singleton _) fun life member life' member' => ?_, List.getLast?_concat⟩
      obtain rfl := Option.some.inj (last.symm.trans member)
      obtain rfl := Option.some.inj member'
      exact moves

/-- At every moment of a run, what is kept of a task agrees with its stage, and the stages so far are a path through
the table.  A task at its end stays as it ended.  It has no chain then, unless an unwind of it came to its target
later. -/
theorem lives_once (bound : i ≤ run.length) (found : (run.crew i).state.tasks.get? t = some task) :
    run.Lives t i task where
  path := (isChain_destutter'_of_rests (run.rests bound t).1).1
  agrees := run.agrees bound found
  final ended _ later bound' := run.ends_for_good later bound' found ended
  bare ended := run.bare bound found ended

end Run

/-! ### A task that is revived -/

theorem revival_lawful : ∀ n < 16, Lawful (revivalHost n).alone (revivalHost n).agent := by
  intro n bound
  interval_cases n <;> trivial

def revivalLawful : Run Unit Empty Lawful := .ofHost 1 revival 16 revival_ok revival_lawful

/-- The frame that the host cancels starts the task, and drives it to its end. -/
theorem revival_lives : 17 ≤ revivalLawful.length ∧ ∃ task,
    (revivalLawful.crew 17).state.tasks.get? ⟨1⟩ = some task ∧ revivalLawful.Lives ⟨1⟩ 17 task := by
  have reached : 17 ≤ revivalLawful.length := by decide
  obtain ⟨task, found⟩ : ∃ task, (revivalLawful.crew 17).state.tasks.get? ⟨1⟩ = some task :=
    Option.isSome_iff_exists.1 (by decide +kernel)
  exact ⟨reached, task, found, revivalLawful.lives_once reached found⟩

/-- Then the unwind puts the task, which is done, on its target. -/
theorem revival_revived : 17 ≤ revivalLawful.length ∧
    ((revivalLawful.crew 15).state.tasks.get? ⟨1⟩).map (fun task => (task.life, task.top)) = some (.done, none) ∧
    ((revivalLawful.crew 17).state.tasks.get? ⟨1⟩).map (fun task => (task.life, task.top)) =
      some (.done, some ⟨1⟩) := by
  refine ⟨?_, ?_, ?_⟩ <;> decide +kernel

end Crew

end Tasking
