import Tasking.Proofs.Deeds
import Tasking.Proofs.Waiting

/-! # The accounts of a scheduler

A scheduler counts its unfinished tasks and those that are ready or running, and keeps a queue of the
ready ones.  Whatever code does, as long as nobody forces a task from one stage to another, the counters
are exact and exactly the ready tasks are in the queue, each once.

Three things are kept by every deed: ready tasks are where they should be (`State.Filed`), the counters
are exact (`State.Counted`), and a task goes on as what it was (`State.Persists`).
-/

namespace Tasking

variable {V C : Type}

/-- Whose task it is, and where it is in its life. -/
def Task.standing (task : Task V) : SchedulerId × Life := (task.scheduler, task.life)

namespace State

variable {st st' st'' : State V C} {t : TaskId} {task task' : Task V} {loose : Option TaskId}

/-! ## Ready queues -/

/-- Exactly the ready tasks are in the ready queues of their schedulers, except for one that is about to
go there, or was just taken out. -/
structure Filed (st : State V C) (loose : Option TaskId) : Prop where
  queued : ∀ {t s}, t ∈ st.queue s ↔ loose ≠ some t ∧
    ∃ task, st.tasks.get? t = some task ∧ task.standing = (s, .ready)
  distinct : ∀ s, (st.queue s).Nodup

namespace Filed

/-- Nothing changes about who is ready, and who is in a queue. -/
theorem congr (filed : st.Filed loose)
    (same : ∀ u, (st'.tasks.get? u).map Task.standing = (st.tasks.get? u).map Task.standing)
    (queue : ∀ s, st'.queue s = st.queue s) : st'.Filed loose where
  queued {t s} := by
    have equal := same t
    rw [queue, filed.queued]
    refine and_congr_right fun _ => ⟨?_, ?_⟩
    · rintro ⟨task, found, stands⟩
      rw [found] at equal
      obtain ⟨task', found', same'⟩ := Option.map_eq_some_iff.1 equal
      exact ⟨task', found', same'.trans stands⟩
    · rintro ⟨task', found', stands⟩
      rw [found'] at equal
      obtain ⟨task, found, same'⟩ := Option.map_eq_some_iff.1 equal.symm
      exact ⟨task, found, same'.trans stands⟩
  distinct s := queue s ▸ filed.distinct s

theorem modifyTask (filed : st.Filed loose) (t : TaskId) {f : Task V → Task V}
    (keeps : ∀ task, (f task).standing = task.standing) : (st.modifyTask t f).Filed loose := by
  refine filed.congr (fun u => ?_) fun _ => rfl
  rw [get?_modifyTask]
  split
  · next same =>
    subst same
    rw [Option.map_map]
    exact congrArg (Option.map · _) (funext keeps)
  · rfl

theorem modifyScheduler (filed : st.Filed loose) (s : SchedulerId) {f : Scheduler → Scheduler}
    (keeps : ∀ scheduler, (f scheduler).ready = scheduler.ready) : (st.modifyScheduler s f).Filed loose :=
  filed.congr (fun _ => rfl) (queue_modifyScheduler keeps)

theorem adjust (filed : st.Filed loose) {s : SchedulerId} {c : Counter} {change : Int}
    (done : st.adjust s c change = .ok st') : st'.Filed loose := by
  obtain ⟨scheduler, _, _, rfl⟩ := adjust_ok.1 done
  exact filed.modifyScheduler s fun _ => ready_withCount _ _ _

theorem finishWait (filed : st.Filed loose) (done : st.finishWait t = .ok st') : st'.Filed loose := by
  obtain ⟨task, _, done⟩ := finishWait_ok done
  have forgot : (st.modifyTask t fun task =>
      { task with waiting := none, external := false }).Filed loose := filed.modifyTask t fun _ => rfl
  split at done
  · exact forgot.adjust done
  · exact done ▸ forgot

/-- A task that is in no queue may change. -/
theorem rouse (filed : st.Filed loose) (found : st.tasks.get? t = some task)
    (out : loose = some t ∨ loose = none ∧ task.life ≠ .ready) (becomes : Becomes st t task' st')
    (queue : ∀ s, st'.queue s = st.queue s) : st'.Filed (some t) where
  queued {u s} := by
    rw [queue, filed.queued]
    by_cases same : u = t
    · subst same
      cases out with
      | inl away => simp [away]
      | inr idle => simp [idle.1, found, Task.standing, idle.2]
    · rw [becomes.other same]
      cases out with
      | inl away => simp [away]
      | inr idle => simp [idle.1, Ne.symm same]
  distinct s := queue s ▸ filed.distinct s

/-- A task that is not ready need be in no queue. -/
theorem settle (filed : st.Filed (some t)) (found : st.tasks.get? t = some task)
    (idle : task.life ≠ .ready) : st.Filed none where
  queued {u s} := by
    rw [filed.queued]
    by_cases same : u = t
    · subst same
      simp [found, Task.standing, idle]
    · simp [Ne.symm same]
  distinct := filed.distinct

/-- A ready task went to the queue of its scheduler. -/
theorem sit (filed : st.Filed (some t)) (found : st.tasks.get? t = some task) (ready : task.life = .ready)
    (known : (st.schedulers.get? task.scheduler).isSome = true) :
    (st.enqueued t task.scheduler).Filed none where
  queued {u s} := by
    have becomes := becomes_enqueued found task.scheduler
    rw [queue_enqueued known]
    by_cases same : u = t
    · subst same
      have out : u ∉ st.queue s := fun inside => (filed.queued.1 inside).1 rfl
      rw [becomes.self]
      split
      · next own => simp [own, Task.standing, ready]
      · next other => simp [out, Task.standing, ready, Ne.symm other]
    · rw [becomes.other same]
      have still := @queued _ _ _ _ filed u s
      simp only [ne_eq, Option.some.injEq, Ne.symm same, not_false_eq_true, true_and] at still
      split
      · next own => subst own; simp [still, same]
      · simp [still]
  distinct s := by
    rw [queue_enqueued known]
    split
    · next own =>
      have out : t ∉ st.queue task.scheduler := fun inside => (filed.queued.1 inside).1 rfl
      exact List.nodup_append.2 ⟨filed.distinct _, by simp, by
        rintro u inside v new rfl
        exact out (List.mem_singleton.1 new ▸ inside)⟩
    · exact filed.distinct s

theorem schedule (filed : st.Filed (some t)) (found : st.tasks.get? t = some task)
    (ready : task.life = .ready) (unbound : task.bound = none)
    (known : (st.schedulers.get? task.scheduler).isSome = true) (done : st.schedule t = .ok st') :
    st'.Filed none := by
  obtain ⟨task', found', ⟨bound, _⟩ | ⟨_, _, rfl⟩⟩ := schedule_ok done
  · obtain rfl := Option.some.inj (found.symm.trans found')
    simp [unbound] at bound
  · obtain rfl := Option.some.inj (found.symm.trans found')
    exact filed.sit found ready known

/-- The oldest task of a queue was taken out. -/
theorem rise (filed : st.Filed none) {s : SchedulerId} {rest : Line TaskId}
    (known : (st.schedulers.get? s).isSome = true) (line : st.queue s = t :: rest.toList) :
    (st.dequeued t s rest).Filed (some t) := by
  have distinct := filed.distinct s
  rw [line, List.nodup_cons] at distinct
  obtain ⟨_, task, found, stands⟩ := filed.queued.1 (show t ∈ st.queue s by simp [line])
  have becomes : Becomes st t { task with linked := false } (st.dequeued t s rest) :=
    becomes_modifyTask found _
  constructor
  case queued =>
    intro u v
    rw [queue_dequeued known]
    by_cases same : u = t
    · subst same
      have elsewhere : v ≠ s → u ∉ st.queue v := fun other inside => by
        obtain ⟨_, task', found', stands'⟩ := filed.queued.1 inside
        obtain rfl := Option.some.inj (found.symm.trans found')
        exact other (congrArg Prod.fst (stands'.symm.trans stands))
      split
      · simpa using distinct.1
      · next other => simpa using elsewhere other
    · rw [becomes.other same]
      have still := @queued _ _ _ _ filed u v
      simp only [ne_eq, reduceCtorEq, not_false_eq_true, true_and] at still
      split
      · next own => subst own; simp [← still, line, same, Ne.symm same]
      · simp [still, Ne.symm same]
  case distinct =>
    intro v
    rw [queue_dequeued known]
    split
    · exact distinct.2
    · exact filed.distinct v

end Filed

/-! ## What tasks remain -/

end State

/-- A task remained what it was, except that it may have been started or woken. -/
structure Task.Stays (task task' : Task V) : Prop where
  scheduler : task'.scheduler = task.scheduler
  bound : task'.bound = task.bound
  listed : task'.listed = task.listed
  terminal : task'.life.isTerminal = task.life.isTerminal
  running : task'.life = .running → task.life = .running

namespace Task.Stays

variable {task task' task'' : Task V}

@[refl] theorem refl (task : Task V) : task.Stays task := ⟨rfl, rfl, rfl, rfl, id⟩

theorem trans (first : task.Stays task') (second : task'.Stays task'') : task.Stays task'' where
  scheduler := second.scheduler.trans first.scheduler
  bound := second.bound.trans first.bound
  listed := second.listed.trans first.listed
  terminal := second.terminal.trans first.terminal
  running live := first.running (second.running live)

theorem of_sameBooks (same : task.SameBooks task') : task.Stays task' := by
  rw [same]
  exact ⟨rfl, rfl, rfl, rfl, id⟩

theorem woken (task : Task V) : task.Stays task.woken := by
  unfold Task.woken
  split
  · next parked => exact ⟨rfl, rfl, rfl, by simp [Task.scheduled, parked, Life.isTerminal], by
      simp [Task.scheduled]⟩
  · exact ⟨rfl, rfl, rfl, rfl, id⟩

theorem iterate_woken (task : Task V) (n : Nat) : task.Stays (Task.woken^[n] task) := by
  induction n generalizing task with
  | zero => exact .refl task
  | succ n inductionHypothesis => exact (Task.Stays.woken task).trans (inductionHypothesis task.woken)

end Task.Stays

namespace State

variable {st st' st'' : State V C} {t : TaskId} {task task' : Task V}

/-- Schedulers stay, and keep their settings. -/
def Remembers (st st' : State V C) : Prop := ∀ s settings,
  (st.schedulers.get? s).map Scheduler.settings = some settings →
    (st'.schedulers.get? s).map Scheduler.settings = some settings

namespace Remembers

theorem of_schedulers (same : st'.schedulers = st.schedulers) : Remembers st st' :=
  fun _ _ known => same ▸ known

@[refl] theorem refl (st : State V C) : Remembers st st := .of_schedulers rfl

theorem trans (first : Remembers st st') (second : Remembers st' st'') : Remembers st st'' :=
  fun s settings known => second s settings (first s settings known)

theorem known (remembers : Remembers st st') {s : SchedulerId}
    (known : (st.schedulers.get? s).isSome = true) : (st'.schedulers.get? s).isSome = true := by
  obtain ⟨scheduler, found⟩ := Option.isSome_iff_exists.1 known
  have still := remembers s scheduler.settings (by simp [found])
  obtain ⟨scheduler', found', _⟩ := Option.map_eq_some_iff.1 still
  simp [found']

theorem modifyScheduler (st : State V C) (s : SchedulerId) {f : Scheduler → Scheduler}
    (keeps : ∀ scheduler, (f scheduler).settings = scheduler.settings) :
    Remembers st (st.modifyScheduler s f) := by
  intro u settings known
  rw [get?_modifyScheduler]
  split
  · next same =>
    subst same
    rw [Option.map_map]
    exact (congrArg (Option.map · _) (funext keeps)).trans known
  · exact known

theorem adjust {s : SchedulerId} {c : Counter} {change : Int} (done : st.adjust s c change = .ok st') :
    Remembers st st' := by
  obtain ⟨scheduler, _, _, rfl⟩ := adjust_ok.1 done
  exact .modifyScheduler st s fun _ => by cases c <;> rfl

theorem finishWait (done : st.finishWait t = .ok st') : Remembers st st' := by
  obtain ⟨task, _, done⟩ := finishWait_ok done
  split at done
  · have counts := adjust done
    exact counts
  · exact done ▸ .of_schedulers rfl

theorem schedule (done : st.schedule t = .ok st') : Remembers st st' := by
  obtain ⟨task, _, ⟨_, rfl⟩ | ⟨_, _, rfl⟩⟩ := schedule_ok done
  · exact .refl _
  · have linked : Remembers st (st.modifyTask t fun task => { task with linked := true }) :=
      .of_schedulers rfl
    exact linked.trans (.modifyScheduler _ task.scheduler fun _ => rfl)

theorem ready (found : st.tasks.get? t = some task) (done : st.ready t = .ok st') : Remembers st st' := by
  rcases ready_ok found done with ⟨_, st₁, st₂, counts, finished, scheduled⟩ | ⟨_, finished⟩
  · have moved : Remembers st (st.setLife t .ready) := .of_schedulers rfl
    exact moved.trans ((adjust counts).trans ((finishWait finished).trans (schedule scheduled)))
  · have noted : Remembers st (st.modifyTask t fun task => { task with notified := true }) :=
      .of_schedulers rfl
    exact noted.trans (finishWait finished)

theorem retire (done : st.retire t = .ok st') : Remembers st st' := by
  simp only [State.retire, bind_ok, task_ok] at done
  obtain ⟨task, _, st₁, tasks, runnable⟩ := done
  have struck : Remembers st (st.modifyTask t fun task => { task with listed := false }) :=
    .of_schedulers rfl
  exact struck.trans ((adjust tasks).trans (adjust runnable))

theorem takeReady {s : SchedulerId} {next : Option TaskId} (done : st.takeReady s = .ok (next, st')) :
    Remembers st st' := by
  rcases takeReady_ok done with ⟨_, rfl⟩ | ⟨t, rest, _, _, _, rfl⟩
  · exact .refl _
  · exact .trans (.of_schedulers rfl) (.modifyScheduler _ s fun _ => rfl)

theorem beginRun {w : Worker} (done : st.beginRun t w = .ok st') : Remembers st st' := by
  simp only [State.beginRun, advance, bind_ok, task_ok, check_ok, pure_ok] at done
  obtain ⟨_, ⟨task, _, _, rfl⟩, rfl⟩ := done
  exact .of_schedulers rfl

theorem park (done : st.park t = .ok st') : Remembers st st' := by
  obtain ⟨task, found⟩ := exists_of_task done
  obtain ⟨_, ⟨_, scheduled⟩ | ⟨_, _, counts⟩⟩ := park_ok found done
  · have woken := schedule scheduled
    exact woken
  · have parked := adjust counts
    exact parked

theorem readyAll {ts : List TaskId} (done : st.readyAll ts = .ok st') : Remembers st st' := by
  induction ts generalizing st with
  | nil => exact pure_ok.1 done ▸ .refl st
  | cons t rest inductionHypothesis =>
    simp only [State.readyAll, bind_ok] at done
    obtain ⟨st₁, first, later⟩ := done
    obtain ⟨task, found⟩ := exists_of_task first
    exact (ready found first).trans (inductionHypothesis later)

theorem finish [Inhabited V] {result : Except (Error V) V} (done : st.finish t result = .ok st') :
    Remembers st st' := by
  obtain ⟨task, found⟩ := exists_of_task done
  obtain ⟨_, st₁, woken, retired⟩ := finish_ok found done
  have closed : Remembers st (st.closed t result) := .of_schedulers rfl
  exact closed.trans ((readyAll woken).trans (retire retired))

end Remembers

/-- A task is on the list of its scheduler until it ends, and has no thread of its own. -/
structure Posted (st : State V C) (task : Task V) : Prop where
  entered : task.listed = !task.life.isTerminal
  unbound : task.bound = none
  known : (st.schedulers.get? task.scheduler).isSome = true

theorem Posted.stays (posted : st.Posted task) (stays : task.Stays task')
    (remembers : Remembers st st') :
    st'.Posted task' where
  entered := by rw [stays.listed, stays.terminal, posted.entered]
  unbound := stays.bound.trans posted.unbound
  known := stays.scheduler ▸ remembers.known posted.known

/-- Every task is one that was there before, or a new one that does not run yet. -/
structure Persists (st st' : State V C) : Prop where
  tasks : ∀ {u task'}, st'.tasks.get? u = some task' →
    (∃ task, st.tasks.get? u = some task ∧ task.Stays task') ∨ st.tasks.get? u = none ∧
      task'.life ≠ .running ∧ st'.Posted task'
  kept : ∀ {u}, st'.tasks.get? u = none → st.tasks.get? u = none
  remembers : Remembers st st'

namespace Persists

theorem of_tasks (same : st'.tasks = st.tasks)
    (remembers : Remembers st st') :
    Persists st st' :=
  ⟨fun {_ task} found => .inl ⟨task, same ▸ found, .refl task⟩, fun gone => same ▸ gone, remembers⟩

@[refl] theorem refl (st : State V C) : Persists st st := .of_tasks rfl (.refl st)

theorem trans (first : Persists st st') (second : Persists st' st'') : Persists st st'' where
  tasks {u task''} found := by
    cases second.tasks found with
    | inr new =>
      obtain ⟨absent, idle, posted⟩ := new
      exact .inr ⟨first.kept absent, idle, posted⟩
    | inl old =>
      obtain ⟨task', found', stays'⟩ := old
      cases first.tasks found' with
      | inl older =>
        obtain ⟨task, found'', stays⟩ := older
        exact .inl ⟨task, found'', stays.trans stays'⟩
      | inr new =>
        obtain ⟨absent, idle, posted⟩ := new
        exact .inr ⟨absent, fun live => idle (stays'.running live), posted.stays stays' second.remembers⟩
  kept gone := first.kept (second.kept gone)
  remembers := first.remembers.trans second.remembers

theorem of_becomes (found : st.tasks.get? t = some task) (becomes : Becomes st t task' st')
    (stays : task.Stays task')
    (remembers : Remembers st st') :
    Persists st st' where
  tasks {u other} found' := by
    rw [becomes] at found'
    split at found'
    · next same =>
      subst same
      obtain rfl := Option.some.inj found'
      exact .inl ⟨task, found, stays⟩
    · exact .inl ⟨other, found', .refl other⟩
  kept {u} gone := by
    rw [becomes] at gone
    split at gone
    · simp at gone
    · exact gone
  remembers := remembers

theorem of_aside (aside : Aside st st') : Persists st st' where
  tasks {u task'} found' := by
    have rel := aside.tasks u
    rw [found'] at rel
    cases found : st.tasks.get? u with
    | none => rw [found] at rel; cases rel
    | some task =>
      rw [found] at rel
      cases rel with
      | some same => exact .inl ⟨task, rfl, .of_sameBooks same⟩
  kept {u} gone := by
    have rel := aside.tasks u
    rw [gone] at rel
    cases found : st.tasks.get? u with
    | none => rfl
    | some task => rw [found] at rel; cases rel
  remembers := .of_schedulers aside.schedulers

/-- Whatever was not running before is not running now. -/
theorem idle (persists : Persists st st') (live : st'.life t = some .running) :
    st.life t = some .running := by
  obtain ⟨task', found', running⟩ := Option.map_eq_some_iff.1 live
  cases persists.tasks found' with
  | inl old =>
    obtain ⟨task, found, stays⟩ := old
    simp [State.life, found, stays.running running]
  | inr new => exact absurd running new.2.1

end Persists

/-! ## What deeds do to the accounts -/

end State

/-- What the accounts say of a task. -/
def Task.account (task : Task V) : (SchedulerId × Life) × Bool × Option Nat × Bool :=
  (task.standing, task.listed, task.bound, task.external)

theorem Task.weight_of_account {task task' : Task V} (same : task'.account = task.account)
    {s : SchedulerId} {c : Counter} : task'.weight s c = task.weight s c := by
  simp only [Task.account, Task.standing, Prod.mk.injEq] at same
  obtain ⟨⟨scheduler, life⟩, listed, _, external⟩ := same
  unfold Task.weight Task.counts
  rw [scheduler, life, listed, external]

namespace State

variable {st st' st'' : State V C} {t : TaskId} {task task' : Task V}

theorem Counted.of_account {ahead : SchedulerId → Counter → Int} (counted : st.Counted ahead)
    (schedulers : st'.schedulers = st.schedulers)
    (same : ∀ u, (st'.tasks.get? u).map Task.account = (st.tasks.get? u).map Task.account) :
    st'.Counted ahead := by
  intro s scheduler found c
  rw [schedulers] at found
  have tally : st'.tally s c = st.tally s c := Table.total_congr fun u => by
    have equal := same u
    cases before : st.tasks.get? u with
    | none => simpa [before] using equal
    | some task =>
      rw [before] at equal
      obtain ⟨task', after, same'⟩ := Option.map_eq_some_iff.1 equal
      rw [after]
      exact congrArg some (Task.weight_of_account same')
  rw [tally]
  exact counted s scheduler found c

/-- The accounts of all schedulers are right. -/
structure Accounts (st : State V C) : Prop where
  filed : st.Filed none
  counted : st.Counted fun _ _ => 0
  posted : ∀ {t task}, st.tasks.get? t = some task → st.Posted task

theorem Filed.retire (filed : st.Filed loose) (done : st.retire t = .ok st') : st'.Filed loose := by
  simp only [State.retire, bind_ok, task_ok] at done
  obtain ⟨task, _, st₁, tasks, runnable⟩ := done
  have struck : (st.modifyTask t fun task => { task with listed := false }).Filed loose :=
    filed.modifyTask t fun _ => rfl
  exact (struck.adjust tasks).adjust runnable

theorem Persists.ready (found : st.tasks.get? t = some task) (done : st.ready t = .ok st') :
    Persists st st' :=
  .of_becomes found (becomes_ready found done) (.woken task) (.ready found done)

theorem Filed.ready (filed : st.Filed none) (found : st.tasks.get? t = some task)
    (unbound : task.bound = none) (known : (st.schedulers.get? task.scheduler).isSome = true)
    (done : st.ready t = .ok st') : st'.Filed none := by
  rcases ready_ok found done with ⟨parked, st₁, st₂, counts, finished, scheduled⟩ | ⟨_, finished⟩
  · have roused := filed.rouse found (.inr ⟨rfl, by simp [parked]⟩)
      (becomes_modifyTask found fun task => { task with life := .ready, notified := false }) fun _ => rfl
    have first : Becomes st t { task with life := .ready, notified := false } st₁ :=
      (becomes_modifyTask found _).of_tasks (tasks_adjust counts)
    have second := first.trans (becomes_finishWait first.self finished)
    have remembers := (Remembers.adjust counts).trans (.finishWait finished)
    exact ((Filed.adjust roused counts).finishWait finished).schedule second.self rfl unbound
      (remembers.known known) scheduled
  · have noted : (st.modifyTask t fun task => { task with notified := true }).Filed none :=
      filed.modifyTask t fun _ => rfl
    exact noted.finishWait finished

/-- Waking tasks one after another, whoever they are. -/
theorem readyAll_persists {ahead : SchedulerId → Counter → Int} {ts : List TaskId} (filed : st.Filed none)
    (counted : st.Counted ahead) (posted : ∀ {u task}, st.tasks.get? u = some task →
      task.bound = none ∧ (st.schedulers.get? task.scheduler).isSome = true)
    (done : st.readyAll ts = .ok st') : st'.Filed none ∧ st'.Counted ahead ∧ Persists st st' := by
  induction ts generalizing st with
  | nil =>
    obtain rfl := pure_ok.1 done
    exact ⟨filed, counted, .refl _⟩
  | cons t rest inductionHypothesis =>
    simp only [State.readyAll, bind_ok] at done
    obtain ⟨st₁, first, later⟩ := done
    obtain ⟨task, found⟩ := exists_of_task first
    have persists := Persists.ready found first
    obtain ⟨filed', counted', persists'⟩ := inductionHypothesis
      (filed.ready found (posted found).1 (posted found).2 first) (counted.ready found first)
      (fun {u task'} found' => by
        cases persists.tasks found' with
        | inr new => exact ⟨new.2.2.unbound, new.2.2.known⟩
        | inl old =>
          obtain ⟨before, found'', stays⟩ := old
          obtain ⟨unbound, known⟩ := posted found''
          exact ⟨stays.bound.trans unbound, stays.scheduler ▸ persists.remembers.known known⟩) later
    exact ⟨filed', counted', persists.trans persists'⟩

namespace Accounts

theorem of_persists (accounts : st.Accounts) (persists : Persists st st') (filed : st'.Filed none)
    (counted : st'.Counted fun _ _ => 0) : st'.Accounts where
  filed := filed
  counted := counted
  posted {u task'} found' := by
    cases persists.tasks found' with
    | inr new => exact new.2.2
    | inl old =>
      obtain ⟨task, found, stays⟩ := old
      exact (accounts.posted found).stays stays persists.remembers

/-- Nothing changes that the accounts speak of. -/
theorem congr (accounts : st.Accounts) (schedulers : st'.schedulers = st.schedulers)
    (same : ∀ u, (st'.tasks.get? u).map Task.account = (st.tasks.get? u).map Task.account) :
    st'.Accounts ∧ Persists st st' := by
  have back : ∀ {u task'}, st'.tasks.get? u = some task' →
      ∃ task, st.tasks.get? u = some task ∧ task'.account = task.account := fun {u task'} found' => by
    have equal := same u
    rw [found'] at equal
    obtain ⟨task, found, same'⟩ := Option.map_eq_some_iff.1 equal.symm
    exact ⟨task, found, same'.symm⟩
  have persists : Persists st st' := by
    refine ⟨fun {u task'} found' => .inl ?_, fun {u} gone => ?_, .of_schedulers schedulers⟩
    case refine_2 =>
      have equal := same u
      rw [gone] at equal
      exact Option.map_eq_none_iff.1 equal.symm
    obtain ⟨task, found, equal⟩ := back found'
    simp only [Task.account, Task.standing, Prod.mk.injEq] at equal
    obtain ⟨⟨scheduler, life⟩, listed, bound, _⟩ := equal
    exact ⟨task, found, scheduler, bound, listed, by rw [life], by simp [life]⟩
  refine ⟨accounts.of_persists persists (accounts.filed.congr (fun u => ?_) fun s => ?_) ?_, persists⟩
  · have equal := congrArg (Option.map Prod.fst) (same u)
    rwa [Option.map_map, Option.map_map] at equal
  · rw [queue, schedulers]
    rfl
  · exact Counted.of_account accounts.counted schedulers same

theorem modifyTask (accounts : st.Accounts) (t : TaskId) {f : Task V → Task V}
    (keeps : ∀ task, (f task).account = task.account) :
    (st.modifyTask t f).Accounts ∧ Persists st (st.modifyTask t f) := by
  refine accounts.congr rfl fun u => ?_
  rw [get?_modifyTask]
  split
  · next same =>
    subst same
    rw [Option.map_map]
    exact congrArg (Option.map · _) (funext keeps)
  · rfl

theorem aside (accounts : st.Accounts) (aside : Aside st st') : st'.Accounts ∧ Persists st st' := by
  refine accounts.congr aside.schedulers fun u => ?_
  have rel := aside.tasks u
  revert rel
  generalize st.tasks.get? u = before
  generalize st'.tasks.get? u = after
  intro rel
  cases rel with
  | none => rfl
  | some same =>
    rw [same]
    rfl

theorem ready (accounts : st.Accounts) (done : st.ready t = .ok st') : st'.Accounts ∧ Persists st st' := by
  obtain ⟨task, found⟩ := exists_of_task done
  have persists := Persists.ready found done
  exact ⟨accounts.of_persists persists
    (accounts.filed.ready found (accounts.posted found).unbound (accounts.posted found).known done)
    (accounts.counted.ready found done), persists⟩

theorem acquire (accounts : st.Accounts) {r : ResourceId} {granted : Except Deadlock Grant}
    (done : st.acquire r t = .ok (granted, st')) : st'.Accounts ∧ Persists st st' := by
  obtain ⟨_, _, ⟨_, _, rfl⟩ | ⟨_, ⟨_, _, _, rfl⟩ | ⟨_, _, _, rfl⟩⟩⟩ := acquire_ok done
  · exact accounts.congr rfl fun _ => rfl
  · exact ⟨accounts, .refl _⟩
  · obtain ⟨announced, persists⟩ := accounts.modifyTask t (f := fun task =>
      { task with waiting := some (.resource r) }) fun _ => rfl
    obtain ⟨linked, persists'⟩ := announced.modifyTask t (f := fun task =>
      { task with linked := true }) fun _ => rfl
    obtain ⟨entered, persists''⟩ : ((st.announceWait t (.resource r)).inLine t r).Accounts ∧
        Persists _ ((st.announceWait t (.resource r)).inLine t r) := linked.congr rfl fun _ => rfl
    exact ⟨entered, persists.trans (persists'.trans persists'')⟩

theorem release (accounts : st.Accounts) {r : ResourceId} (done : st.release r t = .ok st') :
    st'.Accounts ∧ Persists st st' := by
  obtain ⟨_, _, ⟨_, rfl⟩ | ⟨next, rest, _, woken⟩⟩ := release_ok done
  · exact accounts.congr rfl fun _ => rfl
  · obtain ⟨unlinked, persists⟩ := accounts.modifyTask next (f := fun task =>
      { task with linked := false }) fun _ => rfl
    obtain ⟨handed, persists'⟩ : (st.handed next r rest).Accounts ∧ Persists _ (st.handed next r rest) :=
      unlinked.congr rfl fun _ => rfl
    obtain ⟨awake, persists''⟩ := handed.ready woken
    exact ⟨awake, persists.trans (persists'.trans persists'')⟩

theorem waitFor (accounts : st.Accounts) {child : TaskId} {reply : Except Deadlock (Option (Outcome V))}
    (done : st.waitFor t child = .ok (reply, st')) : st'.Accounts ∧ Persists st st' := by
  obtain ⟨_, _, ⟨_, _, rfl⟩ | ⟨_, ⟨_, _, _, rfl⟩ | ⟨_, _, rfl⟩⟩⟩ := waitFor_ok done
  · exact ⟨accounts, .refl _⟩
  · exact ⟨accounts, .refl _⟩
  · obtain ⟨announced, persists⟩ := accounts.modifyTask t (f := fun task =>
      { task with waiting := some (.task child) }) fun _ => rfl
    obtain ⟨joined, persists'⟩ := announced.modifyTask child (f := fun task =>
      { task with joiners := task.joiners.push t }) fun _ => rfl
    exact ⟨joined, persists.trans persists'⟩

theorem start (accounts : st.Accounts) (done : st.start t = .ok st') : st'.Accounts ∧ Persists st st' := by
  obtain ⟨task, found⟩ := exists_of_task done
  obtain ⟨new, st₁, counts, scheduled⟩ := start_ok found done
  have roused := accounts.filed.rouse found (.inr ⟨rfl, by simp [new]⟩)
    (becomes_modifyTask found fun task => { task with life := .ready, notified := false }) fun _ => rfl
  have first : Becomes st t { task with life := .ready, notified := false } st₁ :=
    (becomes_modifyTask found _).of_tasks (tasks_adjust counts)
  have moved : Remembers st (st.setLife t .ready) := .of_schedulers rfl
  have remembers := moved.trans (.adjust counts)
  have persists : Persists st st' := by
    refine .of_becomes found (becomes_start found done) ?_ (remembers.trans (.schedule scheduled))
    exact ⟨rfl, rfl, rfl, by simp [Task.scheduled, new, Life.isTerminal], by simp [Task.scheduled]⟩
  have home : (st.schedulers.get? task.scheduler).isSome = true := (accounts.posted found).known
  have unbound : task.bound = none := (accounts.posted found).unbound
  exact ⟨accounts.of_persists persists ((Filed.adjust roused counts).schedule first.self rfl
    unbound (remembers.known home) scheduled) (accounts.counted.start found done), persists⟩

theorem waitExternal (accounts : st.Accounts) (done : st.waitExternal t = .ok st') :
    st'.Accounts ∧ Persists st st' := by
  obtain ⟨task, found⟩ := exists_of_task done
  have counted := Counted.waitExternal accounts.counted found done
  have becomes := becomes_waitExternal found done
  obtain ⟨_, done⟩ := waitExternal_ok found done
  have announced : (st.modifyTask t fun task =>
      { task with waiting := some .external, external := true }).Filed none :=
    accounts.filed.modifyTask t fun _ => rfl
  split at done
  · subst done
    have persists : Persists st _ := .of_becomes found becomes ⟨rfl, rfl, rfl, rfl, id⟩ (.of_schedulers rfl)
    exact ⟨accounts.of_persists persists announced counted, persists⟩
  · have counts := Remembers.adjust done
    have persists : Persists st st' := .of_becomes found becomes ⟨rfl, rfl, rfl, rfl, id⟩ counts
    exact ⟨accounts.of_persists persists (announced.adjust done) counted, persists⟩

theorem addScheduler (accounts : st.Accounts) {settings : Settings} {g : RegistryId}
    {reply : Except HostError SchedulerId} (done : st.addScheduler settings g = .ok (reply, st')) :
    st'.Accounts ∧ Persists st st' := by
  rcases addScheduler_ok done with rfl | ⟨workers, rfl⟩
  · exact ⟨accounts, .refl _⟩
  · have persists : Persists st { st with schedulers := st.schedulers.add (.new settings g workers) } := by
      refine .of_tasks rfl fun s settings known => ?_
      rw [Table.get?_add_eq]
      split
      · next new => simp [new] at known
      · exact known
    refine ⟨accounts.of_persists persists (accounts.filed.congr (fun _ => rfl) ?_) ?_, persists⟩
    · exact queue_addScheduler settings g workers
    · exact accounts.counted.addScheduler (fun found => (accounts.posted found).known) settings g workers

/-- Whoever is in the queue of a scheduler is runnable, so that is not quiescent. -/
theorem queue_eq_nil (accounts : st.Accounts) {s : SchedulerId}
    (still : ∀ scheduler, st.schedulers.get? s = some scheduler → scheduler.isQuiescent = true) :
    st.queue s = [] := by
  cases known : st.schedulers.get? s with
  | none => simp [queue, known]
  | some scheduler =>
    have quiescent := still scheduler known
    have counts := accounts.counted s scheduler known .runnable
    rw [tally_eq_population] at counts
    have nobody : st.population s (fun task => task.counts .runnable) = 0 := by
      simp only [Scheduler.isQuiescent, Bool.and_eq_true, decide_eq_true_eq] at quiescent
      simp only [Scheduler.count] at counts
      omega
    refine List.eq_nil_iff_forall_not_mem.2 fun t queued => ?_
    obtain ⟨_, task, found, stands⟩ := accounts.filed.queued.1 queued
    simp only [Task.standing, Prod.mk.injEq] at stands
    have idle := population_eq_zero.1 nobody found stands.1
    simp [Task.counts, stands.2] at idle

theorem stop (accounts : st.Accounts) {s : SchedulerId} (idle : st.queue s = [])
    (done : st.stop s = .ok st') : st'.Accounts ∧ Persists st st' := by
  obtain rfl := stop_idle idle done
  have persists : Persists st (st.modifyScheduler s fun other =>
      { other with isShutDown := true, ready := .empty }) := by
    exact .of_tasks rfl (.modifyScheduler st s fun _ => rfl)
  refine ⟨accounts.of_persists persists (accounts.filed.congr (fun _ => rfl) (queue_stopped idle)) ?_,
    persists⟩
  exact Counted.modifyScheduler accounts.counted s fun _ c => by cases c <;> rfl

theorem spawn [Inhabited V] (accounts : st.Accounts) {s : SchedulerId} {entry : FrameId}
    {reply : Except HostError TaskId} (done : st.spawn s entry = .ok (reply, st')) :
    st'.Accounts ∧ Persists st st' := by
  simp only [State.spawn, bind_ok, scheduler_ok] at done
  obtain ⟨scheduler, found, done⟩ := done
  split at done
  · simp only [pure_ok, Prod.mk.injEq] at done
    exact done.2 ▸ ⟨accounts, .refl _⟩
  · simp only [pure_ok, Prod.mk.injEq] at done
    obtain ⟨_, rfl⟩ := done
    have tasks := @get?_spawned _ _ st _ s entry none
    have remembers : Remembers st ((st.addTask s entry none).2.enlist s st.tasks.next) :=
      .trans (.of_schedulers rfl) (.modifyScheduler _ s fun _ => rfl)
    have persists : Persists st ((st.addTask s entry none).2.enlist s st.tasks.next) := by
      refine ⟨fun {u task'} found' => ?_, fun {u} gone => ?_, remembers⟩
      · rw [tasks] at found'
        split at found'
        · next new =>
          obtain rfl := Option.some.inj found'
          refine .inr ⟨new ▸ Table.get?_next _, by simp [Task.new], rfl, rfl, remembers.known ?_⟩
          simp [Task.new, found]
        · exact .inl ⟨task', found', .refl task'⟩
      · rw [tasks] at gone
        split at gone
        · simp at gone
        · exact gone
    refine ⟨accounts.of_persists persists ⟨fun {u v} => ?_, fun v => ?_⟩
      (accounts.counted.spawned s entry none), persists⟩
    · refine (Iff.of_eq (congrArg (u ∈ ·) (queue_spawned s v entry none))).trans ?_
      show _ ↔ _ ∧ ∃ task, ((st.addTask s entry none).2.enlist s st.tasks.next).tasks.get? u = some task ∧ _
      rw [accounts.filed.queued, tasks]
      split
      · next same => simp [same, Task.new, Task.standing]
      · rfl
    · exact (@queue_spawned _ _ st _ s v entry none).symm ▸ accounts.filed.distinct v

end Accounts

/-- What code may ask for if nobody forces a task from one stage to another.  No task gets a thread of
its own, and a scheduler is stopped when it is quiescent. -/
def Unforced (st : State V C) : Request V C → Prop
  | .move _ _ | .spawnBound _ _ => False
  | .stop s => ∀ scheduler, st.schedulers.get? s = some scheduler → scheduler.isQuiescent = true
  | _ => True

namespace Accounts

variable [Inhabited V]

theorem serve (accounts : st.Accounts) {request : Request V C} {reply : request.Reply}
    (unforced : st.Unforced request) (done : st.serve request = .ok (reply, st')) :
    st'.Accounts ∧ Persists st st' := by
  cases request with
  | move | spawnBound => exact unforced.elim
  | spawn s entry => exact accounts.spawn done
  | start t =>
    simp only [State.serve, bind_ok, pure_ok, Prod.mk.injEq] at done
    obtain ⟨_, started, _, rfl⟩ := done
    exact accounts.start started
  | ready t =>
    simp only [State.serve, bind_ok, pure_ok, Prod.mk.injEq] at done
    obtain ⟨_, woken, _, rfl⟩ := done
    exact accounts.ready woken
  | yield t =>
    simp only [State.serve, State.yield, bind_ok, task_ok, check_ok, pure_ok, Prod.mk.injEq] at done
    obtain ⟨_, ⟨_, _, _, rfl⟩, _, rfl⟩ := done
    exact accounts.modifyTask t fun _ => rfl
  | waitExternal t =>
    simp only [State.serve, bind_ok, pure_ok, Prod.mk.injEq] at done
    obtain ⟨_, announced, _, rfl⟩ := done
    exact accounts.waitExternal announced
  | pause t f =>
    simp only [State.serve, bind_ok, pure_ok, Prod.mk.injEq] at done
    obtain ⟨_, paused, _, rfl⟩ := done
    exact accounts.aside (.of_pause paused)
  | waitFor t child => exact accounts.waitFor done
  | tryAcquire r t =>
    simp only [State.serve, State.tryAcquire, bind_ok] at done
    obtain ⟨resource, _, _, _, done⟩ := done
    split at done
    · simp only [pure_ok, Prod.mk.injEq] at done
      exact done.2 ▸ accounts.congr rfl fun _ => rfl
    · simp only [pure_ok, Prod.mk.injEq] at done
      exact done.2 ▸ ⟨accounts, .refl _⟩
  | acquire r t => exact accounts.acquire done
  | release r t =>
    simp only [State.serve, bind_ok, pure_ok, Prod.mk.injEq] at done
    obtain ⟨_, released, _, rfl⟩ := done
    exact accounts.release released
  | newScheduler settings g => exact accounts.addScheduler done
  | stop s =>
    simp only [State.serve, bind_ok, pure_ok, Prod.mk.injEq] at done
    obtain ⟨_, stopped, _, rfl⟩ := done
    exact accounts.stop (accounts.queue_eq_nil unforced) stopped
  | _ =>
    obtain ⟨tasks, schedulers, _, _⟩ := serve_bookless rfl done
    exact accounts.congr schedulers fun u => by rw [tasks]

theorem deeds (accounts : st.Accounts) (deeds : Deeds Unforced st st') : st'.Accounts ∧ Persists st st' := by
  obtain ⟨st₁, st₂, earlier, deed, later⟩ := deeds
  obtain ⟨before, persists⟩ := accounts.aside earlier
  have both : st₂.Accounts ∧ Persists st₁ st₂ := by
    cases deed with
    | aside aside => exact before.aside aside
    | serve unforced served => exact before.serve unforced served
    | acquire acquired => exact before.acquire acquired
    | release released => exact before.release released
    | waitFor waited => exact before.waitFor waited
  obtain ⟨after, persists'⟩ := both.1.aside later
  exact ⟨after, persists.trans (both.2.trans persists')⟩

/-! ## Runs of tasks -/

omit [Inhabited V] in
/-- One task changes, and remains on the books of its scheduler. -/
theorem of_becomes (accounts : st.Accounts) (found : st.tasks.get? t = some task)
    (becomes : Becomes st t task' st')
    (same : (task'.scheduler, task'.bound) = (task.scheduler, task.bound))
    (listed : task'.listed = !task'.life.isTerminal)
    (remembers : Remembers st st')
    (filed : st'.Filed none) (counted : st'.Counted fun _ _ => 0) : st'.Accounts := by
  refine ⟨filed, counted, fun {u other} found' => ?_⟩
  rw [becomes] at found'
  split at found'
  · obtain rfl := Option.some.inj found'
    obtain ⟨scheduler, bound⟩ := Prod.mk.inj same
    exact ⟨listed, bound.trans (accounts.posted found).unbound,
      scheduler ▸ remembers.known (accounts.posted found).known⟩
  · exact (accounts.posted found').stays (.refl other) remembers

omit [Inhabited V] in
/-- A worker takes up the oldest task of a queue. -/
theorem begins (accounts : st.Accounts) {s : SchedulerId} {w : Worker} {st₁ : State V C}
    (taken : st.takeReady s = .ok (some t, st₁)) (begun : st₁.beginRun t w = .ok st') :
    st'.Accounts ∧ ∃ task, st.tasks.get? t = some task ∧ task.life = .ready ∧ Becomes st t
      { task with linked := false, life := .running, notified := false, worker := some w } st' := by
  rcases takeReady_ok taken with ⟨impossible, _⟩ | ⟨u, rest, same, known, line, rfl⟩
  · simp at impossible
  obtain rfl := Option.some.inj same
  have risen := accounts.filed.rise known line
  obtain ⟨_, task, found, _⟩ := accounts.filed.queued.1 (show t ∈ st.queue s by simp [line])
  have first : Becomes st t { task with linked := false } (st.dequeued t s rest) :=
    becomes_modifyTask found _
  have counted := (Counted.dequeued accounts.counted found s rest).beginRun first.self begun
  have second := becomes_beginRun first.self begun
  obtain ⟨ready, rfl⟩ := beginRun_ok first.self begun
  have ready : task.life = .ready := ready
  have becomes := first.trans second
  have settled := (risen.rouse first.self (.inl rfl) second fun _ => rfl).settle second.self (by simp)
  have remembers := (Remembers.takeReady taken).trans (.of_schedulers rfl)
  refine ⟨accounts.of_becomes found becomes rfl ?_ remembers settled counted, task, found, ready, becomes⟩
  have listed := (accounts.posted found).entered
  simp only [ready, Life.isTerminal] at listed ⊢
  exact listed

omit [Inhabited V] in
/-- The frame of a task suspended. -/
theorem parks (accounts : st.Accounts) (done : st.park t = .ok st') :
    st'.Accounts ∧ ∃ task, st.tasks.get? t = some task ∧ task.life = .running ∧
      task.parked.life ≠ .running ∧ Becomes st t task.parked st' := by
  obtain ⟨task, found⟩ := exists_of_task done
  have counted := Counted.park accounts.counted found done
  have becomes := becomes_park found done
  have posted := accounts.posted found
  have same : (task.parked.scheduler, task.parked.bound) = (task.scheduler, task.bound) := by
    unfold Task.parked
    split <;> rfl
  obtain ⟨live, how⟩ := park_ok found done
  have listed : task.parked.listed = !task.parked.life.isTerminal := by
    have entered := posted.entered
    rw [live] at entered
    unfold Task.parked
    split <;> exact entered
  have idle : task.parked.life ≠ .running := by
    unfold Task.parked
    split <;> simp [Task.scheduled]
  refine ⟨?_, task, found, live, idle, becomes⟩
  obtain ⟨_, scheduled⟩ | ⟨_, _, counts⟩ := how
  · have first : Becomes st t { task with life := .ready, notified := false } (st.setLife t .ready) :=
      becomes_modifyTask found _
    have roused := accounts.filed.rouse found (.inr ⟨rfl, by simp [live]⟩) first fun _ => rfl
    have home : (st.schedulers.get? task.scheduler).isSome = true := posted.known
    have filed := roused.schedule first.self rfl posted.unbound home scheduled
    exact accounts.of_becomes found becomes same listed (.park done) filed counted
  · have first : Becomes st t { task with life := .waiting, notified := false } (st.setLife t .waiting) :=
      becomes_modifyTask found _
    have settled := (accounts.filed.rouse found (.inr ⟨rfl, by simp [live]⟩) first fun _ => rfl).settle
      first.self (by simp)
    exact accounts.of_becomes found becomes same listed (.park done) (Filed.adjust settled counts) counted

/-- The last frame of a task finished. -/
theorem finishes (accounts : st.Accounts) {result : Except (Error V) V}
    (done : st.finish t result = .ok st') :
    st'.Accounts ∧ st'.life t ≠ some .running ∧ ∀ u, u ≠ t → st'.life u = some .running →
      st.life u = some .running := by
  obtain ⟨task, found⟩ := exists_of_task done
  obtain ⟨live, st₁, woken, retired⟩ := finish_ok found done
  have becomes : Becomes st t (task.closed t result) (st.closed t result) := becomes_closed found
  have ended : (task.closed t result).life.isTerminal = true := isTerminal_finalLife result
  have idle : (task.closed t result).life ≠ .ready := by
    intro ready
    simp [ready, Life.isTerminal] at ended
  have settled := (accounts.filed.rouse found (.inr ⟨rfl, by simp [live]⟩) becomes fun _ => rfl).settle
    becomes.self idle
  have posted : ∀ {u other}, (st.closed t result).tasks.get? u = some other →
      other.bound = none ∧ ((st.closed t result).schedulers.get? other.scheduler).isSome = true := by
    intro u other found'
    rw [becomes] at found'
    split at found'
    · obtain rfl := Option.some.inj found'
      have home : (st.schedulers.get? task.scheduler).isSome = true := (accounts.posted found).known
      have unbound : task.bound = none := (accounts.posted found).unbound
      exact ⟨unbound, home⟩
    · exact ⟨(accounts.posted found').unbound, (accounts.posted found').known⟩
  obtain ⟨filed, counted, persists⟩ := readyAll_persists settled
    (accounts.counted.closed result found live) posted woken
  -- Nobody wakes a task that ended.
  obtain ⟨last, found₁, becomes'⟩ := becomes_retire retired
  obtain ⟨before, found₀, stays⟩ : ∃ before, (st.closed t result).tasks.get? t = some before ∧
      before.Stays last := by
    cases persists.tasks found₁ with
    | inl old => exact old
    | inr new => simp [becomes.self] at new
  obtain rfl := Option.some.inj (becomes.self.symm.trans found₀)
  have ends : last.life.isTerminal = true := stays.terminal.trans ended
  have listed : last.listed = true := by
    refine stays.listed.trans ((accounts.posted found).entered.trans ?_)
    simp [live, Life.isTerminal]
  have counted' : st₁.Counted (shift (fun _ _ => 0) last.scheduler .runnable 1) :=
    stays.scheduler ▸ counted
  have remembers : Remembers st₁ st' := .retire retired
  refine ⟨⟨filed.retire retired, counted'.retire found₁ ends listed retired, fun {u other} found' => ?_⟩,
    ?_, fun u different live' => ?_⟩
  · rw [becomes'] at found'
    split at found'
    · obtain rfl := Option.some.inj found'
      have posted₁ := posted found₀
      exact ⟨by simp [ends], stays.bound.trans posted₁.1,
        stays.scheduler ▸ remembers.known (persists.remembers.known posted₁.2)⟩
    · next different =>
      cases persists.tasks found' with
      | inr new => exact new.2.2.stays (.refl other) remembers
      | inl old =>
        obtain ⟨task', found'', stays'⟩ := old
        rw [becomes.other different] at found''
        exact (accounts.posted found'').stays stays' (.trans (.trans (.of_schedulers rfl) persists.remembers) remembers)
  · simp only [State.life, becomes'.self, Option.map_some, ne_eq, Option.some.injEq]
    intro same
    simp [same, Life.isTerminal] at ends
  · have earlier := persists.idle ((congrArg (Option.map Task.life) (becomes'.other different)).symm.trans
      live')
    exact (congrArg (Option.map Task.life) (becomes.other different)).symm.trans earlier

end Accounts

end State

end Tasking
