import Tasking.Proofs.Touching

/-! # Lists, queues and counters

Whatever code does that forges nothing, the counters of the schedulers are exact, a task is on the list of its
scheduler from its start to its end, and whoever is in a ready queue is ready and there once (`State.Kept`).
That holds for tasks with threads of their own, and for schedulers that are stopped at any time, too.

No deed brings a task to its end, or changes how one ended (`State.KeepsEnds`); only the finish of a task's
last frame does.
-/

namespace Tasking

variable {V C : Type}

/-- How a task ended that is at its end, and whether it counts as waiting for an event outside. -/
def Task.ending? (task : Task V) : Option ((SchedulerId × Life) × Bool) :=
  if task.life.isTerminal then some (task.standing, task.external) else none

theorem Task.ending?_of_account {task task' : Task V} (same : task'.account = task.account) :
    task'.ending? = task.ending? := by
  simp only [Task.account, Task.standing, Prod.mk.injEq] at same
  unfold Task.ending? Task.standing
  rw [same.1.1, same.1.2, same.2.2.2]

/-- A task is on the list of its scheduler from its start to its end.  Before its start it may be missing: a
task that was to have a thread of its own, and got none, is handed out to nobody. -/
def Task.Listed (task : Task V) : Prop :=
  if task.life.isTerminal = true then task.listed = false else task.life = .init ∨ task.listed = true

namespace Task.Listed

variable {task : Task V}

theorem of_live (live : task.life.isTerminal = false) (listed : task.listed = true) : task.Listed := by
  rw [Task.Listed, if_neg (by simp [live])]
  exact .inr listed

theorem woken (listed : task.Listed) : task.woken.Listed := by
  unfold Task.Listed Task.woken at *
  split
  · next parked => simpa [parked, Life.isTerminal, Task.scheduled] using listed
  · exact listed

theorem iterate_woken (listed : task.Listed) (n : Nat) : (Task.woken^[n] task).Listed := by
  induction n generalizing task with
  | zero => exact listed
  | succ n inductionHypothesis => exact inductionHypothesis listed.woken

end Task.Listed

namespace State

variable {st st' st'' : State V C} {t : TaskId} {task task' : Task V}

/-! ## Ready queues -/

/-- Whoever is in a ready queue is ready, belongs there, and is there once. -/
structure Queued (st : State V C) : Prop where
  ready : ∀ {t s}, t ∈ st.queue s →
    ∃ task, st.tasks.get? t = some task ∧ task.standing = (s, .ready) ∧ task.bound = none
  once : ∀ s, (st.queue s).Nodup

namespace Queued

/-- One task changes, and may get in line when it becomes ready. -/
theorem change (queued : st.Queued) (found : st.tasks.get? t = some task) (becomes : Becomes st t task' st')
    (same : (task'.scheduler, task'.bound) = (task.scheduler, task.bound))
    (stays : task.life = .ready → task'.life = .ready)
    (queue : ∀ s, st'.queue s = st.queue s ∨ (task.life ≠ .ready ∧ task'.standing = (s, .ready) ∧
      task'.bound = none) ∧ st'.queue s = st.queue s ++ [t]) : st'.Queued where
  ready {u s} member := by
    obtain ⟨scheduler, bound⟩ := Prod.mk.inj same
    have before : u ∈ st.queue s → ∃ task, st'.tasks.get? u = some task ∧ task.standing = (s, .ready) ∧
        task.bound = none := by
      intro old
      obtain ⟨other, found', stands, unbound⟩ := queued.ready old
      by_cases here : u = t
      · subst here
        obtain rfl := Option.some.inj (found.symm.trans found')
        simp only [Task.standing, Prod.mk.injEq] at stands
        refine ⟨task', becomes.self, ?_, bound.trans unbound⟩
        rw [Task.standing, scheduler, stands.1, stays stands.2]
      · exact ⟨other, (becomes.other here).trans found', stands, unbound⟩
    rcases queue s with still | ⟨⟨_, stands, unbound⟩, longer⟩
    · exact before (still ▸ member)
    · rw [longer, List.mem_append, List.mem_singleton] at member
      rcases member with old | rfl
      · exact before old
      · exact ⟨task', becomes.self, stands, unbound⟩
  once s := by
    rcases queue s with still | ⟨⟨idle, _⟩, longer⟩
    · exact still ▸ queued.once s
    · -- A task that was not ready was in no queue.
      have out : t ∉ st.queue s := fun inside => by
        obtain ⟨other, found', stands, _⟩ := queued.ready inside
        obtain rfl := Option.some.inj (found.symm.trans found')
        exact idle (congrArg Prod.snd stands)
      rw [longer]
      exact (queued.once s).append (List.nodup_singleton t) (List.disjoint_singleton.2 out)

/-- Queues only got shorter. -/
theorem shrink (queued : st.Queued)
    (same : ∀ u, (st'.tasks.get? u).map Task.account = (st.tasks.get? u).map Task.account)
    (queue : ∀ s, (st'.queue s).Sublist (st.queue s)) : st'.Queued where
  ready {u s} member := by
    obtain ⟨task, found, stands, unbound⟩ := queued.ready ((queue s).subset member)
    have equal := same u
    rw [found] at equal
    obtain ⟨task', found', same'⟩ := Option.map_eq_some_iff.1 equal
    simp only [Task.account, Prod.mk.injEq] at same'
    exact ⟨task', found', same'.1.trans stands, same'.2.2.1.trans unbound⟩
  once s := (queued.once s).sublist (queue s)

/-- A task without a place in any queue may be taken up or come to its end. -/
theorem leave (queued : st.Queued) (becomes : Becomes st t task' st') (out : ∀ s, t ∉ st.queue s)
    (queue : ∀ s, st'.queue s = st.queue s) : st'.Queued where
  ready {u s} member := by
    rw [queue] at member
    have here : u ≠ t := fun same => out s (same ▸ member)
    obtain ⟨task, found, stands⟩ := queued.ready member
    exact ⟨task, (becomes.other here).trans found, stands⟩
  once s := queue s ▸ queued.once s

theorem notMem (queued : st.Queued) (found : st.tasks.get? t = some task) (idle : task.life ≠ .ready)
    (s : SchedulerId) : t ∉ st.queue s := fun inside => by
  obtain ⟨other, found', stands, _⟩ := queued.ready inside
  obtain rfl := Option.some.inj (found.symm.trans found')
  exact idle (congrArg Prod.snd stands)

/-- Waking a task puts it in line at the end, if it was parked. -/
theorem wake (queued : st.Queued) (found : st.tasks.get? t = some task) (done : st.ready t = .ok st') :
    st'.Queued := by
  have stays : task.life = .ready → task.woken.life = .ready := fun ready => by
    rcases ready_ok found done with ⟨live, _⟩ | ⟨live, _⟩ <;> simp [live] at ready
  refine queued.change found (becomes_ready found done) ?_ stays fun s => ?_
  · unfold Task.woken
    split <;> rfl
  · rw [queue_ready found done s]
    split
    · next parked =>
      simp only [State.queues, found, Option.any_some, Bool.and_eq_true, decide_eq_true_eq,
        Option.isNone_iff_eq_none] at parked
      obtain ⟨⟨live, unbound⟩, home⟩ := parked
      refine .inr ⟨⟨by simp [live], ?_, ?_⟩, rfl⟩
      · simp [Task.woken, live, Task.standing, Task.scheduled, home]
      · simp [Task.woken, live, Task.scheduled, unbound]
    · exact .inl (List.append_nil _)

theorem wakeAll {ts : List TaskId} (queued : st.Queued) (done : st.readyAll ts = .ok st') : st'.Queued := by
  induction ts generalizing st with
  | nil => exact pure_ok.1 done ▸ queued
  | cons t ts inductionHypothesis =>
    simp only [readyAll, bind_ok] at done
    obtain ⟨st₁, woken, later⟩ := done
    obtain ⟨task, found⟩ := exists_of_task woken
    exact inductionHypothesis (queued.wake found woken) later

end Queued

/-- Handing a ready task to whoever runs it. -/
theorem queue_schedule (found : st.tasks.get? t = some task)
    (known : (st.schedulers.get? task.scheduler).isSome = true) (done : st.schedule t = .ok st')
    (s : SchedulerId) : st'.queue s = st.queue s ∨
      (task.scheduler = s ∧ task.bound = none) ∧ st'.queue s = st.queue s ++ [t] := by
  obtain ⟨task', found', ⟨_, rfl⟩ | ⟨unbound, _, rfl⟩⟩ := schedule_ok done
  · exact .inl rfl
  · obtain rfl := Option.some.inj (found.symm.trans found')
    rw [queue_enqueued known]
    split
    · next here => exact .inr ⟨⟨here.symm, by simpa using unbound⟩, by rw [here]⟩
    · exact .inl rfl

/-! ## The books -/

/-- The counters are exact, and tasks are on their lists and in their queues. -/
structure Kept (st : State V C) : Prop extends Queued st where
  counted : st.Counted fun _ _ => 0
  listed : ∀ {t task}, st.tasks.get? t = some task → task.Listed
  known : ∀ {t task}, st.tasks.get? t = some task → (st.schedulers.get? task.scheduler).isSome = true

/-- How a task ended, if it is at its end. -/
def ending? (st : State V C) (t : TaskId) : Option ((SchedulerId × Life) × Bool) :=
  (st.tasks.get? t).bind Task.ending?

/-- Tasks that are at their end stay as they ended, and nobody else comes to its end. -/
def KeepsEnds (st st' : State V C) : Prop := ∀ u, st'.ending? u = st.ending? u

namespace KeepsEnds

theorem trans (first : KeepsEnds st st') (second : KeepsEnds st' st'') : KeepsEnds st st'' :=
  fun u => (second u).trans (first u)

theorem of_same (same : ∀ u, (st'.tasks.get? u).map Task.account = (st.tasks.get? u).map Task.account) :
    KeepsEnds st st' := by
  intro u
  have equal := same u
  unfold State.ending?
  cases found : st.tasks.get? u with
  | none =>
    rw [found] at equal
    rw [Option.map_eq_none_iff.1 equal]
  | some task =>
    rw [found] at equal
    obtain ⟨task', found', same'⟩ := Option.map_eq_some_iff.1 equal
    rw [found']
    exact Task.ending?_of_account same'

/-- Only one task changes, which is not at its end before or after. -/
theorem of_becomes (found : st.tasks.get? t = some task) (becomes : Becomes st t task' st')
    (live : task.life.isTerminal = false) (live' : task'.life.isTerminal = false) : KeepsEnds st st' := by
  intro u
  unfold State.ending?
  rw [becomes]
  split
  · next here => simp [here, found, Task.ending?, live, live']
  · rfl

end KeepsEnds

namespace Kept

/-- Nothing changes that the books speak of, except that queues may get shorter. -/
theorem shrink (kept : st.Kept)
    (same : ∀ u, (st'.tasks.get? u).map Task.account = (st.tasks.get? u).map Task.account)
    (queue : ∀ s, (st'.queue s).Sublist (st.queue s)) (remembers : Remembers st st')
    (counted : st'.Counted fun _ _ => 0) : st'.Kept ∧ KeepsEnds st st' := by
  have back : ∀ {u task'}, st'.tasks.get? u = some task' →
      ∃ task, st.tasks.get? u = some task ∧ task'.account = task.account := fun {u task'} found' => by
    have equal := same u
    rw [found'] at equal
    obtain ⟨task, found, same'⟩ := Option.map_eq_some_iff.1 equal.symm
    exact ⟨task, found, same'.symm⟩
  refine ⟨⟨kept.toQueued.shrink same queue, counted, fun found' => ?_, fun found' => ?_⟩, KeepsEnds.of_same same⟩
  · obtain ⟨task, found, same'⟩ := back found'
    simp only [Task.account, Task.standing, Prod.mk.injEq] at same'
    have listed := kept.listed found
    simpa only [Task.Listed, same'] using listed
  · obtain ⟨task, found, same'⟩ := back found'
    simp only [Task.account, Task.standing, Prod.mk.injEq] at same'
    exact same'.1.1 ▸ remembers.known (kept.known found)

theorem congr (kept : st.Kept) (schedulers : st'.schedulers = st.schedulers)
    (same : ∀ u, (st'.tasks.get? u).map Task.account = (st.tasks.get? u).map Task.account) :
    st'.Kept ∧ KeepsEnds st st' := by
  refine kept.shrink same (fun s => ?_) (.of_schedulers schedulers)
    (Counted.of_account kept.counted schedulers same)
  rw [State.queue, schedulers, State.queue]

theorem modifyTask (kept : st.Kept) (t : TaskId) {f : Task V → Task V}
    (keeps : ∀ task, (f task).account = task.account) :
    (st.modifyTask t f).Kept ∧ KeepsEnds st (st.modifyTask t f) := by
  refine kept.congr rfl fun u => ?_
  rw [get?_modifyTask]
  split
  · next same =>
    subst same
    rw [Option.map_map]
    exact congrArg (Option.map · _) (funext keeps)
  · rfl

theorem aside (kept : st.Kept) (aside : Aside st st') : st'.Kept ∧ KeepsEnds st st' := by
  refine kept.congr aside.schedulers fun u => ?_
  have rel := aside.tasks u
  revert rel
  generalize st.tasks.get? u = before
  generalize st'.tasks.get? u = after
  intro rel
  cases rel with
  | none => rfl
  | some same =>
    rw [same]
    rfl

/-- One task changes, which is not at its end before or after. -/
theorem change (kept : st.Kept) (found : st.tasks.get? t = some task) (becomes : Becomes st t task' st')
    (same : (task'.scheduler, task'.bound) = (task.scheduler, task.bound))
    (live : task.life.isTerminal = false) (live' : task'.life.isTerminal = false)
    (listed : task'.listed = true) (queued : st'.Queued) (remembers : Remembers st st')
    (counted : st'.Counted fun _ _ => 0) : st'.Kept ∧ KeepsEnds st st' := by
  obtain ⟨scheduler, _⟩ := Prod.mk.inj same
  refine ⟨⟨queued, counted, fun {u other} found' => ?_, fun {u other} found' => ?_⟩,
    KeepsEnds.of_becomes found becomes live live'⟩
  · rw [becomes] at found'
    split at found'
    · exact Option.some.inj found' ▸ .of_live live' listed
    · exact kept.listed found'
  · rw [becomes] at found'
    split at found'
    · obtain rfl := Option.some.inj found'
      exact scheduler ▸ remembers.known (kept.known found)
    · exact remembers.known (kept.known found')

/-- A task that is neither new nor at its end is on the list. -/
theorem listed_of (kept : st.Kept) (found : st.tasks.get? t = some task)
    (live : task.life.isTerminal = false) (begun : task.life ≠ .init) : task.listed = true := by
  have listed := kept.listed found
  rw [Task.Listed, if_neg (by simp [live])] at listed
  exact listed.resolve_left begun

/-- A task is created, and no queue changes. -/
theorem of_new (kept : st.Kept) {new : Task V}
    (tasks : ∀ u, st'.tasks.get? u = if u = st.tasks.next then some new else st.tasks.get? u)
    (idle : new.life = .init) (queue : ∀ s, st'.queue s = st.queue s) (remembers : Remembers st st')
    (known : (st'.schedulers.get? new.scheduler).isSome = true) (counted : st'.Counted fun _ _ => 0) :
    st'.Kept ∧ KeepsEnds st st' := by
  have old : ∀ {u task}, st.tasks.get? u = some task → st'.tasks.get? u = some task := by
    intro u task found
    rw [tasks, if_neg (Table.ne_next_of_get? found), found]
  refine ⟨⟨⟨fun {u s} member => ?_, fun s => queue s ▸ kept.once s⟩, counted, fun {u task} found => ?_,
    fun {u task} found => ?_⟩, fun u => ?_⟩
  · rw [queue] at member
    obtain ⟨task, found, stands⟩ := kept.ready member
    exact ⟨task, old found, stands⟩
  · rw [tasks] at found
    split at found
    · obtain rfl := Option.some.inj found
      simp [Task.Listed, idle, Life.isTerminal]
    · exact kept.listed found
  · rw [tasks] at found
    split at found
    · exact Option.some.inj found ▸ known
    · exact remembers.known (kept.known found)
  · unfold State.ending?
    rw [tasks]
    split
    · next fresh => simp [fresh, Task.ending?, idle, Life.isTerminal]
    · rfl

/-! ### Operations -/

theorem wake (kept : st.Kept) (done : st.ready t = .ok st') : st'.Kept ∧ KeepsEnds st st' := by
  obtain ⟨task, found⟩ := exists_of_task done
  have stays := Task.Stays.woken task
  have live : task.life.isTerminal = false ∧ task.life ≠ .init := by
    rcases ready_ok found done with ⟨live, _⟩ | ⟨live, _⟩ <;> simp [live, Life.isTerminal]
  have listed := kept.listed_of found live.1 live.2
  exact kept.change found (becomes_ready found done) (Prod.ext stays.scheduler stays.bound) live.1
    (stays.terminal.trans live.1) (stays.listed.trans listed) (kept.toQueued.wake found done) (.ready found done)
    (Counted.ready kept.counted found done)

theorem acquire (kept : st.Kept) {r : ResourceId} {granted : Except Deadlock Grant}
    (done : st.acquire r t = .ok (granted, st')) : st'.Kept ∧ KeepsEnds st st' := by
  obtain ⟨_, _, ⟨_, _, rfl⟩ | ⟨_, ⟨_, _, _, rfl⟩ | ⟨_, _, _, rfl⟩⟩⟩ := acquire_ok done
  · exact kept.congr rfl fun _ => rfl
  · exact kept.congr rfl fun _ => rfl
  · obtain ⟨announced, keeps⟩ := kept.modifyTask t (f := fun task =>
      { task with waiting := some (.resource r) }) fun _ => rfl
    obtain ⟨linked, keeps'⟩ := announced.modifyTask t (f := fun task =>
      { task with linked := true }) fun _ => rfl
    obtain ⟨entered, keeps''⟩ : ((st.announceWait t (.resource r)).inLine t r).Kept ∧
        KeepsEnds _ ((st.announceWait t (.resource r)).inLine t r) := linked.congr rfl fun _ => rfl
    exact ⟨entered, keeps.trans (keeps'.trans keeps'')⟩

theorem release (kept : st.Kept) {r : ResourceId} (done : st.release r t = .ok st') :
    st'.Kept ∧ KeepsEnds st st' := by
  obtain ⟨_, _, ⟨_, rfl⟩ | ⟨next, rest, _, woken⟩⟩ := release_ok done
  · exact kept.congr rfl fun _ => rfl
  · obtain ⟨unlinked, keeps⟩ := kept.modifyTask next (f := fun task =>
      { task with linked := false }) fun _ => rfl
    obtain ⟨handed, keeps'⟩ : (st.handed next r rest).Kept ∧ KeepsEnds _ (st.handed next r rest) :=
      unlinked.congr rfl fun _ => rfl
    obtain ⟨awake, keeps''⟩ := handed.wake woken
    exact ⟨awake, keeps.trans (keeps'.trans keeps'')⟩

theorem waitFor (kept : st.Kept) {child : TaskId} {reply : Except Deadlock (Option (Outcome V))}
    (done : st.waitFor t child = .ok (reply, st')) : st'.Kept ∧ KeepsEnds st st' := by
  obtain ⟨_, _, ⟨_, _, rfl⟩ | ⟨_, ⟨_, _, _, rfl⟩ | ⟨_, _, rfl⟩⟩⟩ := waitFor_ok done
  · exact kept.congr rfl fun _ => rfl
  · exact kept.congr rfl fun _ => rfl
  · obtain ⟨announced, keeps⟩ := kept.modifyTask t (f := fun task =>
      { task with waiting := some (.task child) }) fun _ => rfl
    obtain ⟨joined, keeps'⟩ := announced.modifyTask child (f := fun task =>
      { task with joiners := task.joiners.push t }) fun _ => rfl
    exact ⟨joined, keeps.trans keeps'⟩

/-- A task is started that was handed out. -/
theorem start (kept : st.Kept) (found : st.tasks.get? t = some task) (listed : task.listed = true)
    (done : st.start t = .ok st') : st'.Kept ∧ KeepsEnds st st' := by
  obtain ⟨new, st₁, counts, scheduled⟩ := start_ok found done
  have first : Becomes st t { task with life := .ready, notified := false } st₁ :=
    (becomes_modifyTask found _).of_tasks (tasks_adjust counts)
  have moved : Remembers st (st.setLife t .ready) := .of_schedulers rfl
  have remembers := moved.trans (.adjust counts)
  have queue : ∀ s, st₁.queue s = st.queue s := fun s => (sitters_adjust counts (.queue s)).trans rfl
  have queued : st'.Queued := by
    refine kept.toQueued.change found (becomes_start found done) rfl (by simp [new]) fun s => ?_
    have home : (st.schedulers.get? task.scheduler).isSome = true := kept.known found
    rcases queue_schedule first.self (remembers.known home) scheduled s with still | joins
    · exact .inl (still.trans (queue s))
    · obtain ⟨⟨home, unbound⟩, longer⟩ := joins
      exact .inr ⟨⟨by simp [new], congrArg (·, Life.ready) home, unbound⟩, longer.trans (by rw [queue])⟩
  exact kept.change found (becomes_start found done) rfl (by simp [new, Life.isTerminal])
    rfl listed queued (remembers.trans (.schedule scheduled)) (Counted.start kept.counted found done)

theorem waitExternal (kept : st.Kept) (done : st.waitExternal t = .ok st') : st'.Kept ∧ KeepsEnds st st' := by
  obtain ⟨task, found⟩ := exists_of_task done
  have becomes := becomes_waitExternal found done
  have counted := Counted.waitExternal kept.counted found done
  obtain ⟨live, done⟩ := waitExternal_ok found done
  have listed := kept.listed_of found (by simp [live, Life.isTerminal]) (by simp [live])
  have schedulers : Remembers st st' ∧ ∀ s, st'.queue s = st.queue s := by
    split at done
    · exact done ▸ ⟨.of_schedulers rfl, fun _ => rfl⟩
    · have announced : Remembers st (st.modifyTask t fun task =>
          { task with waiting := some .external, external := true }) := .of_schedulers rfl
      exact ⟨announced.trans (.adjust done), fun s => (sitters_adjust done (.queue s)).trans rfl⟩
  have queued : st'.Queued :=
    kept.toQueued.change found becomes rfl id fun s => .inl (schedulers.2 s)
  exact kept.change found becomes rfl (by simp [live, Life.isTerminal])
    (by simp [live, Life.isTerminal]) listed queued schedulers.1 counted

theorem addScheduler (kept : st.Kept) {settings : Settings} {g : RegistryId}
    {reply : Except HostError SchedulerId} (done : st.addScheduler settings g = .ok (reply, st')) :
    st'.Kept ∧ KeepsEnds st st' := by
  rcases addScheduler_ok done with rfl | ⟨workers, rfl⟩
  · exact kept.congr rfl fun _ => rfl
  · have remembers : Remembers st { st with schedulers := st.schedulers.add (.new settings g workers) } := by
      intro s settings known
      rw [Table.get?_add_eq]
      split
      · next new => simp [new] at known
      · exact known
    exact kept.shrink (fun _ => rfl) (fun s => by rw [queue_addScheduler]) remembers
      (Counted.addScheduler kept.counted kept.known settings g workers)

theorem modifyScheduler (kept : st.Kept) (s : SchedulerId) {f : Scheduler → Scheduler}
    (settings : ∀ scheduler, (f scheduler).settings = scheduler.settings)
    (ready : ∀ scheduler, (f scheduler).ready = scheduler.ready)
    (count : ∀ scheduler c, (f scheduler).count c = scheduler.count c) :
    (st.modifyScheduler s f).Kept ∧ KeepsEnds st (st.modifyScheduler s f) :=
  kept.shrink (fun _ => rfl) (fun u => by rw [queue_modifyScheduler ready]) (.modifyScheduler st s settings)
    (Counted.modifyScheduler kept.counted s count)

theorem dropLinks (kept : st.Kept) (ts : List TaskId) :
    (st.dropLinks ts).Kept ∧ KeepsEnds st (st.dropLinks ts) := by
  induction ts generalizing st with
  | nil => exact kept.congr rfl fun _ => rfl
  | cons t ts inductionHypothesis =>
    obtain ⟨dropped, keeps⟩ := kept.modifyTask t (f := fun task => { task with linked := false }) fun _ => rfl
    obtain ⟨kept', keeps'⟩ := inductionHypothesis dropped
    exact ⟨kept', keeps.trans keeps'⟩

/-- A scheduler is stopped.  The tasks that it drops remain ready, and on its list. -/
theorem stop (kept : st.Kept) {s : SchedulerId} (done : st.stop s = .ok st') : st'.Kept ∧ KeepsEnds st st' := by
  simp only [State.stop, bind_ok, scheduler_ok, pure_ok] at done
  obtain ⟨scheduler, found, rfl⟩ := done
  obtain ⟨closed, keeps⟩ : (st.modifyScheduler s fun s => { s with isShutDown := true, ready := .empty }).Kept ∧
      KeepsEnds st (st.modifyScheduler s fun s => { s with isShutDown := true, ready := .empty }) := by
    refine kept.shrink (fun _ => rfl) (fun u => ?_) (.modifyScheduler st s fun _ => rfl)
      (Counted.modifyScheduler kept.counted s fun _ c => by cases c <;> rfl)
    unfold State.queue
    rw [get?_modifyScheduler]
    split
    · cases st.schedulers.get? s with
      | none => exact List.nil_sublist _
      | some other => exact List.nil_sublist _
    · exact List.Sublist.refl _
  obtain ⟨kept', keeps'⟩ := closed.dropLinks scheduler.ready.toList
  exact ⟨kept', keeps.trans keeps'⟩

section Spawning

variable [Inhabited V]

theorem addTask (kept : st.Kept) {s : SchedulerId} (entry : FrameId) (own : Option Nat)
    (known : (st.schedulers.get? s).isSome = true) :
    (st.addTask s entry own).2.Kept ∧ KeepsEnds st (st.addTask s entry own).2 :=
  kept.of_new (Table.get?_add_eq _ _) rfl (fun _ => rfl) (.of_schedulers rfl) known
    (Counted.addTable kept.counted (.new s entry own) fun s c => by
      cases c <;> simp [Task.weight, Task.counts, Task.new])

theorem spawned (kept : st.Kept) {s : SchedulerId} (entry : FrameId) (own : Option Nat)
    (known : (st.schedulers.get? s).isSome = true) :
    ((st.addTask s entry own).2.enlist s st.tasks.next).Kept ∧
      KeepsEnds st ((st.addTask s entry own).2.enlist s st.tasks.next) := by
  have remembers : Remembers st ((st.addTask s entry own).2.enlist s st.tasks.next) :=
    .trans (.of_schedulers rfl) (.modifyScheduler _ s fun _ => rfl)
  exact kept.of_new (get?_spawned s entry own) rfl (fun u => queue_spawned s u entry own) remembers
    (remembers.known known) (Counted.spawned kept.counted s entry own)

theorem spawn (kept : st.Kept) {s : SchedulerId} {entry : FrameId} {reply : Except HostError TaskId}
    (done : st.spawn s entry = .ok (reply, st')) : st'.Kept ∧ KeepsEnds st st' := by
  simp only [State.spawn, bind_ok, scheduler_ok] at done
  obtain ⟨scheduler, found, done⟩ := done
  split at done
  · simp only [pure_ok, Prod.mk.injEq] at done
    exact done.2 ▸ kept.congr rfl fun _ => rfl
  · simp only [pure_ok, Prod.mk.injEq] at done
    obtain ⟨_, rfl⟩ := done
    exact kept.spawned entry none (by simp [found])

theorem spawnBound (kept : st.Kept) {s : SchedulerId} {entry : FrameId} {reply : Except HostError TaskId}
    (done : st.spawnBound s entry = .ok (reply, st')) : st'.Kept ∧ KeepsEnds st st' := by
  simp only [State.spawnBound, bind_ok, scheduler_ok] at done
  obtain ⟨scheduler, found, done⟩ := done
  split at done
  · simp only [pure_ok, Prod.mk.injEq] at done
    exact done.2 ▸ kept.congr rfl fun _ => rfl
  obtain ⟨numbered, keeps⟩ := kept.modifyScheduler s (f := fun other =>
    { other with nextThread := scheduler.nextThread + 1 }) (fun _ => rfl) (fun _ => rfl)
    fun _ c => by cases c <;> rfl
  split at done
  · -- The thread was refused: the task exists, but it is on no list.
    obtain rfl := congrArg Prod.snd (pure_ok.1 done)
    obtain ⟨kept', added⟩ := numbered.addTask entry (some scheduler.nextThread) (s := s) (by
      simp [isSome_modifyScheduler, found])
    exact ⟨kept', keeps.trans added⟩
  · simp at done
  · simp only [bind_ok, pure_ok, Prod.mk.injEq] at done
    obtain ⟨st₁, begun, _, rfl⟩ := done
    obtain ⟨noted, notes⟩ := numbered.modifyScheduler s (f := fun other =>
      { other with bound := other.bound ++ [st.tasks.next] }) (fun _ => rfl) (fun _ => rfl)
      fun _ c => by cases c <;> rfl
    obtain ⟨entered, enters⟩ := noted.spawned entry (some scheduler.nextThread) (s := s) (by
      simp [isSome_modifyScheduler, found])
    obtain ⟨kept', starts⟩ := entered.start ((get?_spawned s entry _ _).trans (if_pos rfl)) rfl begun
    exact ⟨kept', keeps.trans (notes.trans (enters.trans starts))⟩

end Spawning

/-! ### Runs of tasks -/

/-- A task in no queue is taken up. -/
theorem beginRun (kept : st.Kept) {w : Worker} (found : st.tasks.get? t = some task)
    (out : ∀ s, t ∉ st.queue s) (done : st.beginRun t w = .ok st') : st'.Kept ∧ KeepsEnds st st' := by
  have becomes := becomes_beginRun found done
  have counted := Counted.beginRun kept.counted found done
  obtain ⟨ready, rfl⟩ := beginRun_ok found done
  have listed := kept.listed_of found (by simp [ready, Life.isTerminal]) (by simp [ready])
  exact kept.change found becomes rfl (by simp [ready, Life.isTerminal]) rfl listed
    (kept.toQueued.leave becomes out fun _ => rfl) (.of_schedulers rfl) counted

/-- The oldest task of a queue is taken out. -/
theorem takeReady (kept : st.Kept) {s : SchedulerId} (done : st.takeReady s = .ok (some t, st')) :
    st'.Kept ∧ KeepsEnds st st' ∧ (∃ task, st'.tasks.get? t = some task) ∧ ∀ v, t ∉ st'.queue v := by
  have remembers := Remembers.takeReady done
  rcases takeReady_ok done with ⟨impossible, _⟩ | ⟨u, rest, same, known, line, rfl⟩
  · simp at impossible
  obtain rfl := Option.some.inj same
  have once := kept.once s
  rw [line, List.nodup_cons] at once
  obtain ⟨task, found, stands, _⟩ := kept.ready (show t ∈ st.queue s by simp [line])
  have becomes : Becomes st t { task with linked := false } (st.dequeued t s rest) :=
    becomes_modifyTask found _
  have shorter : ∀ v, ((st.dequeued t s rest).queue v).Sublist (st.queue v) := by
    intro v
    rw [queue_dequeued known]
    split
    · next here => exact here ▸ line ▸ List.sublist_cons_self t rest.toList
    · exact List.Sublist.refl _
  have same : ∀ u, ((st.dequeued t s rest).tasks.get? u).map Task.account = (st.tasks.get? u).map Task.account := by
    intro u
    rw [becomes]
    split
    · next here => rw [here, found]; rfl
    · rfl
  obtain ⟨kept', keeps⟩ := kept.shrink same shorter remembers (Counted.dequeued kept.counted found s rest)
  refine ⟨kept', keeps, ⟨_, becomes.self⟩, fun v => ?_⟩
  rw [queue_dequeued known]
  split
  · exact once.1
  · next other =>
    intro inside
    obtain ⟨task', found', stands', _⟩ := kept.ready inside
    obtain rfl := Option.some.inj (found.symm.trans found')
    exact other (congrArg Prod.fst (stands'.symm.trans stands))

theorem park (kept : st.Kept) (done : st.park t = .ok st') : st'.Kept ∧ KeepsEnds st st' := by
  obtain ⟨task, found⟩ := exists_of_task done
  have becomes := becomes_park found done
  obtain ⟨live, how⟩ := park_ok found done
  have listed := kept.listed_of found (by simp [live, Life.isTerminal]) (by simp [live])
  have same : (task.parked.scheduler, task.parked.bound) = (task.scheduler, task.bound) := by
    unfold Task.parked
    split <;> rfl
  have queued : st'.Queued := by
    refine kept.toQueued.change found becomes same (by simp [live]) fun s => ?_
    rcases how with ⟨noted, scheduled⟩ | ⟨_, _, counts⟩
    · have first : Becomes st t { task with life := .ready, notified := false } (st.setLife t .ready) :=
        becomes_modifyTask found _
      have home : (st.schedulers.get? task.scheduler).isSome = true := kept.known found
      refine (queue_schedule first.self home scheduled s).imp id fun entered => ?_
      obtain ⟨⟨own, unbound⟩, longer⟩ := entered
      refine ⟨⟨by simp [live], ?_, ?_⟩, longer⟩
      · rw [Task.parked, if_pos noted]
        exact congrArg (·, Life.ready) own
      · rw [Task.parked, if_pos noted]
        exact unbound
    · exact .inl ((sitters_adjust counts (.queue s)).trans rfl)
  have lists : task.parked.life.isTerminal = false ∧ task.parked.listed = true := by
    unfold Task.parked
    split
    · exact ⟨rfl, listed⟩
    · exact ⟨rfl, listed⟩
  exact kept.change found becomes same (by simp [live, Life.isTerminal]) lists.1 lists.2 queued (.park done)
    (Counted.park kept.counted found done)

theorem counted_readyAll {ahead : SchedulerId → Counter → Int} {ts : List TaskId} (counted : st.Counted ahead)
    (done : st.readyAll ts = .ok st') : st'.Counted ahead := by
  induction ts generalizing st with
  | nil => exact pure_ok.1 done ▸ counted
  | cons t ts inductionHypothesis =>
    simp only [State.readyAll, bind_ok] at done
    obtain ⟨st₁, woken, later⟩ := done
    obtain ⟨task, found⟩ := exists_of_task woken
    exact inductionHypothesis (Counted.ready counted found woken) later

/-- A task ends, and those that joined it are woken.  It leaves the list of its scheduler, but is still
counted as waiting for an event outside if it was before. -/
theorem finish [Inhabited V] (kept : st.Kept) {result : Except (Error V) V} (done : st.finish t result = .ok st') :
    st'.Kept ∧ (∀ u, u ≠ t → st'.ending? u = st.ending? u) ∧ ∃ task, st.tasks.get? t = some task ∧
      task.life = .running ∧ st'.ending? t = some ((task.scheduler, finalLife result), task.external) := by
  obtain ⟨task, found⟩ := exists_of_task done
  have ends := ends_of_finish found (becomes_refl found) rfl rfl rfl rfl done
  have remembers := Remembers.finish done
  obtain ⟨live, st₁, woken, retired⟩ := finish_ok found done
  have listed : task.listed = true :=
    kept.listed_of found (by simp [live, Life.isTerminal]) (by simp [live])
  have closes : Becomes st t (task.closed t result) (st.closed t result) := becomes_closed found
  have ended : (task.closed t result).life.isTerminal = true := isTerminal_finalLife result
  -- Nobody wakes the task itself.
  obtain ⟨last, found₁, retires⟩ := becomes_retire retired
  have line : task.joiners.toList = st.joiners t := (joiners_of_get? found).symm
  have same : last = task.closed t result := by
    have count : task.joiners.toList.count t = 0 :=
      List.count_eq_zero_of_not_mem fun joins => (ends.awake (line ▸ joins)).1 rfl
    rw [get?_readyAll woken, closes.self, count] at found₁
    exact (Option.some.inj found₁).symm
  subst same
  have closed : (st.closed t result).Queued :=
    kept.toQueued.leave closes (kept.notMem found (by simp [live])) fun _ => rfl
  have idle : (task.closed t result).life ≠ .ready := fun ready => by
    simp [ready, Life.isTerminal] at ended
  have queued₁ : st₁.Queued := closed.wakeAll woken
  have queued : st'.Queued := queued₁.leave retires (queued₁.notMem found₁ idle) fun s => queue_retire retired s
  have counted₁ := counted_readyAll (Counted.closed result kept.counted found live) woken
  have counted : st'.Counted fun _ _ => 0 :=
    @Counted.retire _ _ _ _ _ (task.closed t result) counted₁ found₁ ended listed retired
  have home : (st.schedulers.get? task.scheduler).isSome = true := kept.known found
  refine ⟨⟨queued, counted, fun {u other} found' => ?_, fun {u other} found' => ?_⟩, fun u here => ?_, task, found,
    live, ?_⟩
  · by_cases here : u = t
    · subst here
      obtain rfl := Option.some.inj (retires.self.symm.trans found')
      rw [Task.Listed, if_pos ended]
    · rw [ends.others here] at found'
      obtain ⟨before, found'', rfl⟩ := Option.map_eq_some_iff.1 found'
      exact (kept.listed found'').iterate_woken _
  · by_cases here : u = t
    · subst here
      obtain rfl := Option.some.inj (retires.self.symm.trans found')
      exact remembers.known home
    · rw [ends.others here] at found'
      obtain ⟨before, found'', rfl⟩ := Option.map_eq_some_iff.1 found'
      exact (Task.Stays.iterate_woken before _).scheduler ▸ remembers.known (kept.known found'')
  · unfold State.ending?
    rw [ends.others here]
    cases found' : st.tasks.get? u with
    | none => rfl
    | some other =>
      by_cases joins : u ∈ st.joiners t
      · -- Whoever is woken is not at its end before or after.
        have live' : other.life.isTerminal = false := by
          rcases (ends.awake joins).2 with awake | awake <;> rw [life_of_get? found'] at awake <;>
            simp [Option.some.inj awake, Life.isTerminal]
        have still := (Task.Stays.iterate_woken other ((st.joiners t).count u)).terminal.trans live'
        simp [Task.ending?, live', still]
      · rw [List.count_eq_zero_of_not_mem joins]
        rfl
  · rw [State.ending?, retires.self, Option.bind_some, Task.ending?, if_pos ended]
    rfl

end Kept

/-- What code may ask for that forges nothing: it moves no task by hand from one stage to another, and starts
only tasks that were handed out. -/
def Unforged (st : State V C) : Request V C → Prop
  | .move _ _ => False
  | .start t => ∀ task, st.tasks.get? t = some task → task.listed = true
  | _ => True

namespace Kept

variable [Inhabited V]

theorem serve (kept : st.Kept) {request : Request V C} {reply : request.Reply}
    (unforged : st.Unforged request) (done : st.serve request = .ok (reply, st')) : st'.Kept ∧ KeepsEnds st st' := by
  cases request with
  | move => exact unforged.elim
  | spawn s entry => exact kept.spawn done
  | spawnBound s entry => exact kept.spawnBound done
  | start t =>
    simp only [State.serve, bind_ok, pure_ok, Prod.mk.injEq] at done
    obtain ⟨_, started, _, rfl⟩ := done
    obtain ⟨task, found⟩ := exists_of_task started
    exact kept.start found (unforged task found) started
  | ready t =>
    simp only [State.serve, bind_ok, pure_ok, Prod.mk.injEq] at done
    obtain ⟨_, woken, _, rfl⟩ := done
    exact kept.wake woken
  | yield t =>
    simp only [State.serve, State.yield, bind_ok, task_ok, check_ok, pure_ok, Prod.mk.injEq] at done
    obtain ⟨_, ⟨_, _, _, rfl⟩, _, rfl⟩ := done
    exact kept.modifyTask t fun _ => rfl
  | waitExternal t =>
    simp only [State.serve, bind_ok, pure_ok, Prod.mk.injEq] at done
    obtain ⟨_, announced, _, rfl⟩ := done
    exact kept.waitExternal announced
  | pause t f =>
    simp only [State.serve, bind_ok, pure_ok, Prod.mk.injEq] at done
    obtain ⟨_, paused, _, rfl⟩ := done
    exact kept.aside (.of_pause paused)
  | waitFor t child => exact kept.waitFor done
  | tryAcquire r t =>
    simp only [State.serve, State.tryAcquire, bind_ok] at done
    obtain ⟨resource, _, _, _, done⟩ := done
    split at done
    · simp only [pure_ok, Prod.mk.injEq] at done
      exact done.2 ▸ kept.congr rfl fun _ => rfl
    · simp only [pure_ok, Prod.mk.injEq] at done
      exact done.2 ▸ kept.congr rfl fun _ => rfl
  | acquire r t => exact kept.acquire done
  | release r t =>
    simp only [State.serve, bind_ok, pure_ok, Prod.mk.injEq] at done
    obtain ⟨_, released, _, rfl⟩ := done
    exact kept.release released
  | newScheduler settings g => exact kept.addScheduler done
  | stop s =>
    simp only [State.serve, bind_ok, pure_ok, Prod.mk.injEq] at done
    obtain ⟨_, stopped, _, rfl⟩ := done
    exact kept.stop stopped
  | _ =>
    obtain ⟨tasks, schedulers, _, _⟩ := serve_bookless rfl done
    exact kept.congr schedulers fun u => by rw [tasks]

theorem deeds (kept : st.Kept) (deeds : Deeds Unforged st st') : st'.Kept ∧ KeepsEnds st st' := by
  obtain ⟨st₁, st₂, earlier, deed, later⟩ := deeds
  obtain ⟨before, keeps⟩ := kept.aside earlier
  obtain ⟨between, keeps'⟩ : st₂.Kept ∧ KeepsEnds st₁ st₂ := by
    cases deed with
    | aside aside => exact before.aside aside
    | serve unforged served => exact before.serve unforged served
    | acquire acquired => exact before.acquire acquired
    | release released => exact before.release released
    | waitFor waited => exact before.waitFor waited
  obtain ⟨after, keeps''⟩ := between.aside later
  exact ⟨after, keeps.trans (keeps'.trans keeps'')⟩

end Kept

end State

end Tasking
