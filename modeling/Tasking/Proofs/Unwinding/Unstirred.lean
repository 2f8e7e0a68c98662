import Tasking.Proofs.Touching
import Tasking.Proofs.Unshared

/-! # What leaves the waits of a task alone

A task that arranges to wait leaves traces: what it waits for, a count of its scheduler, a place in a line.  A task
that runs and left none of these, and that nobody woke, is clear (`State.Clear`).  Whatever happens to other tasks
leaves it clear, and of what code asks for the task itself only `State.Disturbs` does not.
-/

namespace Tasking

variable {V C : Type}

/-- What waiting and waking leave in a task. -/
def Task.trace (task : Task V) : Life × Bool × Option WaitTarget × Bool × Bool :=
  (task.life, task.notified, task.waiting, task.external, task.linked)

namespace State

variable {st st' st'' : State V C} {t u : TaskId} {s : SchedulerId} {r : ResourceId} {f : FrameId}

def trace? (st : State V C) (t : TaskId) : Option (Life × Bool × Option WaitTarget × Bool × Bool) :=
  (st.tasks.get? t).map Task.trace

/-- A task runs, waits for nothing, has no wake pending, is not counted as waiting for an event, and sits nowhere. -/
structure Clear (st : State V C) (t : TaskId) : Prop where
  trace : st.trace? t = some (.running, false, none, false, false)
  astray : st.Astray t

/-- Nobody's line has the task in it. -/
theorem astray_iff : st.Astray t ↔ (∀ resource ∈ st.resources.entries.toList, t ∉ resource.waiters.toList) ∧
    (∀ task ∈ st.tasks.entries.toList, t ∉ task.joiners.toList) ∧
    ∀ scheduler ∈ st.schedulers.entries.toList, t ∉ scheduler.ready.toList := by
  constructor
  · intro astray
    refine ⟨fun resource member => ?_, fun task member => ?_, fun scheduler member => ?_⟩
    · obtain ⟨r, found⟩ := Table.exists_of_mem member
      exact waiters_of_get? found ▸ astray (.line r)
    · obtain ⟨c, found⟩ := Table.exists_of_mem member
      exact joiners_of_get? found ▸ astray (.joiners c)
    · obtain ⟨s, found⟩ := Table.exists_of_mem member
      have line : st.queue s = scheduler.ready.toList := by simp [State.queue, found]
      exact line ▸ astray (.queue s)
  · rintro ⟨lines, joiners, queues⟩ place sits
    cases place with
    | line r =>
      simp only [State.sitters, State.waiters] at sits
      cases found : st.resources.get? r with
      | none => simp [found] at sits
      | some resource => exact lines resource (Table.mem_of_get? found) (by simpa [found] using sits)
    | joiners c =>
      simp only [State.sitters, State.joiners] at sits
      cases found : st.tasks.get? c with
      | none => simp [found] at sits
      | some task => exact joiners task (Table.mem_of_get? found) (by simpa [found] using sits)
    | queue s =>
      simp only [State.sitters, State.queue] at sits
      cases found : st.schedulers.get? s with
      | none => simp [found] at sits
      | some scheduler => exact queues scheduler (Table.mem_of_get? found) (by simpa [found] using sits)

/-- Whether every line is without the task. -/
def isAstray (st : State V C) (t : TaskId) : Bool :=
  (st.resources.entries.toList.all fun resource => !resource.waiters.toList.contains t) &&
    ((st.tasks.entries.toList.all fun task => !task.joiners.toList.contains t) &&
      st.schedulers.entries.toList.all fun scheduler => !scheduler.ready.toList.contains t)

theorem isAstray_iff : st.isAstray t = true ↔ st.Astray t := by
  simp only [isAstray, astray_iff, Bool.and_eq_true, List.all_eq_true, Bool.not_eq_true', List.contains_eq_mem,
    decide_eq_false_iff_not]

instance : Decidable (st.Astray t) := decidable_of_iff (st.isAstray t = true) isAstray_iff

instance : Decidable (st.Clear t) :=
  decidable_of_iff (st.trace? t = some (.running, false, none, false, false) ∧ st.Astray t)
    ⟨fun ⟨trace, astray⟩ => ⟨trace, astray⟩, fun clear => ⟨clear.trace, clear.astray⟩⟩

theorem Clear.found (clear : st.Clear t) : ∃ task, st.tasks.get? t = some task ∧ task.life = .running ∧
    task.notified = false ∧ task.waiting = none ∧ task.external = false ∧ task.linked = false := by
  obtain ⟨task, found, same⟩ := Option.map_eq_some_iff.1 clear.trace
  simp only [Task.trace, Prod.mk.injEq] at same
  exact ⟨task, found, same⟩

theorem Clear.running (clear : st.Clear t) : st.life t = some .running := by
  obtain ⟨task, found, live, _⟩ := clear.found
  rw [life_of_get? found, live]

/-- The traces that a task left are what they were, and it got to no place. -/
structure Unstirred (t : TaskId) (st st' : State V C) : Prop where
  trace : st'.trace? t = st.trace? t
  still : ∀ place, t ∈ st'.sitters place → t ∈ st.sitters place

theorem Unstirred.clear (unstirred : Unstirred t st st') (clear : st.Clear t) : st'.Clear t where
  trace := unstirred.trace.trans clear.trace
  astray place sits := clear.astray place (unstirred.still place sits)

theorem Unstirred.astray (unstirred : Unstirred t st st') (astray : st.Astray t) : st'.Astray t :=
  fun place sits => astray place (unstirred.still place sits)

namespace Unstirred

@[refl] theorem refl (t : TaskId) (st : State V C) : Unstirred t st st := ⟨rfl, fun _ => id⟩

theorem trans (first : Unstirred t st st') (second : Unstirred t st' st'') : Unstirred t st st'' :=
  ⟨second.trace.trans first.trace, fun place sits => first.still place (second.still place sits)⟩

theorem of_sitters (trace : st'.trace? t = st.trace? t) (same : ∀ place, st'.sitters place = st.sitters place) :
    Unstirred t st st' := ⟨trace, fun place sits => same place ▸ sits⟩

theorem of_tables (tasks : st'.tasks = st.tasks) (schedulers : st'.schedulers = st.schedulers)
    (waiters : ∀ r, st'.waiters r = st.waiters r) : Unstirred t st st' := by
  refine .of_sitters (by rw [State.trace?, tasks, State.trace?]) fun place => ?_
  cases place with
  | line r => exact waiters r
  | joiners c => simp only [State.sitters, State.joiners, tasks]
  | queue s => simp only [State.sitters, State.queue, schedulers]

/-- A change of another task, or one that leaves no trace. -/
theorem modifyTask (st : State V C) {change : Task V → Task V}
    (apart : u = t → ∀ task : Task V, (change task).trace = task.trace)
    (keeps : ∀ task : Task V, t ∈ (change task).joiners.toList → t ∈ task.joiners.toList) :
    Unstirred t st (st.modifyTask u change) where
  trace := by
    rw [State.trace?, get?_modifyTask]
    split
    · next same =>
      rw [Option.map_map, State.trace?, same]
      exact congrArg (Option.map · _) (funext (apart same.symm))
    · rfl
  still place sits := by
    cases place with
    | line r => exact sits
    | queue s => exact sits
    | joiners c =>
      simp only [State.sitters, State.joiners, get?_modifyTask] at sits ⊢
      split at sits
      · next here =>
        subst here
        cases found : st.tasks.get? c with
        | none => simp [found] at sits
        | some task => exact keeps task (by simpa [found] using sits)
      · exact sits

theorem modifyScheduler (st : State V C) {change : Scheduler → Scheduler}
    (keeps : ∀ scheduler, st.schedulers.get? s = some scheduler → t ∈ (change scheduler).ready.toList →
      t ∈ scheduler.ready.toList) : Unstirred t st (st.modifyScheduler s change) where
  trace := rfl
  still place sits := by
    cases place with
    | line r => exact sits
    | joiners c => exact sits
    | queue v =>
      simp only [State.sitters, State.queue, get?_modifyScheduler] at sits ⊢
      split at sits
      · next here =>
        subst here
        cases found : st.schedulers.get? v with
        | none => simp [found] at sits
        | some scheduler => exact keeps scheduler found (by simpa [found] using sits)
      · exact sits

theorem modifyResource (st : State V C) {change : Resource → Resource}
    (keeps : ∀ resource, st.resources.get? r = some resource → t ∈ (change resource).waiters.toList →
      t ∈ resource.waiters.toList) : Unstirred t st (st.modifyResource r change) where
  trace := rfl
  still place sits := by
    cases place with
    | joiners c => exact sits
    | queue v => exact sits
    | line q =>
      simp only [State.sitters, State.waiters, get?_modifyResource] at sits ⊢
      split at sits
      · next here =>
        subst here
        cases found : st.resources.get? q with
        | none => simp [found] at sits
        | some resource => exact keeps resource found (by simpa [found] using sits)
      · exact sits

theorem adjust {c : Counter} {change : Int} (done : st.adjust s c change = .ok st') : Unstirred t st st' := by
  obtain ⟨scheduler, _, _, rfl⟩ := adjust_ok.1 done
  exact .modifyScheduler st fun _ _ member => ready_withCount .. ▸ member

theorem setOwner (st : State V C) (r : ResourceId) (owner : Option TaskId) : Unstirred t st (st.setOwner r owner) :=
  .modifyResource st fun _ _ => id

theorem of_aside (aside : Aside st st') : Unstirred t st st' := by
  have same {α : Type} (read : Task V → α) (reads : ∀ {task task' : Task V}, task.SameBooks task' → read task' = read task)
      (u : TaskId) : (st'.tasks.get? u).map read = (st.tasks.get? u).map read := by
    obtain ⟨gone, gone'⟩ | ⟨task, task', found, found', books⟩ := aside.rel u
    · rw [gone, gone']
    · rw [found, found', Option.map_some, Option.map_some, reads books]
  refine .of_sitters ?_ fun place => ?_
  · exact same Task.trace (fun books => by rw [books]; rfl) t
  · cases place with
    | line r => exact aside.waiters r
    | joiners c =>
      have line := same (fun task => task.joiners.toList) (fun books => by rw [books]) c
      have whole := congrArg (Option.elim · [] id) line
      rwa [Option.elim_map, Option.elim_map] at whole
    | queue s => simp only [State.sitters, State.queue, aside.schedulers]

/-! ## Starting, waking and parking other tasks -/

theorem setLife (other : u ≠ t) (st : State V C) (life : Life) : Unstirred t st (st.setLife u life) :=
  .modifyTask st (fun same => absurd same other) fun _ => id

/-- Another task goes to the end of a line. -/
theorem mem_of_push {line : Line TaskId} (other : u ≠ t) (member : t ∈ (line.push u).toList) : t ∈ line.toList := by
  rw [Line.toList_push] at member
  exact (List.mem_append.1 member).resolve_right fun new => other (List.mem_singleton.1 new).symm

theorem enqueued (other : u ≠ t) (st : State V C) (s : SchedulerId) : Unstirred t st (st.enqueued u s) := by
  have linked : Unstirred t st (st.modifyTask u fun task => { task with linked := true }) :=
    .modifyTask st (fun same => absurd same other) fun _ => id
  exact linked.trans (.modifyScheduler _ fun _ _ => mem_of_push other)

theorem schedule (other : u ≠ t) (done : st.schedule u = .ok st') : Unstirred t st st' := by
  obtain ⟨task, _, ⟨_, rfl⟩ | ⟨_, _, rfl⟩⟩ := schedule_ok done
  · rfl
  · exact .enqueued other st task.scheduler

theorem finishWait (other : u ≠ t) (done : st.finishWait u = .ok st') : Unstirred t st st' := by
  obtain ⟨task, _, done⟩ := finishWait_ok done
  have forgets : Unstirred t st (st.modifyTask u fun task => { task with waiting := none, external := false }) :=
    .modifyTask st (fun same => absurd same other) fun _ => id
  split at done
  · exact forgets.trans (.adjust done)
  · exact done ▸ forgets

theorem start (other : u ≠ t) (done : st.start u = .ok st') : Unstirred t st st' := by
  obtain ⟨task, found⟩ := exists_of_task done
  obtain ⟨_, st₁, counted, scheduled⟩ := start_ok found done
  exact ((setLife other st .ready).trans (.adjust counted)).trans (.schedule other scheduled)

theorem ready (other : u ≠ t) (done : st.ready u = .ok st') : Unstirred t st st' := by
  obtain ⟨task, found⟩ := exists_of_task done
  obtain ⟨_, st₁, st₂, counted, finished, scheduled⟩ | ⟨_, finished⟩ := ready_ok found done
  · have woken := ((setLife other st .ready).trans (.adjust counted)).trans (.finishWait other finished)
    exact woken.trans (.schedule other scheduled)
  · refine .trans ?_ (.finishWait other finished)
    exact .modifyTask st (fun same => absurd same other) fun _ => id

theorem readyAll {us : List TaskId} (others : t ∉ us) (done : st.readyAll us = .ok st') : Unstirred t st st' := by
  induction us generalizing st with
  | nil => exact pure_ok.1 done ▸ .refl t st
  | cons u us inductionHypothesis =>
    obtain ⟨st₁, woken, rest⟩ := bind_ok.1 done
    rw [List.mem_cons, not_or] at others
    exact (ready (Ne.symm others.1) woken).trans (inductionHypothesis others.2 rest)

theorem retire (done : st.retire u = .ok st') : Unstirred t st st' := by
  simp only [State.retire, bind_ok] at done
  obtain ⟨_, _, _, tasks, runnable⟩ := done
  have struck : Unstirred t st (st.modifyTask u fun task => { task with listed := false }) :=
    .modifyTask st (fun _ _ => rfl) fun _ => id
  exact (struck.trans (.adjust tasks)).trans (.adjust runnable)

theorem waitExternal (other : u ≠ t) (done : st.waitExternal u = .ok st') : Unstirred t st st' := by
  obtain ⟨task, found⟩ := exists_of_task done
  obtain ⟨_, done⟩ := waitExternal_ok found done
  have announced : Unstirred t st
      (st.modifyTask u fun task => { task with waiting := some .external, external := true }) :=
    .modifyTask st (fun same => absurd same other) fun _ => id
  split at done
  · exact done ▸ announced
  · exact announced.trans (.adjust done)

theorem park (other : u ≠ t) (done : st.park u = .ok st') : Unstirred t st st' := by
  obtain ⟨task, found⟩ := exists_of_task done
  obtain ⟨_, ⟨_, scheduled⟩ | ⟨_, _, counted⟩⟩ := park_ok found done
  · exact (setLife other st .ready).trans (.schedule other scheduled)
  · exact (setLife other st .waiting).trans (.adjust counted)

theorem beginRun {w : Worker} (other : u ≠ t) (done : st.beginRun u w = .ok st') : Unstirred t st st' := by
  obtain ⟨task, found⟩ : ∃ task, st.tasks.get? u = some task := by
    simp only [State.beginRun, bind_ok] at done
    exact exists_of_task done.choose_spec.1
  obtain ⟨_, rfl⟩ := beginRun_ok found done
  exact (setLife other st .running).trans (.modifyTask _ (fun _ _ => rfl) fun _ => id)

/-- Whoever is taken out of a ready queue was in it. -/
theorem takeReady {next : Option TaskId} (astray : st.Astray t) (done : st.takeReady s = .ok (next, st')) :
    next ≠ some t ∧ Unstirred t st st' := by
  obtain ⟨rfl, rfl⟩ | ⟨u, rest, rfl, known, line, rfl⟩ := takeReady_ok done
  · exact ⟨by simp, .refl t _⟩
  have other : u ≠ t := by
    rintro rfl
    exact astray (.queue s) (show u ∈ st.queue s from line ▸ List.mem_cons_self)
  refine ⟨fun same => other (Option.some.inj same), .trans (.modifyScheduler st fun scheduler found member => ?_)
    (.modifyTask _ (fun same => absurd same other) fun _ => id)⟩
  have queue : st.queue s = scheduler.ready.toList := by simp [State.queue, found]
  exact queue.symm.trans line ▸ List.mem_cons_of_mem u member

theorem dropLinks {us : List TaskId} (others : t ∉ us) (st : State V C) : Unstirred t st (st.dropLinks us) := by
  induction us generalizing st with
  | nil => rfl
  | cons u us inductionHypothesis =>
    rw [List.mem_cons, not_or] at others
    have dropped : Unstirred t st (st.dropLink u) :=
      .modifyTask st (fun same => absurd same.symm others.1) fun _ => id
    exact dropped.trans (inductionHypothesis others.2 _)

/-- Stopping a scheduler drops only tasks that were in its queue. -/
theorem stop (astray : st.Astray t) (done : st.stop s = .ok st') : Unstirred t st st' := by
  simp only [State.stop, bind_ok, scheduler_ok, pure_ok] at done
  obtain ⟨scheduler, found, rfl⟩ := done
  have line : st.queue s = scheduler.ready.toList := by simp [State.queue, found]
  refine .trans (.modifyScheduler st fun _ _ member => absurd member List.not_mem_nil) (.dropLinks (fun member => ?_) _)
  exact astray (.queue s) (show t ∈ st.queue s from line.symm ▸ member)

/-! ## Resources and joins -/

/-- A resource goes to whoever waited longest, which was in line. -/
theorem release (astray : st.Astray t) (done : st.release r u = .ok st') : Unstirred t st st' := by
  obtain ⟨known, _, ⟨_, rfl⟩ | ⟨next, rest, line, woken⟩⟩ := release_ok done
  · exact .setOwner st r none
  have other : next ≠ t := by
    rintro rfl
    exact astray (.line r) (show next ∈ st.waiters r from line ▸ List.mem_cons_self)
  have handed : Unstirred t st
      (st.modifyResource r fun resource => { resource with owner := some next, waiters := rest }) := by
    refine .modifyResource st fun resource' found' member => ?_
    rw [← waiters_of_get? found', line]
    exact List.mem_cons_of_mem next member
  have left : Unstirred t st (st.handed next r rest) :=
    handed.trans (.modifyTask _ (fun same => absurd same other) fun _ => id)
  exact left.trans (.ready other woken)

theorem tryAcquire {taken : Bool} (done : st.tryAcquire r u = .ok (taken, st')) : Unstirred t st st' := by
  obtain ⟨_, _, ⟨_, _, rfl⟩ | ⟨_, _, rfl⟩⟩ := tryAcquire_ok done
  · exact .setOwner st r _
  · rfl

theorem acquire {granted : Except Deadlock Grant} (apart : u = t → granted ≠ .ok .blocked)
    (done : st.acquire r u = .ok (granted, st')) : Unstirred t st st' := by
  obtain ⟨known, _, ⟨_, _, rfl⟩ | ⟨_, ⟨_, _, _, rfl⟩ | ⟨blocked, _, _, rfl⟩⟩⟩ := acquire_ok done
  · exact .setOwner st r _
  · rfl
  have other : u ≠ t := fun same => apart same blocked
  have announced : Unstirred t st (st.announceWait u (.resource r)) :=
    .modifyTask st (fun same => absurd same other) fun _ => id
  have linked : Unstirred t _ ((st.announceWait u (.resource r)).modifyTask u fun task => { task with linked := true }) :=
    .modifyTask _ (fun same => absurd same other) fun _ => id
  exact (announced.trans linked).trans (.modifyResource _ fun _ _ => mem_of_push other)

theorem waitFor {child : TaskId} {reply : Except Deadlock (Option (Outcome V))} (apart : u = t → reply ≠ .ok none)
    (done : st.waitFor u child = .ok (reply, st')) : Unstirred t st st' := by
  obtain ⟨awaited, found, ⟨_, _, rfl⟩ | ⟨_, ⟨_, _, _, rfl⟩ | ⟨registers, _, rfl⟩⟩⟩ := waitFor_ok done
  · rfl
  · rfl
  have other : u ≠ t := fun same => apart same registers
  have announced : Unstirred t st (st.announceWait u (.task child)) :=
    .modifyTask st (fun same => absurd same other) fun _ => id
  exact announced.trans (.modifyTask _ (fun _ _ => rfl) fun _ => mem_of_push other)

/-! ## New things -/

theorem of_added {tasks : Table .task (Task V)} {new : Task V} (known : t ≠ st.tasks.next)
    (same : tasks = st.tasks.add new) (alone : new.joiners.toList = []) :
    Unstirred t st { st with tasks := tasks } where
  trace := by
    subst same
    rw [State.trace?, Table.get?_add_eq, if_neg known, State.trace?]
  still place sits := by
    subst same
    cases place with
    | line r => exact sits
    | queue s => exact sits
    | joiners c =>
      simp only [State.sitters, State.joiners, Table.get?_add_eq] at sits ⊢
      split at sits
      · simp [alone] at sits
      · exact sits

theorem addScheduler {settings : Settings} {g : RegistryId} {reply : Except HostError SchedulerId}
    (done : st.addScheduler settings g = .ok (reply, st')) : Unstirred t st st' := by
  obtain rfl | ⟨workers, rfl⟩ := addScheduler_ok done
  · rfl
  refine ⟨rfl, fun place sits => ?_⟩
  cases place with
  | line r => exact sits
  | joiners c => exact sits
  | queue v =>
    simp only [State.sitters, State.queue, Table.get?_add_eq] at sits ⊢
    split at sits
    · simp [Scheduler.new] at sits
    · exact sits

variable [Inhabited V]

theorem addTask (known : t ≠ st.tasks.next) (s : SchedulerId) (entry : FrameId) (bound : Option Nat) :
    Unstirred t st (st.addTask s entry bound).2 := .of_added known rfl rfl

omit [Inhabited V] in
theorem enlist (st : State V C) (s : SchedulerId) (u : TaskId) : Unstirred t st (st.enlist s u) := by
  have listed : Unstirred t st (st.modifyTask u fun task => { task with listed := true }) :=
    .modifyTask st (fun _ _ => rfl) fun _ => id
  exact listed.trans (.modifyScheduler _ fun _ _ => id)

theorem spawn {entry : FrameId} {reply : Except HostError TaskId} (known : t ≠ st.tasks.next)
    (done : st.spawn s entry = .ok (reply, st')) : Unstirred t st st' := by
  simp only [State.spawn, bind_ok] at done
  obtain ⟨scheduler, _, done⟩ := done
  split at done
  · simp only [pure_ok, Prod.mk.injEq] at done
    exact done.2 ▸ .refl t st
  · simp only [pure_ok, Prod.mk.injEq] at done
    exact done.2 ▸ (addTask known s entry none).trans (.enlist _ s _)

theorem spawnBound {entry : FrameId} {reply : Except HostError TaskId} (known : t ≠ st.tasks.next)
    (done : st.spawnBound s entry = .ok (reply, st')) : Unstirred t st st' := by
  simp only [State.spawnBound, bind_ok] at done
  obtain ⟨scheduler, _, done⟩ := done
  split at done
  · simp only [pure_ok, Prod.mk.injEq] at done
    exact done.2 ▸ .refl t st
  · have numbered : Unstirred t st
        (st.modifyScheduler s fun other => { other with nextThread := scheduler.nextThread + 1 }) :=
      .modifyScheduler st fun _ _ => id
    -- The number of the new task does not depend on what schedulers count.
    have adds {st₁ : State V C} (same : st₁.tasks = st.tasks) :
        Unstirred t st₁ (st₁.addTask s entry (some scheduler.nextThread)).2 :=
      addTask (by rwa [same]) s entry _
    split at done
    · simp only [pure_ok, Prod.mk.injEq] at done
      exact done.2 ▸ numbered.trans (adds rfl)
    · simp at done
    · simp only [bind_ok, pure_ok, Prod.mk.injEq] at done
      obtain ⟨st₁, begun, _, rfl⟩ := done
      have noted : Unstirred t st
          ((st.modifyScheduler s fun other => { other with nextThread := scheduler.nextThread + 1 }).modifyScheduler s
            fun other => { other with bound := other.bound ++ [st.tasks.next] }) :=
        numbered.trans (.modifyScheduler _ fun _ _ => id)
      have added := noted.trans (adds rfl)
      exact (added.trans (.enlist _ s st.tasks.next)).trans (.start known.symm begun)

/-- Another task ends, which the task did not join. -/
theorem finish {result : Except (Error V) V} (other : u ≠ t) (astray : st.Astray t)
    (done : st.finish u result = .ok st') : Unstirred t st st' := by
  obtain ⟨task, found⟩ := exists_of_task done
  obtain ⟨_, st₁, woken, retired⟩ := finish_ok found done
  have closed : Unstirred t st (st.closed u result) :=
    (setLife other st _).trans (.modifyTask _ (fun same => absurd same other) fun _ member =>
      absurd member List.not_mem_nil)
  have strange : t ∉ task.joiners.toList := fun member =>
    astray (.joiners u) (show t ∈ st.joiners u from joiners_of_get? found ▸ member)
  exact (closed.trans (.readyAll strange woken)).trans (.retire retired)

end Unstirred

/-! ## Requests and frames -/

/-- What code asks for arranges a wait of a task, or wakes it, or forces it to another stage. -/
def Disturbs (st : State V C) (t : TaskId) : Request V C → Prop
  | .ready u | .yield u | .waitExternal u | .move u _ => u = t
  | .acquire r u => u = t ∧ st.owner r ≠ none ∧ st.refusal? t (.resource r) = none
  | .waitFor u child => u = t ∧ st.outcome child = none ∧ st.refusal? t (.task child) = none
  | _ => False

namespace Clear

theorem known (clear : st.Clear t) : t ≠ st.tasks.next := by
  obtain ⟨task, found, _⟩ := clear.found
  exact Table.ne_next_of_get? found

/-- A task that runs is not started. -/
theorem start (clear : st.Clear t) (done : st.start u = .ok st') : st'.Clear t := by
  refine Unstirred.clear (.start ?_ done) clear
  rintro rfl
  obtain ⟨task, found, live, _⟩ := clear.found
  simp [(start_ok found done).1] at live

theorem serve [Inhabited V] {request : Request V C} {reply : request.Reply} (clear : st.Clear t)
    (calm : ¬ st.Disturbs t request) (done : st.serve request = .ok (reply, st')) : st'.Clear t := by
  by_cases bookless : request.bookless = true
  · obtain ⟨tasks, schedulers, _, waiters⟩ := serve_bookless bookless done
    exact (Unstirred.of_tables tasks schedulers waiters).clear clear
  cases request with
  | spawn s entry => exact (Unstirred.spawn clear.known done).clear clear
  | spawnBound s entry => exact (Unstirred.spawnBound clear.known done).clear clear
  | start u =>
    simp only [State.serve, bind_ok, pure_ok, Prod.mk.injEq] at done
    obtain ⟨_, started, _, rfl⟩ := done
    exact clear.start started
  | ready u =>
    simp only [State.serve, bind_ok, pure_ok, Prod.mk.injEq] at done
    obtain ⟨_, woken, _, rfl⟩ := done
    exact (Unstirred.ready calm woken).clear clear
  | yield u =>
    simp only [State.serve, State.yield, bind_ok, task_ok, check_ok, pure_ok, Prod.mk.injEq] at done
    obtain ⟨_, ⟨task, _, _, rfl⟩, _, rfl⟩ := done
    have noted : Unstirred t st (st.modifyTask u fun task => { task with notified := true }) :=
      .modifyTask st (fun same => absurd same calm) fun _ => id
    exact noted.clear clear
  | waitExternal u =>
    simp only [State.serve, bind_ok, pure_ok, Prod.mk.injEq] at done
    obtain ⟨_, announced, _, rfl⟩ := done
    exact (Unstirred.waitExternal calm announced).clear clear
  | pause u f =>
    simp only [State.serve, bind_ok, pure_ok, Prod.mk.injEq] at done
    obtain ⟨_, paused, _, rfl⟩ := done
    exact (Unstirred.of_aside (.of_pause paused)).clear clear
  | move u target =>
    simp only [State.serve, State.move, bind_ok, task_ok] at done
    obtain ⟨task, _, done⟩ := done
    split at done
    · simp only [pure_ok, Prod.mk.injEq] at done
      exact done.2 ▸ (Unstirred.setLife calm st target).clear clear
    · simp only [pure_ok, Prod.mk.injEq] at done
      exact done.2 ▸ clear
  | waitFor u child =>
    refine (Unstirred.waitFor ?_ done).clear clear
    rintro rfl registers
    obtain ⟨awaited, found, ⟨same, ended, _⟩ | ⟨none', ⟨refusal, same, _⟩ | ⟨_, allowed, _⟩⟩⟩ := waitFor_ok done
    · exact ended (Except.ok.inj (same.symm.trans registers))
    · exact absurd (same.symm.trans registers) (by simp)
    · exact calm ⟨rfl, (outcome_of_get? found).trans none', allowed⟩
  | tryAcquire r u => exact (Unstirred.tryAcquire done).clear clear
  | acquire r u =>
    refine (Unstirred.acquire ?_ done).clear clear
    rintro rfl blocked
    obtain ⟨_, _, ⟨same, _⟩ | ⟨owned, ⟨refusal, same, _⟩ | ⟨_, allowed, _⟩⟩⟩ := acquire_ok done
    · exact absurd (same.symm.trans blocked) (by simp)
    · exact absurd (same.symm.trans blocked) (by simp)
    · exact calm ⟨rfl, owned, allowed⟩
  | release r u =>
    simp only [State.serve, bind_ok, pure_ok, Prod.mk.injEq] at done
    obtain ⟨_, released, _, rfl⟩ := done
    exact (Unstirred.release clear.astray released).clear clear
  | newScheduler settings g => exact (Unstirred.addScheduler done).clear clear
  | stop s =>
    simp only [State.serve, bind_ok, pure_ok, Prod.mk.injEq] at done
    obtain ⟨_, stopped, _, rfl⟩ := done
    exact (Unstirred.stop clear.astray stopped).clear clear
  | _ => simp [Request.bookless] at bookless

/-- A frame of another task is resumed, or one that gets an error: a guard does not ask for its resource then, and
nothing waits. -/
theorem resume {value : V} {error : Option (Error V)} {resumption : Resumption V C} (clear : st.Clear t)
    (apart : u = t → error.isSome = true) (done : st.resume u f value error = .ok (resumption, st')) : st'.Clear t := by
  simp only [State.resume, bind_ok, frame_ok] at done
  obtain ⟨frame, _, done⟩ := done
  have aside {st₁ : State V C} (aside : Aside st st₁) : st₁.Clear t := (Unstirred.of_aside aside).clear clear
  split at done
  · simp only [pure_ok, Prod.mk.injEq] at done
    exact done.2 ▸ clear
  · next r phase _ =>
    simp only [bind_ok, pure_ok, Prod.mk.injEq] at done
    obtain ⟨⟨answer, st₁⟩, resumed, _, rfl⟩ := done
    have recoded : (st.setCode f (.guard r .released)).Clear t := aside (.setCode st f _)
    cases phase with
    | start body =>
      simp only [State.resumeGuard] at resumed
      split at resumed
      · simp only [pure_ok, Prod.mk.injEq] at resumed
        exact resumed.2 ▸ recoded
      · simp only [bind_ok] at resumed
        obtain ⟨⟨granted, st₂⟩, acquired, resumed⟩ := resumed
        have asked := (Unstirred.acquire (fun same => absurd (apart same) (by simp)) acquired).clear recoded
        dsimp only at resumed
        split at resumed
        · exact (Unstirred.of_aside ((Aside.setCode st₂ f _).trans (.of_callFrame resumed))).clear asked
        · simp only [pure_ok, Prod.mk.injEq] at resumed
          exact resumed.2 ▸ (Unstirred.of_aside (.setCode st₂ f _)).clear asked
        · simp only [pure_ok, Prod.mk.injEq] at resumed
          exact resumed.2 ▸ asked
    | waiting body kept =>
      simp only [State.resumeGuard, check_ok] at resumed
      obtain ⟨_, _, resumed⟩ := resumed
      exact (Unstirred.of_aside ((Aside.setCode _ f _).trans (.of_callFrame resumed))).clear recoded
    | held =>
      simp only [State.resumeGuard, bind_ok, pure_ok, Prod.mk.injEq] at resumed
      obtain ⟨st₂, released, _, rfl⟩ := resumed
      exact (Unstirred.release recoded.astray released).clear recoded
    | released => simp [State.resumeGuard] at resumed
  · next child parked _ =>
    simp only [bind_ok, pure_ok, Prod.mk.injEq] at done
    obtain ⟨⟨answer, st₁⟩, resumed, _, rfl⟩ := done
    unfold State.resumeJoin at resumed
    split at resumed
    · simp only [pure_ok, Prod.mk.injEq] at resumed
      exact resumed.2 ▸ clear
    · split at resumed
      · simp only [bind_ok] at resumed
        obtain ⟨awaited, _, resumed⟩ := resumed
        split at resumed
        · simp only [pure_ok, Prod.mk.injEq] at resumed
          exact resumed.2 ▸ clear
        · simp at resumed
      · simp only [bind_ok] at resumed
        obtain ⟨⟨reply, st₂⟩, waited, resumed⟩ := resumed
        have asked := (Unstirred.waitFor (fun same => absurd (apart same) (by simp)) waited).clear clear
        split at resumed
        · simp only [pure_ok, Prod.mk.injEq] at resumed
          exact resumed.2 ▸ asked
        · simp only [pure_ok, Prod.mk.injEq] at resumed
          exact resumed.2 ▸ (Unstirred.of_aside (.setCode st₂ f _)).clear asked
        · simp only [pure_ok, Prod.mk.injEq] at resumed
          exact resumed.2 ▸ asked
  · next a message delivered _ =>
    unfold State.resumeMessage at done
    split at done
    · simp only [pure_ok, Prod.mk.injEq] at done
      exact done.2 ▸ clear
    · split at done
      · simp only [pure_ok, Prod.mk.injEq] at done
        exact done.2 ▸ aside (.setCode st f _)
      · simp only [bind_ok] at done
        obtain ⟨actor, _, may, _, done⟩ := done
        split at done
        · simp only [pure_ok, Prod.mk.injEq] at done
          exact done.2 ▸ aside ((Aside.setCode st f _).trans (.modifyExclusive ..))
        · simp at done

end Clear

end State

end Tasking
