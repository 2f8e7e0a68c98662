import Tasking.Proofs.Lives
import Tasking.Proofs.Serving

/-! # The books and what tasks share

Resources, joins and new tasks, and what they do to the books.
-/

namespace Tasking.State

variable {V C : Type} {st st' : State V C} {t : TaskId} {task : Task V}

theorem Counted.of_tables {ahead : SchedulerId → Counter → Int} (counted : st.Counted ahead)
    (tasks : st'.tasks = st.tasks) (schedulers : st'.schedulers = st.schedulers) : st'.Counted ahead := by
  intro s scheduler found c
  rw [schedulers] at found
  rw [tally, tasks]
  exact counted s scheduler found c

/-- Changes of tables that hold neither tasks nor schedulers, and put nobody in line. -/
theorem Balanced.of_tables (balanced : st.Balanced) (tasks : st'.tasks = st.tasks)
    (schedulers : st'.schedulers = st.schedulers) (waiters : ∀ r, st'.waiters r = st.waiters r) :
    st'.Balanced := by
  have queue : ∀ s, st'.queue s = st.queue s := fun s => by rw [queue, schedulers, queue]
  refine balanced.of_same tasks (fun place => ?_) (Counted.of_tables balanced.counted tasks schedulers) ?_
  · cases place with
    | line r => exact waiters r
    | joiners c => rw [sitters, joiners, tasks]; rfl
    | queue s => exact queue s
  · refine balanced.lined.of_same waiters queue (fun s known => by rwa [schedulers]) fun u => ?_
    rw [link, tasks, link]

/-! ## Waiting -/

/-- A calm task announces that it will wait for a resource or for another task. -/
theorem Balanced.announceWait (balanced : st.Balanced) (found : st.tasks.get? t = some task)
    (live : task.life = .running) (calm : task.arranged = false) (target : WaitTarget)
    (inside : target ≠ .external) : (st.announceWait t target).Booked (· = t) fun _ _ => 0 := by
  have sane := balanced.sane found
  obtain ⟨quiet, waitless⟩ := Task.arranged_eq_false.1 calm
  have becomes := becomes_modifyTask found fun task => { task with waiting := some target }
  have home : task.external = false := by
    have iff := sane.external
    rw [waitless] at iff
    simpa using iff
  refine ⟨becomes.sane ?_ balanced.sane, ?_, ?_, ?_⟩
  · exact ⟨by simp [home, inside], by simp [quiet], fun _ => .inl live, by simp, sane.settled, sane.left⟩
  · exact balanced.seated.modifyTask found (fun _ => rfl) (.inr (by simp [Task.place?, waitless, live]))
      (.inl rfl) fun other => by simp [other]
  · exact balanced.counted.keep found fun _ _ => rfl
  · exact balanced.lined.modifyTask t fun _ => rfl

theorem sitters_inLine {r : ResourceId} (known : (st.resources.get? r).isSome = true) (place : Place) :
    (st.inLine t r).sitters place = if place = .line r then st.sitters place ++ [t] else st.sitters place := by
  cases place with
  | line q =>
    refine (waiters_inLine known q).trans ?_
    by_cases same : q = r <;> simp [same, sitters]
  | queue s => simp only [reduceCtorEq, ↓reduceIte]; rfl
  | joiners c =>
    simp only [reduceCtorEq, ↓reduceIte]
    exact joiners_modifyTask (f := fun task => { task with linked := true }) (fun _ => rfl) c

theorem Balanced.block (balanced : st.Balanced) (found : st.tasks.get? t = some task)
    (live : task.life = .running) (calm : task.arranged = false) {r : ResourceId}
    (known : (st.resources.get? r).isSome = true) :
    ((st.announceWait t (.resource r)).inLine t r).Balanced ∧
      Becomes st t { task with waiting := some (.resource r), linked := true }
        ((st.announceWait t (.resource r)).inLine t r) := by
  have booked := balanced.announceWait found live calm (.resource r) (by simp)
  have astray : st.Astray t := balanced.astray found (by
    simp [Task.place?, (Task.arranged_eq_false.1 calm).2, live])
  have first : Becomes st t { task with waiting := some (.resource r) } (st.announceWait t (.resource r)) :=
    becomes_modifyTask found _
  have second : Becomes _ t { task with waiting := some (.resource r), linked := true }
      ((st.announceWait t (.resource r)).inLine t r) := becomes_modifyTask first.self _
  have sane := booked.sane first.self
  refine ⟨⟨second.sane ?_ booked.sane, ?_, ?_, ?_⟩, first.trans second⟩
  · exact ⟨sane.external, sane.notified, sane.waits, sane.parked, sane.settled, sane.left⟩
  · refine booked.seated.sit (.line r) first.self rfl rfl (fun u => ?_)
      (sitters_inLine (by exact known)) fun u => by simp
    rw [second]
    split
    · next same => rw [same, first.self]; rfl
    · rfl
  · exact booked.counted.keep (f := fun task => { task with linked := true }) first.self fun _ _ => rfl
  · refine booked.lined.inLine (s := task.scheduler) ?_ known
    simp [link, first.self, astray.unlinked balanced.lined found]

theorem Balanced.acquire_safe (balanced : st.Balanced) (found : st.tasks.get? t = some task)
    (live : task.life = .running) (calm : task.arranged = false) (r : ResourceId) :
    Safe (st.acquire r t) := by
  have astray : st.Astray t := balanced.astray found (by
    simp [Task.place?, (Task.arranged_eq_false.1 calm).2, live])
  unfold State.acquire State.tryAcquire
  refine .bind ?_ fun reply tried => ?_
  · refine .bind (.resource r) fun resource _ => .bind (.task t) fun _ _ => ?_
    split
    · exact .pure _
    · exact .pure _
  · obtain ⟨taken, st₁⟩ := reply
    simp only [bind_ok, resource_ok, task_ok] at tried
    obtain ⟨resource, _, _, _, tried⟩ := tried
    dsimp only
    split
    · exact .pure _
    · next untaken =>
      have same : st₁ = st := by
        split at tried
        · simp only [pure_ok, Prod.mk.injEq] at tried
          exact absurd tried.1.symm untaken
        · simp only [pure_ok, Prod.mk.injEq] at tried
          exact tried.2.symm
      subst same
      split
      · exact .pure _
      · have announced := becomes_modifyTask found fun task => { task with waiting := some (.resource r) }
        unfold State.joinQueue State.claimLink
        refine .bind (.bind (.bind (.task t) fun task' found' => .check ?_ (.pure _)) fun _ _ => .pure _)
          fun _ _ => .pure _
        obtain rfl := Option.some.inj (announced.self.symm.trans (task_ok.1 found'))
        simpa using astray.unlinked balanced.lined found

/-- What asking for a resource does to the tasks. -/
theorem Balanced.acquire (balanced : st.Balanced) (found : st.tasks.get? t = some task)
    (live : task.life = .running) (calm : task.arranged = false) {r : ResourceId}
    {granted : Except Deadlock Grant} (done : st.acquire r t = .ok (granted, st')) :
    st'.Balanced ∧ (granted ≠ .ok .blocked ∧ st'.tasks = st.tasks ∨ granted = .ok .blocked ∧
      Becomes st t { task with waiting := some (.resource r), linked := true } st') := by
  obtain ⟨known, _, ⟨rfl, _, rfl⟩ | ⟨_, ⟨refusal, rfl, _, rfl⟩ | ⟨rfl, _, _, rfl⟩⟩⟩ := acquire_ok done
  · exact ⟨balanced.of_tables rfl rfl (congrFun (waiters_setOwner r (some t))), .inl ⟨by simp, rfl⟩⟩
  · exact ⟨balanced, .inl ⟨by simp, rfl⟩⟩
  · obtain ⟨balanced', becomes⟩ := balanced.block found live calm known
    exact ⟨balanced', .inr ⟨rfl, becomes⟩⟩

/-! ## Letting go -/

theorem sitters_handed {r : ResourceId} {rest : Line TaskId} (known : (st.resources.get? r).isSome = true)
    (place : Place) : (st.handed t r rest).sitters place =
      if place = .line r then rest.toList else st.sitters place := by
  cases place with
  | line q =>
    refine (waiters_handed known q).trans ?_
    by_cases same : q = r <;> simp [same, sitters]
  | queue s => simp only [reduceCtorEq, ↓reduceIte]; rfl
  | joiners c =>
    simp only [reduceCtorEq, ↓reduceIte]
    exact joiners_modifyTask (f := fun task => { task with linked := false }) (fun _ => rfl) c

/-- Whoever is in line for a resource waits for it. -/
theorem Balanced.waits_of_line (balanced : st.Balanced) {r : ResourceId} (sits : t ∈ st.waiters r) :
    ∃ task, st.tasks.get? t = some task ∧ task.waiting = some (.resource r) := by
  have sits' : t ∈ st.sitters (.line r) := sits
  obtain ⟨task, found⟩ := Option.isSome_iff_exists.1 (balanced.seated.known sits')
  have should := ((balanced.seated.placed found _).1 sits').2
  refine ⟨task, found, ?_⟩
  unfold Task.place? at should
  split at should <;> simp_all

/-- A resource was handed to the task that waited longest, which left the line and is to be woken. -/
theorem Balanced.handed (balanced : st.Balanced) {r : ResourceId} {rest : Line TaskId}
    (known : (st.resources.get? r).isSome = true) (line : st.waiters r = t :: rest.toList) :
    ∃ task, st.tasks.get? t = some task ∧ task.waiting = some (.resource r) ∧
      (st.handed t r rest).Booked (· = t) (fun _ _ => 0) ∧
      Becomes st t { task with linked := false } (st.handed t r rest) := by
  obtain ⟨task, found, waits⟩ := balanced.waits_of_line (t := t) (r := r) (by simp [line])
  have becomes : Becomes st t { task with linked := false } (st.handed t r rest) :=
    becomes_modifyTask found _
  have sane := balanced.sane found
  refine ⟨task, found, waits, ⟨becomes.sane ?_ balanced.sane, ?_, ?_, ?_⟩, becomes⟩
  · exact ⟨sane.external, sane.notified, sane.waits, sane.parked, sane.settled, sane.left⟩
  · refine balanced.seated.rise (.line r) line (fun u => ?_) (sitters_handed known) fun u => by
      simp
    rw [becomes]
    split
    · next same => rw [same, found]; rfl
    · rfl
  · exact Counted.of_tables (balanced.counted.keep (f := fun task => { task with linked := false }) found
      fun _ _ => rfl) rfl rfl
  · refine balanced.lined.handed known line (balanced.seated.distinct (.line r)) fun q other member => ?_
    obtain ⟨task', found', waits'⟩ := balanced.waits_of_line member
    obtain rfl := Option.some.inj (found.symm.trans found')
    rw [waits] at waits'
    exact other (by simpa using waits'.symm)

theorem Balanced.release_safe (balanced : st.Balanced) {r : ResourceId} (owns : st.owner r = some t) :
    Safe (st.release r t) := by
  unfold State.release
  refine .bind (.resource r) fun resource found => .check ?_ ?_
  · simp [← owner_of_get? (resource_ok.1 found), owns]
  · have known : (st.resources.get? r).isSome = true := by simp [resource_ok.1 found]
    split
    · exact .pure _
    · next next rest popped =>
      have line : st.waiters r = next :: rest.toList := by
        rw [waiters_of_get? (resource_ok.1 found), Line.toList_of_pop? popped]
      obtain ⟨task, _, waits, booked, becomes⟩ := balanced.handed known line
      exact booked.ready_safe (fun _ _ => le_rfl) becomes.self (by simp [waits]) (.inl rfl)

/-- What giving up a resource does to the tasks: whoever waited longest for it is woken. -/
theorem Balanced.release (balanced : st.Balanced) {r : ResourceId} (done : st.release r t = .ok st') :
    st'.Balanced ∧ (st'.tasks = st.tasks ∨ ∃ u task, st.tasks.get? u = some task ∧
      task.waiting = some (.resource r) ∧ Becomes st u { task with linked := false }.woken st') := by
  obtain ⟨known, _, ⟨_, rfl⟩ | ⟨next, rest, line, woken⟩⟩ := release_ok done
  · exact ⟨balanced.of_tables rfl rfl (congrFun (waiters_setOwner r none)), .inl rfl⟩
  · obtain ⟨task, found, waits, booked, becomes⟩ := balanced.handed known line
    have sane := booked.sane becomes.self
    refine ⟨booked.ready becomes.self (by simp [waits]) (.inl rfl) (fun u => by simp) woken, .inr ?_⟩
    exact ⟨next, task, found, waits, becomes.trans (becomes_ready becomes.self woken)⟩

/-! ## Joining -/

theorem waitFor_safe (t child : TaskId) : Safe (st.waitFor t child) := by
  unfold State.waitFor
  refine .bind (.task child) fun awaited _ => .bind (.task t) fun _ _ => ?_
  split
  · exact .pure _
  · split
    · exact .pure _
    · exact .pure _

/-- The state in which a task waits for another one and is entered among its joiners. -/
def joined (st : State V C) (t child : TaskId) : State V C :=
  (st.announceWait t (.task child)).modifyTask child fun task =>
    { task with joiners := task.joiners.push t }

theorem waitFor_ok {child : TaskId} {reply : Except Deadlock (Option (Outcome V))}
    (done : st.waitFor t child = .ok (reply, st')) : ∃ awaited, st.tasks.get? child = some awaited ∧
      ((reply = .ok awaited.outcome ∧ awaited.outcome ≠ none ∧ st' = st) ∨
        awaited.outcome = none ∧ ((∃ refusal, reply = .error refusal ∧
            st.refusal? t (.task child) = some refusal ∧ st' = st) ∨
          reply = .ok none ∧ st.refusal? t (.task child) = none ∧ st' = st.joined t child)) := by
  simp only [State.waitFor, bind_ok, task_ok] at done
  obtain ⟨awaited, found, _, _, done⟩ := done
  refine ⟨awaited, found, ?_⟩
  split at done
  · next outcome ended =>
    simp only [pure_ok, Prod.mk.injEq] at done
    exact .inl ⟨by rw [← done.1, ended], by simp [ended], done.2.symm⟩
  · next unfinished =>
    refine .inr ⟨unfinished, ?_⟩
    split at done
    · next refusal refused =>
      simp only [pure_ok, Prod.mk.injEq] at done
      exact .inl ⟨refusal, done.1.symm, refused, done.2.symm⟩
    · next allowed =>
      simp only [pure_ok, Prod.mk.injEq] at done
      exact .inr ⟨done.1.symm, allowed, done.2.symm⟩

theorem get?_joined (found : st.tasks.get? t = some task) (child u : TaskId) :
    (st.joined t child).tasks.get? u = (if u = t then some { task with waiting := some (.task child) }
      else st.tasks.get? u).map fun other =>
        if u = child then { other with joiners := other.joiners.push t } else other := by
  have announced : Becomes st t { task with waiting := some (.task child) }
      (st.announceWait t (.task child)) := becomes_modifyTask found _
  rw [joined, get?_modifyTask]
  split
  · next same => rw [same, announced]
  · next other => rw [announced]; simp

/-- A calm task waits for a task that has no outcome yet. -/
theorem Balanced.joined (balanced : st.Balanced) (found : st.tasks.get? t = some task)
    (live : task.life = .running) (calm : task.arranged = false) {child : TaskId} {awaited : Task V}
    (known : st.tasks.get? child = some awaited) (unfinished : awaited.outcome = none) :
    (st.joined t child).Balanced := by
  have booked := balanced.announceWait found live calm (.task child) (by simp)
  have announced : Becomes st t { task with waiting := some (.task child) }
      (st.announceWait t (.task child)) := becomes_modifyTask found _
  obtain ⟨other, there, ended⟩ : ∃ other, (st.announceWait t (.task child)).tasks.get? child = some other ∧
      other.outcome = none := by
    by_cases same : child = t
    · subst same
      obtain rfl := Option.some.inj (found.symm.trans known)
      exact ⟨_, announced.self, unfinished⟩
    · exact ⟨awaited, (announced.other same).trans known, unfinished⟩
  have becomes : Becomes _ child { other with joiners := other.joiners.push t } (st.joined t child) :=
    becomes_modifyTask there _
  have sane := booked.sane there
  refine ⟨becomes.sane ?_ booked.sane, ?_, ?_, ?_⟩
  · refine ⟨sane.external, sane.notified, sane.waits, sane.parked, sane.settled, fun terminal => ?_⟩
    have settled := sane.settled
    rw [ended, show other.life.isTerminal = true from terminal] at settled
    simp at settled
  · refine booked.seated.sit (.joiners child) announced.self rfl rfl (fun u => ?_)
      (fun place => ?_) fun u => by simp
    · rw [becomes]
      split
      · next same => rw [same, there]; rfl
      · rfl
    · cases place with
      | joiners c =>
        by_cases same : c = child
        · subst same
          simp [sitters, joiners, becomes.self, there]
        · simp [sitters, joiners, becomes.other same, same]
      | line r => simp only [reduceCtorEq, ↓reduceIte]; rfl
      | queue s => simp only [reduceCtorEq, ↓reduceIte]; rfl
  · exact booked.counted.keep (f := fun task => { task with joiners := task.joiners.push t }) there
      fun _ _ => rfl
  · exact booked.lined.modifyTask child fun _ => rfl

/-! ## New tasks and schedulers -/

theorem Counted.addTable {ahead : SchedulerId → Counter → Int} (counted : st.Counted ahead)
    (task : Task V) (idle : ∀ s c, task.weight s c = 0) :
    ({ st with tasks := st.tasks.add task } : State V C).Counted ahead := by
  intro s scheduler found c
  have same : State.tally { st with tasks := st.tasks.add task } s c = st.tally s c := by
    rw [tally, Table.total_add, idle, Int.add_zero]
    rfl
  rw [same]
  exact counted s scheduler found c

/-- Changing what a scheduler neither queues nor counts. -/
theorem Balanced.modifyScheduler (balanced : st.Balanced) (s : SchedulerId) {f : Scheduler → Scheduler}
    (ready : ∀ scheduler, (f scheduler).ready = scheduler.ready)
    (count : ∀ scheduler c, (f scheduler).count c = scheduler.count c) :
    (st.modifyScheduler s f).Balanced :=
  balanced.of_same rfl (sitters_modifyScheduler ready) (Counted.modifyScheduler balanced.counted s count)
    ((Quiet.modifyScheduler st s ready).lined balanced.lined)

/-- Stopping a scheduler that has nothing to run drops no task. -/
theorem stop_idle {s : SchedulerId} (idle : st.queue s = []) (done : st.stop s = .ok st') :
    st' = st.modifyScheduler s fun other => { other with isShutDown := true, ready := .empty } := by
  simp only [State.stop, bind_ok, scheduler_ok, pure_ok] at done
  obtain ⟨scheduler, found, rfl⟩ := done
  have empty : scheduler.ready.toList = [] := by simpa [queue, found] using idle
  rw [empty]
  rfl

theorem queue_stopped {s : SchedulerId} (idle : st.queue s = []) (u : SchedulerId) :
    (st.modifyScheduler s fun other => { other with isShutDown := true, ready := .empty }).queue u =
      st.queue u := by
  unfold queue at idle ⊢
  rw [get?_modifyScheduler]
  split
  · next same =>
    subst same
    rw [idle]
    cases st.schedulers.get? u with
    | none => rfl
    | some scheduler => rfl
  · rfl

/-- A scheduler that has nothing to run was stopped. -/
theorem Balanced.stop (balanced : st.Balanced) {s : SchedulerId} (idle : st.queue s = [])
    (done : st.stop s = .ok st') : st'.Balanced ∧ st'.tasks = st.tasks := by
  have lined := (Quiet.stop done).lined balanced.lined
  obtain rfl := stop_idle idle done
  refine ⟨balanced.of_same rfl (fun place => ?_) ?_ lined, rfl⟩
  · cases place with
    | queue u => exact queue_stopped idle u
    | line r => rfl
    | joiners c => rfl
  · exact Counted.modifyScheduler balanced.counted s fun _ c => by cases c <;> rfl

theorem addScheduler_ok {settings : Settings} {g : RegistryId} {reply : Except HostError SchedulerId}
    (done : st.addScheduler settings g = .ok (reply, st')) : st' = st ∨ ∃ workers, st' = { st with
      schedulers := st.schedulers.add (.new settings g workers) } := by
  unfold State.addScheduler at done
  split at done
  · simp only [pure_ok, Prod.mk.injEq] at done
    exact .inl done.2.symm
  · simp at done
  · simp only [pure_ok, Prod.mk.injEq] at done
    exact .inr ⟨_, done.2.symm⟩

theorem queue_addScheduler (settings : Settings) (g : RegistryId) (workers : Nat) (s : SchedulerId) :
    State.queue { st with schedulers := st.schedulers.add (.new settings g workers) } s = st.queue s := by
  simp only [queue, Table.get?_add_eq]
  split
  · next fresh => simp [fresh, Scheduler.new]
  · rfl

/-- A scheduler without tasks has nothing to count. -/
theorem Counted.addScheduler (counted : st.Counted fun _ _ => 0)
    (known : ∀ {t task}, st.tasks.get? t = some task → (st.schedulers.get? task.scheduler).isSome = true)
    (settings : Settings) (g : RegistryId) (workers : Nat) :
    State.Counted { st with schedulers := st.schedulers.add (.new settings g workers) }
      fun _ _ => 0 := by
  intro s scheduler found c
  simp only [Table.get?_add_eq] at found
  split at found
  · next fresh =>
    obtain rfl := Option.some.inj found
    have nobody : st.tally s c = 0 := Table.total_eq_zero fun {t task} found => by
      have scheduled := known found
      rw [Task.weight, if_neg]
      rintro ⟨same, _⟩
      simp [same, fresh] at scheduled
    refine Eq.trans ?_ (congrArg (· + 0) nobody).symm
    cases c <;> rfl
  · exact counted s scheduler found c

theorem Balanced.addScheduler (balanced : st.Balanced) {settings : Settings} {g : RegistryId}
    {reply : Except HostError SchedulerId} (done : st.addScheduler settings g = .ok (reply, st')) :
    st'.Balanced ∧ st'.tasks = st.tasks := by
  have serves : Serves none (fun _ => none) st st' := serves_addScheduler done
  rcases addScheduler_ok done with rfl | ⟨workers, rfl⟩
  · exact ⟨balanced, rfl⟩
  · refine ⟨balanced.of_same rfl (fun place => ?_) ?_ (serves.keeps.lined balanced.lined), rfl⟩
    · cases place with
      | queue s => exact queue_addScheduler settings g workers s
      | line r => rfl
      | joiners c => rfl
    · exact Counted.addScheduler balanced.counted (scheduler_known balanced.lined) settings g workers

variable [Inhabited V]

theorem spawn_safe (s : SchedulerId) (entry : FrameId) : Safe (st.spawn s entry) := by
  unfold State.spawn
  refine .bind (.scheduler s) fun scheduler _ => ?_
  split
  · exact .pure _
  · exact .pure _

theorem get?_spawned (s : SchedulerId) (entry : FrameId) (own : Option Nat) (u : TaskId) :
    ((st.addTask s entry own).2.enlist s st.tasks.next).tasks.get? u = if u = st.tasks.next then
      some { Task.new s entry own with listed := true } else st.tasks.get? u := by
  have first : ∀ u, (st.addTask s entry own).2.tasks.get? u =
      if u = st.tasks.next then some (.new s entry own) else st.tasks.get? u :=
    fun u => st.tasks.get?_add_eq _ u
  have self : (st.addTask s entry own).2.tasks.get? st.tasks.next = some (.new s entry own) := by
    rw [first, if_pos rfl]
  have second : Becomes _ st.tasks.next { Task.new s entry own with listed := true }
      ((st.addTask s entry own).2.enlist s st.tasks.next) := becomes_modifyTask self _
  rw [second, first]
  split <;> rfl

theorem queue_spawned (s u : SchedulerId) (entry : FrameId) (own : Option Nat) :
    ((st.addTask s entry own).2.enlist s st.tasks.next).queue u = st.queue u :=
  @queue_modifyScheduler _ _ ((st.addTask s entry own).2.modifyTask st.tasks.next
    fun task => { task with listed := true }) s
    (fun scheduler => { scheduler with tasks := scheduler.tasks + 1 }) (fun _ => rfl) u

theorem Counted.spawned (counted : st.Counted fun _ _ => 0) (s : SchedulerId) (entry : FrameId)
    (own : Option Nat) :
    ((st.addTask s entry own).2.enlist s st.tasks.next).Counted fun _ _ => 0 := by
  have self : (st.addTask s entry own).2.tasks.get? st.tasks.next = some (.new s entry own) := by
    refine (st.tasks.get?_add_eq _ _).trans (if_pos rfl)
  have added : (st.addTask s entry own).2.Counted fun _ _ => 0 :=
    Counted.addTable counted (.new s entry own) fun s c => by
      cases c <;> simp [Task.weight, Task.counts, Task.new]
  have listed := added.modifyTask self fun task => { task with listed := true }
  have entered := @Counted.shifted _ _ _ _ listed s .tasks 1
    (fun scheduler => { scheduler with tasks := scheduler.tasks + 1 }) fun scheduler _ c => by
      cases c <;> simp [Scheduler.count]
  refine Counted.congr entered fun s c => ?_
  cases c <;> grind [shift, Task.weight, Task.counts, Task.new]

/-- A task that was created, and entered on the books of its scheduler. -/
theorem Balanced.spawned (balanced : st.Balanced) {s : SchedulerId} (entry : FrameId)
    (own : Option Nat) (known : (st.schedulers.get? s).isSome = true) :
    ((st.addTask s entry own).2.enlist s st.tasks.next).Balanced := by
  have tasks := @get?_spawned _ _ st _ s entry own
  have sitters : ∀ place, ((st.addTask s entry own).2.enlist s st.tasks.next).sitters place =
      st.sitters place := fun place => by
    cases place with
    | joiners c =>
      rw [State.sitters, joiners, tasks]
      split
      · next same => subst same; simp [State.sitters, joiners, Task.new]
      · rfl
    | line r => rfl
    | queue u => exact queue_spawned s u entry own
  have sane : Task.Sane { Task.new (V := V) s entry own with listed := true } :=
    ⟨by simp [Task.new], by simp [Task.new], by simp [Task.new], by simp [Task.new],
      by simp [Task.new, Life.isTerminal], by simp [Task.new, Life.isTerminal]⟩
  refine ⟨fun {u task} found => ?_, ⟨fun {u task} found place => ?_, fun {u place} sits => ?_,
    fun place => ?_⟩, balanced.counted.spawned s entry own, ?_⟩
  · rw [tasks] at found
    split at found
    · exact Option.some.inj found ▸ sane
    · exact balanced.sane found
  · rw [sitters]
    rw [tasks] at found
    split at found
    · next same =>
      obtain rfl := Option.some.inj found
      subst same
      simp only [not_false_eq_true, true_and, Task.place?, Task.new, reduceCtorEq, false_and,
        ↓reduceIte, iff_false]
      intro sits
      simpa using balanced.seated.known sits
    · exact balanced.seated.placed found place
  · rw [sitters] at sits
    rw [tasks]
    split
    · rfl
    · exact balanced.seated.known sits
  · rw [sitters]
    exact balanced.seated.distinct place
  · exact (Quiet.enlist _ s _).lined (balanced.lined.addTask known)

/-- The state in which a task with a thread of its own is on the books of its scheduler. -/
def boundTask (st : State V C) (s : SchedulerId) (entry : FrameId) (index : Nat) : State V C :=
  let st := st.modifyScheduler s fun scheduler => { scheduler with nextThread := index + 1 }
  let (t, st) := st.addTask s entry (some index)
  (st.modifyScheduler s fun scheduler => { scheduler with bound := scheduler.bound ++ [t] }).enlist s t

theorem Balanced.boundTask (balanced : st.Balanced) {s : SchedulerId} (known : (st.schedulers.get? s).isSome = true)
    (entry : FrameId) (index : Nat) : (st.boundTask s entry index).Balanced ∧
      ∀ u, (st.boundTask s entry index).tasks.get? u = if u = st.tasks.next then
        some { Task.new s entry (some index) with listed := true } else st.tasks.get? u := by
  -- The scheduler's own changes come before the task is entered on its books.
  have numbered := balanced.modifyScheduler s (f := fun other =>
    { other with nextThread := index + 1 }) (fun _ => rfl) fun _ c => by cases c <;> rfl
  have noted := numbered.modifyScheduler s (f := fun other =>
    { other with bound := other.bound ++ [st.tasks.next] }) (fun _ => rfl) fun _ c => by
      cases c <;> rfl
  exact ⟨noted.spawned entry (some index) (s := s) (by simp [isSome_modifyScheduler, known]),
    fun u => @get?_spawned _ _ ((st.modifyScheduler s fun other =>
      { other with nextThread := index + 1 }).modifyScheduler s fun other =>
      { other with bound := other.bound ++ [st.tasks.next] }) _ s entry (some index) u⟩

theorem Balanced.spawnBound_safe (balanced : st.Balanced) {s : SchedulerId} (entry : FrameId)
    (started : ∀ scheduler, st.schedulers.get? s = some scheduler →
      scheduler.settings.threadObstacle? scheduler.nextThread = none) : Safe (st.spawnBound s entry) := by
  unfold State.spawnBound
  refine .bind (.scheduler s) fun scheduler found => ?_
  split
  · exact .pure _
  · dsimp only
    rw [started scheduler (scheduler_ok.1 found)]
    obtain ⟨entered, tasks⟩ :=
      balanced.boundTask (s := s) (by simp [scheduler_ok.1 found]) entry scheduler.nextThread
    exact .bind (entered.start_safe ((tasks _).trans (if_pos rfl)) rfl) fun _ _ => .pure _

/-- A task was created with a thread of its own, and started. -/
theorem Balanced.spawnBound (balanced : st.Balanced) {s : SchedulerId} {entry : FrameId}
    {reply : Except HostError TaskId} (started : ∀ scheduler, st.schedulers.get? s = some scheduler →
      scheduler.settings.threadObstacle? scheduler.nextThread = none)
    (done : st.spawnBound s entry = .ok (reply, st')) : st'.Balanced ∧ (st'.tasks = st.tasks ∨
      ∃ task, task.life = .ready ∧ task.listed = true ∧ task.error = none ∧ task.top = some entry ∧
        ∀ u, st'.tasks.get? u = if u = st.tasks.next then some task else st.tasks.get? u) := by
  simp only [State.spawnBound, bind_ok, scheduler_ok] at done
  obtain ⟨scheduler, found, done⟩ := done
  split at done
  · simp only [pure_ok, Prod.mk.injEq] at done
    exact done.2 ▸ ⟨balanced, .inl rfl⟩
  · rw [started scheduler found] at done
    simp only [bind_ok, pure_ok, Prod.mk.injEq] at done
    obtain ⟨st₁, begun, _, rfl⟩ := done
    obtain ⟨entered, tasks⟩ := balanced.boundTask (s := s) (by simp [found]) entry scheduler.nextThread
    obtain ⟨balanced', becomes⟩ := entered.start ((tasks _).trans (if_pos rfl)) begun
    have tasks' : ∀ u, st₁.tasks.get? u = if u = st.tasks.next then some (Task.scheduled
        { Task.new s entry (some scheduler.nextThread) with listed := true, life := .ready })
        else st.tasks.get? u := fun u => by
      refine (becomes u).trans ?_
      by_cases same : u = st.tasks.next
      · exact (if_pos same).trans (if_pos same).symm
      · exact ((if_neg same).trans ((tasks u).trans (if_neg same))).trans (if_neg same).symm
    exact ⟨balanced', .inr ⟨_, rfl, rfl, rfl, rfl, tasks'⟩⟩

end Tasking.State
