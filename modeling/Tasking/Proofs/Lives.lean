import Tasking.Proofs.Booking

/-! # The books over a task's life

What creating, starting, running, parking and ending a task do to the books.  Between operations
the books are balanced: no task is loose, and no counter is ahead.
-/

namespace Tasking

variable {V C : Type}

/-- The books say the same of two tasks: they differ in nothing but what they stand on, what that is
    resumed with, and who runs them. -/
def Task.SameBooks (task task' : Task V) : Prop :=
  task' = { task with
    top := task'.top, value := task'.value, error := task'.error, worker := task'.worker }

theorem Task.SameBooks.sane {task task' : Task V} (same : task.SameBooks task') (sane : task.Sane) :
    task'.Sane := by
  rw [same]
  exact ⟨sane.external, sane.notified, sane.waits, sane.parked, sane.settled, sane.left⟩

theorem Task.arranged_eq_false {task : Task V} :
    task.arranged = false ↔ task.notified = false ∧ task.waiting = none := by
  simp [Task.arranged]

/-- A task after its top frame suspended. -/
def Task.parked (task : Task V) : Task V :=
  if task.notified then Task.scheduled { task with life := .ready, notified := false }
  else { task with life := .waiting, notified := false }

/-- A task after its last frame finished. -/
def Task.closed [Inhabited V] (task : Task V) (t : TaskId) (result : Except (Error V) V) : Task V :=
  { task with
      life := State.finalLife result, notified := false, top := none, value := default, error := none,
      outcome := some (State.outcomeOf t result), joiners := .empty }

namespace State

/-- The books are right. -/
def Balanced (st : State V C) : Prop := st.Booked (fun _ => False) fun _ _ => 0

variable {st st' : State V C} {t : TaskId} {task : Task V}

namespace Balanced

theorem sane (balanced : st.Balanced) (found : st.tasks.get? t = some task) : task.Sane :=
  Booked.sane balanced found

theorem seated (balanced : st.Balanced) : st.Seated fun _ => False := Booked.seated balanced

theorem counted (balanced : st.Balanced) : st.Counted fun _ _ => 0 := Booked.counted balanced

theorem lined (balanced : st.Balanced) : st.Lined := Booked.lined balanced

/-- Changing what the books do not speak of. -/
theorem of_same (balanced : st.Balanced) (tasks : st'.tasks = st.tasks)
    (sitters : ∀ place, st'.sitters place = st.sitters place)
    (counted : st'.Counted fun _ _ => 0) (lined : st'.Lined) : st'.Balanced where
  sane found := balanced.sane (tasks ▸ found)
  seated := balanced.seated.congr (fun u => by rw [tasks]) sitters fun _ => .rfl
  counted := counted
  lined := lined

theorem modifyTask (balanced : st.Balanced) (found : st.tasks.get? t = some task)
    {f : Task V → Task V} (same : ∀ task : Task V, task.SameBooks (f task)) : (st.modifyTask t f).Balanced where
  sane := (becomes_modifyTask found f).sane ((same task).sane (balanced.sane found)) balanced.sane
  seated := by
    refine balanced.seated.keep (fun task => ?_) fun task _ => ?_
    · rw [same task]
    · rw [same task]
      rfl
  counted := by
    refine balanced.counted.keep found fun s c => ?_
    rw [same task]
    rfl
  lined := balanced.lined.modifyTask t fun task => by rw [same task]

/-- A task that is not started yet, or is running and has not arranged to wait, sits nowhere. -/
theorem astray (balanced : st.Balanced) (found : st.tasks.get? t = some task)
    (idle : task.place? = none) : st.Astray t := balanced.seated.astray found (.inr idle)

end Balanced

/-! ## Starting -/

theorem start_ok (found : st.tasks.get? t = some task) (done : st.start t = .ok st') :
    task.life = .init ∧ ∃ st₁, (st.setLife t .ready).adjust task.scheduler .runnable 1 = .ok st₁ ∧
      st₁.schedule t = .ok st' := by
  simp only [State.start, advance, bind_ok, task_ok, check_ok, pure_ok] at done
  obtain ⟨task', found', _, ⟨task'', found'', fit, rfl⟩, st₁, counts, scheduled⟩ := done
  obtain rfl := Option.some.inj (found.symm.trans found')
  obtain rfl := Option.some.inj (found.symm.trans found'')
  simp only [not_or, not_not] at fit
  exact ⟨fit.1, st₁, counts, scheduled⟩

theorem Counted.start {ahead : SchedulerId → Counter → Int} (counted : st.Counted ahead)
    (found : st.tasks.get? t = some task) (done : st.start t = .ok st') : st'.Counted ahead := by
  obtain ⟨new, st₁, counts, scheduled⟩ := start_ok found done
  have woken := counted.modifyTask found fun task => { task with life := .ready, notified := false }
  refine Counted.schedule (Counted.congr (Counted.adjust woken counts) fun s c => ?_) scheduled
  cases c <;> grind [shift, Task.weight, Task.counts]

theorem becomes_start (found : st.tasks.get? t = some task) (done : st.start t = .ok st') :
    Becomes st t (Task.scheduled { task with life := .ready, notified := false }) st' := by
  obtain ⟨_, st₁, counts, scheduled⟩ := start_ok found done
  have first : Becomes st t { task with life := .ready, notified := false } st₁ :=
    (becomes_modifyTask found _).of_tasks (tasks_adjust counts)
  exact first.trans (becomes_schedule first.self scheduled)

theorem Balanced.start (balanced : st.Balanced) (found : st.tasks.get? t = some task)
    (done : st.start t = .ok st') : st'.Balanced ∧
      Becomes st t (Task.scheduled { task with life := .ready, notified := false }) st' := by
  have becomes := becomes_start found done
  obtain ⟨new, st₁, counts, scheduled⟩ := start_ok found done
  have sane := balanced.sane found
  have waitless : task.waiting = none := by
    by_contra waits
    simpa [new] using sane.waits waits
  have first : Becomes st t { task with life := .ready, notified := false } st₁ :=
    (becomes_modifyTask found _).of_tasks (tasks_adjust counts)
  have idle : st.life t ≠ some .running := by simp [State.life, found, new]
  have begun : Quiet st st₁ := (Quiet.setLife idle rfl).trans (.adjust counts)
  refine ⟨⟨becomes.sane (Task.Sane.scheduled ?_) balanced.sane, ?_, ?_,
    (Quiet.start done).lined balanced.lined⟩, becomes⟩
  · exact ⟨sane.external, by simp, fun waits => absurd waitless waits, by simp,
      by simpa [new, Life.isTerminal] using sane.settled, by simp [Life.isTerminal]⟩
  · have moved : (st.setLife t .ready).Seated (· = t) := balanced.seated.modifyTask found (fun _ => rfl)
      (.inr (by simp [Task.place?, waitless, new])) (.inl rfl) fun other => by simp [other]
    exact (moved.adjust counts).schedule (begun.lined balanced.lined) first.self rfl rfl
      waitless (fun u => by simp) scheduled
  · exact Counted.start balanced.counted found done

theorem Balanced.start_safe (balanced : st.Balanced) (found : st.tasks.get? t = some task)
    (new : task.life = .init) : Safe (st.start t) := by
  have sane := balanced.sane found
  have waitless : task.waiting = none := by
    by_contra waits
    simpa [new] using sane.waits waits
  have idle : st.life t ≠ some .running := by simp [State.life, found, new]
  have woken := balanced.counted.modifyTask found fun task => { task with life := .ready, notified := false }
  unfold State.start State.advance
  refine .bind (.task t) fun task' found' => .bind (.bind (.task t) fun task'' found'' =>
    .check ?_ (.pure _)) fun st₀ moved => ?_
  · obtain rfl := Option.some.inj (found.symm.trans (task_ok.1 found''))
    simp [new, Life.canMove]
  · obtain rfl := Option.some.inj (found.symm.trans (task_ok.1 found'))
    simp only [bind_ok, task_ok, check_ok, pure_ok] at moved
    obtain ⟨_, _, _, rfl⟩ := moved
    refine .bind (Counted.adjust_safe woken ?_) fun st₁ counts => Astray.schedule_safe (fun place => ?_) ?_
    · grind [Task.weight, Task.counts]
    · rw [sitters_adjust counts, sitters_setLife]
      exact balanced.astray found (by simp [Task.place?, waitless, new]) place
    · exact ((Quiet.setLife idle rfl).trans (.adjust counts)).lined balanced.lined

/-! ## Arranging to wait -/

theorem Balanced.yield (balanced : st.Balanced) (found : st.tasks.get? t = some task)
    (waitless : task.waiting = none) (done : st.yield t = .ok st') :
    st'.Balanced ∧ Becomes st t { task with notified := true } st' := by
  simp only [State.yield, bind_ok, task_ok, check_ok, pure_ok] at done
  obtain ⟨task', found', live, rfl⟩ := done
  obtain rfl := Option.some.inj (found.symm.trans found')
  have sane := balanced.sane found
  have becomes := becomes_modifyTask found fun task => { task with notified := true }
  refine ⟨⟨becomes.sane ?_ balanced.sane, balanced.seated.keep (fun _ => rfl) fun _ _ => rfl,
    balanced.counted.keep found fun _ _ => rfl, ?_⟩, becomes⟩
  · exact ⟨sane.external, fun _ => ⟨by simpa using live, waitless⟩, sane.waits, sane.parked, sane.settled,
      sane.left⟩
  · exact balanced.lined.modifyTask t fun _ => rfl

theorem yield_safe (found : st.tasks.get? t = some task) (live : task.life = .running) :
    Safe (st.yield t) := by
  unfold State.yield
  refine .bind (.task t) fun task' found' => .check ?_ (.pure _)
  obtain rfl := Option.some.inj (found.symm.trans (task_ok.1 found'))
  simp [live]

theorem waitExternal_ok (found : st.tasks.get? t = some task) (done : st.waitExternal t = .ok st') :
    task.life = .running ∧ if task.external then
        st' = st.modifyTask t fun task => { task with waiting := some .external, external := true }
      else
        (st.modifyTask t fun task => { task with waiting := some .external, external := true }).adjust
          task.scheduler .external 1 = .ok st' := by
  simp only [State.waitExternal, bind_ok, task_ok, check_ok] at done
  obtain ⟨task', found', live, done⟩ := done
  obtain rfl := Option.some.inj (found.symm.trans found')
  refine ⟨by simpa using live, ?_⟩
  split at done
  · next outside => exact (if_pos outside).mpr (pure_ok.1 done).symm
  · next inside => exact (if_neg inside).mpr done

theorem Counted.waitExternal {ahead : SchedulerId → Counter → Int} (counted : st.Counted ahead)
    (found : st.tasks.get? t = some task) (done : st.waitExternal t = .ok st') : st'.Counted ahead := by
  obtain ⟨_, done⟩ := waitExternal_ok found done
  have announced := counted.modifyTask found fun task =>
    { task with waiting := some .external, external := true }
  split at done
  · next outside =>
    subst done
    refine announced.congr fun s c => ?_
    cases c <;> grind [Task.weight, Task.counts]
  · next inside =>
    refine (Counted.adjust announced done).congr fun s c => ?_
    cases c <;> grind [shift, Task.weight, Task.counts]

theorem becomes_waitExternal (found : st.tasks.get? t = some task) (done : st.waitExternal t = .ok st') :
    Becomes st t { task with waiting := some .external, external := true } st' := by
  obtain ⟨_, done⟩ := waitExternal_ok found done
  have becomes := becomes_modifyTask found fun task =>
    { task with waiting := some .external, external := true }
  split at done
  · exact done ▸ becomes
  · exact becomes.of_tasks (tasks_adjust done)

theorem Balanced.waitExternal (balanced : st.Balanced) (found : st.tasks.get? t = some task)
    (calm : task.arranged = false) (done : st.waitExternal t = .ok st') : st'.Balanced ∧
      Becomes st t { task with waiting := some .external, external := true } st' := by
  have becomes := becomes_waitExternal found done
  obtain ⟨quiet, waitless⟩ := Task.arranged_eq_false.1 calm
  have lined := (Quiet.waitExternal done).lined balanced.lined
  have counted := Counted.waitExternal balanced.counted found done
  obtain ⟨live, done⟩ := waitExternal_ok found done
  have sane := balanced.sane found
  have inside : task.external = false := by
    have iff := sane.external
    rw [waitless] at iff
    simpa using iff
  rw [inside] at done
  simp only [Bool.false_eq_true, ↓reduceIte] at done
  refine ⟨⟨becomes.sane ?_ balanced.sane, ?_, ?_, lined⟩, becomes⟩
  · exact ⟨by simp, by simp [quiet], fun _ => .inl live, by simp, sane.settled, sane.left⟩
  · have announced : (st.modifyTask t fun task =>
        { task with waiting := some .external, external := true }).Seated fun _ => False :=
      balanced.seated.modifyTask found (fun _ => rfl)
        (.inr (by simp [Task.place?, waitless, live]))
        (.inr rfl) fun _ => .rfl
    exact announced.adjust done
  · exact counted

theorem Balanced.waitExternal_safe (balanced : st.Balanced) (found : st.tasks.get? t = some task)
    (live : task.life = .running) : Safe (st.waitExternal t) := by
  unfold State.waitExternal
  refine .bind (.task t) fun task' found' => .check ?_ ?_
  · obtain rfl := Option.some.inj (found.symm.trans (task_ok.1 found'))
    simp [live]
  · obtain rfl := Option.some.inj (found.symm.trans (task_ok.1 found'))
    split
    · exact .pure _
    · next inside =>
      have announced := balanced.counted.modifyTask found fun task =>
        { task with waiting := some .external, external := true }
      exact Counted.adjust_safe announced (by grind [Task.weight, Task.counts])

/-! ## Running -/

theorem sitters_dequeued {s : SchedulerId} {rest : Line TaskId}
    (known : (st.schedulers.get? s).isSome = true) (place : Place) :
    (st.dequeued t s rest).sitters place =
      if place = .queue s then rest.toList else st.sitters place := by
  cases place with
  | queue u =>
    refine (queue_dequeued known u).trans ?_
    by_cases same : u = s <;> simp [same, sitters]
  | line r => simp only [reduceCtorEq, ↓reduceIte]; rfl
  | joiners c =>
    simp only [reduceCtorEq, ↓reduceIte]
    exact joiners_modifyTask (f := fun task => { task with linked := false }) (fun _ => rfl) c

theorem Counted.dequeued {ahead : SchedulerId → Counter → Int} (counted : st.Counted ahead)
    (found : st.tasks.get? t = some task) (s : SchedulerId) (rest : Line TaskId) :
    (st.dequeued t s rest).Counted ahead := by
  have unlinked := counted.keep (f := fun task => { task with linked := false }) found fun _ _ => rfl
  exact Counted.modifyScheduler unlinked s (f := fun scheduler => { scheduler with ready := rest })
    fun _ c => by cases c <;> rfl

/-- The oldest ready task was taken out of its queue. -/
theorem Balanced.takeReady (balanced : st.Balanced) {s : SchedulerId}
    (done : st.takeReady s = .ok (some t, st')) : st'.Booked (· = t) (fun _ _ => 0) ∧
      ∃ task, st.tasks.get? t = some task ∧ task.life = .ready ∧
        Becomes st t { task with linked := false } st' := by
  have lined := (Quiet.takeReady done).lined balanced.lined
  rcases takeReady_ok done with ⟨none', _⟩ | ⟨t', rest, same, known, line, rfl⟩
  · simp at none'
  obtain rfl := Option.some.inj same
  have sits : t ∈ st.sitters (.queue s) := by simp [sitters, line]
  obtain ⟨task, found⟩ := Option.isSome_iff_exists.1 (balanced.seated.known sits)
  have should := ((balanced.seated.placed found _).1 sits).2
  have becomes : Becomes st t { task with linked := false } (st.dequeued t s rest) :=
    becomes_modifyTask found _
  have sane := balanced.sane found
  refine ⟨⟨becomes.sane ?_ balanced.sane, ?_, ?_, lined⟩, task, found, ?_, becomes⟩
  · exact ⟨sane.external, sane.notified, sane.waits, sane.parked, sane.settled, sane.left⟩
  · refine balanced.seated.rise (.queue s) line (fun u => ?_) (sitters_dequeued known) fun u => ?_
    · rw [becomes]
      split
      · next same => rw [same, found]; rfl
      · rfl
    · simp
  · exact Counted.dequeued balanced.counted found s rest
  · unfold Task.place? at should
    split at should <;> simp_all

theorem beginRun_ok {w : Worker} (found : st.tasks.get? t = some task) (done : st.beginRun t w = .ok st') :
    task.life = .ready ∧ st' = (st.setLife t .running).modifyTask t fun task =>
      { task with worker := some w } := by
  simp only [State.beginRun, advance, bind_ok, task_ok, check_ok, pure_ok] at done
  obtain ⟨_, ⟨task', found', fit, rfl⟩, rfl⟩ := done
  obtain rfl := Option.some.inj (found.symm.trans found')
  simp only [not_or, not_not] at fit
  exact ⟨fit.1, rfl⟩

theorem Counted.beginRun {ahead : SchedulerId → Counter → Int} {w : Worker} (counted : st.Counted ahead)
    (found : st.tasks.get? t = some task) (done : st.beginRun t w = .ok st') : st'.Counted ahead := by
  obtain ⟨ready, rfl⟩ := beginRun_ok found done
  have moved := counted.modifyTask found fun task => { task with life := .running, notified := false }
  have same : (st.setLife t .running).Counted ahead := Counted.congr moved fun s c => by
    cases c <;> grind [Task.weight, Task.counts]
  exact Counted.keep same (becomes_modifyTask found _).self fun _ _ => rfl

theorem becomes_beginRun {w : Worker} (found : st.tasks.get? t = some task)
    (done : st.beginRun t w = .ok st') :
    Becomes st t { task with life := .running, notified := false, worker := some w } st' := by
  obtain ⟨_, rfl⟩ := beginRun_ok found done
  have first := becomes_modifyTask found fun task => { task with life := .running, notified := false }
  exact first.trans (becomes_modifyTask first.self fun task => { task with worker := some w })

/-- A task that was taken out of its queue, or has a thread of its own, is taken up. -/
theorem Booked.beginRun {w : Worker} {loose : TaskId → Prop} (booked : st.Booked loose fun _ _ => 0)
    (only : ∀ u, loose u → u = t) (out : loose t ∨ task.place? = none)
    (found : st.tasks.get? t = some task) (done : st.beginRun t w = .ok st') : st'.Balanced ∧
      Becomes st t { task with life := .running, notified := false, worker := some w } st' := by
  have lined := (Quiet.beginRun done).1.lined booked.lined
  have becomes := becomes_beginRun found done
  obtain ⟨ready, rfl⟩ := beginRun_ok found done
  have sane := booked.sane found
  have waitless : task.waiting = none := by
    by_contra waits
    simpa [ready] using sane.waits waits
  refine ⟨⟨becomes.sane ?_ booked.sane, ?_, ?_, lined⟩, becomes⟩
  · exact ⟨sane.external, by simp, fun _ => .inl rfl, by simp,
      by simpa [ready, Life.isTerminal] using sane.settled, by simp [Life.isTerminal]⟩
  · have moved : (st.setLife t .running).Seated fun _ => False :=
      booked.seated.modifyTask found (fun _ => rfl) out (.inr (by simp [Task.place?, waitless]))
        fun other => ⟨False.elim, fun loose => other (only _ loose)⟩
    exact moved.keep (fun _ => rfl) fun _ _ => rfl
  · exact Counted.beginRun booked.counted found done

theorem beginRun_safe {w : Worker} (found : st.tasks.get? t = some task) (ready : task.life = .ready) :
    Safe (st.beginRun t w) := by
  unfold State.beginRun State.advance
  refine .bind (.bind (.task t) fun task' found' => .check ?_ (.pure _)) fun _ _ => .pure _
  obtain rfl := Option.some.inj (found.symm.trans (task_ok.1 found'))
  simp [ready, Life.canMove]

theorem takeReady_safe (s : SchedulerId) : Safe (st.takeReady s) := by
  unfold State.takeReady
  refine .bind (.scheduler s) fun scheduler _ => ?_
  split
  · exact .pure _
  · exact .pure _

/-! ## Parking -/

/-- A task that was woken in the meantime is ready again; any other task parks. -/
theorem park_ok (found : st.tasks.get? t = some task) (done : st.park t = .ok st') :
    task.life = .running ∧ ((task.notified = true ∧ (st.setLife t .ready).schedule t = .ok st') ∨
      task.notified = false ∧ task.waiting ≠ none ∧
        (st.setLife t .waiting).adjust task.scheduler .runnable (-1) = .ok st') := by
  simp only [State.park, bind_ok, task_ok, guard_ok] at done
  obtain ⟨task', found', live, done⟩ := done
  obtain rfl := Option.some.inj (found.symm.trans found')
  refine ⟨by simpa using live, ?_⟩
  split at done
  · next notified => exact .inl ⟨notified, done⟩
  · next unnoticed =>
    obtain ⟨waits, done⟩ := guard_ok.1 done
    exact .inr ⟨by simpa using unnoticed, by simpa using waits, done⟩

theorem Counted.park {ahead : SchedulerId → Counter → Int} (counted : st.Counted ahead)
    (found : st.tasks.get? t = some task) (done : st.park t = .ok st') : st'.Counted ahead := by
  obtain ⟨live, ⟨notified, scheduled⟩ | ⟨unnoticed, waits, counts⟩⟩ := park_ok found done
  · have woken := counted.modifyTask found fun task => { task with life := .ready, notified := false }
    refine Counted.schedule (Counted.congr woken fun s c => ?_) scheduled
    cases c <;> grind [Task.weight, Task.counts]
  · have moved := counted.modifyTask found fun task => { task with life := .waiting, notified := false }
    refine (Counted.adjust moved counts).congr fun s c => ?_
    cases c <;> grind [shift, Task.weight, Task.counts]

theorem becomes_park (found : st.tasks.get? t = some task) (done : st.park t = .ok st') :
    Becomes st t task.parked st' := by
  unfold Task.parked
  obtain ⟨_, ⟨notified, scheduled⟩ | ⟨unnoticed, _, counts⟩⟩ := park_ok found done
  · have first : Becomes st t { task with life := .ready, notified := false } (st.setLife t .ready) :=
      becomes_modifyTask found _
    rw [if_pos notified]
    exact first.trans (becomes_schedule first.self scheduled)
  · rw [if_neg (by simp [unnoticed])]
    exact (becomes_modifyTask found _).of_tasks (tasks_adjust counts)

theorem Balanced.park (balanced : st.Balanced) (found : st.tasks.get? t = some task)
    (done : st.park t = .ok st') : st'.Balanced ∧ Becomes st t task.parked st' := by
  have sane := balanced.sane found
  have becomes := becomes_park found done
  refine ⟨?_, becomes⟩
  obtain ⟨live, ⟨notified, scheduled⟩ | ⟨unnoticed, waits, counts⟩⟩ := park_ok found done
  · obtain ⟨_, waitless⟩ := sane.notified notified
    have first : Becomes st t { task with life := .ready, notified := false } (st.setLife t .ready) :=
      becomes_modifyTask found _
    have lined : (st.setLife t .ready).Lined := balanced.lined.modifyTask t fun _ => rfl
    rw [Task.parked, if_pos notified] at becomes
    refine ⟨becomes.sane (Task.Sane.scheduled ?_) balanced.sane, ?_, ?_, (Quiet.schedule scheduled).lined lined⟩
    · exact ⟨sane.external, by simp, fun waits => absurd waitless waits, by simp,
        by simpa [live, Life.isTerminal] using sane.settled, by simp [Life.isTerminal]⟩
    · have moved : (st.setLife t .ready).Seated (· = t) := balanced.seated.modifyTask found (fun _ => rfl)
        (.inr (by simp [Task.place?, waitless, live])) (.inl rfl) fun other => by simp [other]
      exact moved.schedule lined first.self rfl rfl waitless (fun u => by simp) scheduled
    · exact Counted.park balanced.counted found done
  · have lined : (st.setLife t .waiting).Lined := balanced.lined.modifyTask t fun _ => rfl
    rw [Task.parked, if_neg (by simp [unnoticed])] at becomes
    refine ⟨becomes.sane ?_ balanced.sane, ?_, ?_, (Quiet.adjust counts).lined lined⟩
    · exact ⟨sane.external, by simp, fun _ => .inr rfl, fun _ => waits,
        by simpa [live, Life.isTerminal] using sane.settled, by simp [Life.isTerminal]⟩
    · have moved : (st.setLife t .waiting).Seated fun _ => False :=
        balanced.seated.keep (fun _ => rfl) fun task' found' => by
          obtain rfl := Option.some.inj (found.symm.trans found')
          unfold Task.place?
          cases aim : task.waiting with
          | none => exact absurd aim waits
          | some target => cases target <;> rfl
      exact moved.adjust counts
    · exact Counted.park balanced.counted found done

theorem Balanced.park_safe (balanced : st.Balanced) (found : st.tasks.get? t = some task)
    (live : task.life = .running) (arranged : task.arranged = true) : Safe (st.park t) := by
  unfold State.park
  refine .bind (.task t) fun task' found' => ?_
  obtain rfl := Option.some.inj (found.symm.trans (task_ok.1 found'))
  rw [if_neg (by simp [live])]
  split
  · next notified =>
    obtain ⟨_, waitless⟩ := (balanced.sane found).notified notified
    refine Astray.schedule_safe (fun place => ?_) (balanced.lined.modifyTask t fun _ => rfl)
    rw [sitters_setLife]
    exact balanced.astray found (by simp [Task.place?, waitless, live]) place
  · next unnoticed =>
    refine .guard ?_ ?_
    · simpa [Task.arranged, unnoticed, Option.isSome_iff_ne_none] using arranged
    · have moved := balanced.counted.modifyTask found fun task =>
        { task with life := .waiting, notified := false }
      exact Counted.adjust_safe moved (by grind [Task.weight, Task.counts])

/-! ## Ending -/

/-- Whoever sits among the joiners of a task waits for it. -/
theorem Balanced.waits_of_joins (balanced : st.Balanced) {c : TaskId} (joins : t ∈ st.joiners c) :
    ∃ task, st.tasks.get? t = some task ∧ task.waiting = some (.task c) := by
  have sits : t ∈ st.sitters (.joiners c) := joins
  obtain ⟨task, found⟩ := Option.isSome_iff_exists.1 (balanced.seated.known sits)
  have should := ((balanced.seated.placed found _).1 sits).2
  refine ⟨task, found, ?_⟩
  unfold Task.place? at should
  split at should <;> simp_all

theorem isTerminal_finalLife (result : Except (Error V) V) : (finalLife result).isTerminal = true := by
  cases result <;> rfl

theorem joiners_of_get? (found : st.tasks.get? t = some task) : st.joiners t = task.joiners.toList := by
  simp [joiners, found]

variable [Inhabited V]

/-- The state in which a task has its outcome, and nobody was told yet. -/
def closed (st : State V C) (t : TaskId) (result : Except (Error V) V) : State V C :=
  (st.setLife t (finalLife result)).modifyTask t fun task =>
    { task with
        top := none, value := default, error := none,
        outcome := some (outcomeOf t result), joiners := .empty }

theorem finish_ok {result : Except (Error V) V} (found : st.tasks.get? t = some task)
    (done : st.finish t result = .ok st') : task.life = .running ∧
      ∃ st₁, (st.closed t result).readyAll task.joiners.toList = .ok st₁ ∧ st₁.retire t = .ok st' := by
  simp only [State.finish, bind_ok, task_ok, check_ok] at done
  obtain ⟨task', found', live, st₁, woken, retired⟩ := done
  obtain rfl := Option.some.inj (found.symm.trans found')
  exact ⟨by simpa using live, st₁, woken, retired⟩

theorem becomes_closed {result : Except (Error V) V} (found : st.tasks.get? t = some task) :
    Becomes st t (task.closed t result) (st.closed t result) := by
  have first := becomes_modifyTask found fun task =>
    { task with life := finalLife result, notified := false }
  exact first.trans (becomes_modifyTask first.self _)

/-- A task that ended still counts as one that runs. -/
theorem Counted.closed (result : Except (Error V) V) (counted : st.Counted fun _ _ => 0)
    (found : st.tasks.get? t = some task) (live : task.life = .running) :
    (st.closed t result).Counted (shift (fun _ _ => 0) task.scheduler .runnable 1) := by
  have ended := counted.modifyTask found fun task =>
    { task with life := finalLife result, notified := false }
  have counted : (st.setLife t (finalLife result)).Counted
      (shift (fun _ _ => 0) task.scheduler .runnable 1) := Counted.congr ended fun s c => by
    cases result <;> cases c <;> grind [shift, Task.weight, Task.counts, finalLife]
  have first := becomes_modifyTask found fun task =>
    { task with life := finalLife result, notified := false }
  exact Counted.keep counted first.self fun _ _ => rfl

theorem Balanced.closed (result : Except (Error V) V) (balanced : st.Balanced)
    (found : st.tasks.get? t = some task) (live : task.life = .running)
    (calm : task.arranged = false) : (st.closed t result).Booked (· ∈ st.joiners t)
      (shift (fun _ _ => 0) task.scheduler .runnable 1) := by
  have sane := balanced.sane found
  obtain ⟨_, waitless⟩ := Task.arranged_eq_false.1 calm
  have becomes : Becomes st t (task.closed t result) (st.closed t result) := becomes_closed found
  have nowhere : (task.closed t result).place? = task.place? := by
    simp only [Task.closed, Task.place?, waitless, live]
    cases result <;> rfl
  refine ⟨becomes.sane ?_ balanced.sane, ?_, ?_, ?_⟩
  · exact ⟨sane.external, by simp [Task.closed], fun waits => absurd waitless waits, fun parked =>
      by cases result <;> simp [Task.closed, finalLife] at parked, by
        simp [Task.closed, isTerminal_finalLife], fun _ => rfl⟩
  · refine balanced.seated.dismiss (.joiners t) (fun u => ?_) fun place => ?_
    · rw [becomes]
      split
      · next same => simp [same, found, nowhere]
      · rfl
    · cases place with
      | joiners c =>
        by_cases same : c = t
        · subst same
          simp [sitters, joiners, becomes.self, Task.closed]
        · simp [sitters, joiners, becomes.other same, same]
      | line r => simp only [reduceCtorEq, ↓reduceIte]; rfl
      | queue s => simp only [reduceCtorEq, ↓reduceIte]; rfl
  · exact Counted.closed result balanced.counted found live
  · have lined : (st.setLife t (finalLife result)).Lined := balanced.lined.modifyTask t fun _ => rfl
    exact lined.modifyTask t fun _ => rfl

/-- The joiners of a task are other tasks, and wait for it. -/
theorem Balanced.joiners_wait (result : Except (Error V) V) (balanced : st.Balanced)
    (found : st.tasks.get? t = some task) (calm : task.arranged = false) :
    t ∉ st.joiners t ∧ ∀ u ∈ st.joiners t, ∃ task, (st.closed t result).tasks.get? u = some task ∧
      task.waiting ≠ none := by
  obtain ⟨_, waitless⟩ := Task.arranged_eq_false.1 calm
  have other : t ∉ st.joiners t := fun joins => by
    obtain ⟨task', found', waits⟩ := balanced.waits_of_joins joins
    obtain rfl := Option.some.inj (found.symm.trans found')
    simp [waitless] at waits
  refine ⟨other, fun u joins => ?_⟩
  obtain ⟨task', found', waits⟩ := balanced.waits_of_joins joins
  have different : u ≠ t := fun same => other (same ▸ joins)
  refine ⟨task', ?_, by simp [waits]⟩
  rw [(becomes_closed found).other different, found']

omit [Inhabited V] in
/-- A task that ended counts no longer. -/
theorem Counted.retire (counted : st.Counted (shift (fun _ _ => 0) task.scheduler .runnable 1))
    (found : st.tasks.get? t = some task) (ended : task.life.isTerminal = true)
    (listed : task.listed = true) (done : st.retire t = .ok st') : st'.Counted fun _ _ => 0 := by
  simp only [State.retire, bind_ok, task_ok] at done
  obtain ⟨task', found', st₂, tasks, runnable⟩ := done
  obtain rfl := Option.some.inj (found.symm.trans found')
  have struck := counted.modifyTask found fun task => { task with listed := false }
  refine (Counted.adjust (Counted.adjust struck tasks) runnable).congr fun s c => ?_
  have idle : task.life ≠ .ready ∧ task.life ≠ .running := by
    constructor <;> intro same <;> simp [same, Life.isTerminal] at ended
  cases c <;> grind [shift, Task.weight, Task.counts]

omit [Inhabited V] in
theorem becomes_retire (done : st.retire t = .ok st') : ∃ task, st.tasks.get? t = some task ∧
    Becomes st t { task with listed := false } st' := by
  simp only [State.retire, bind_ok, task_ok] at done
  obtain ⟨task, found, st₁, tasks, runnable⟩ := done
  have struck := becomes_modifyTask found fun task => { task with listed := false }
  exact ⟨task, found, (struck.of_tasks (tasks_adjust tasks)).of_tasks (tasks_adjust runnable)⟩

/-- A task ended, and those that joined it were woken. -/
theorem Balanced.finish {result : Except (Error V) V} (balanced : st.Balanced)
    (found : st.tasks.get? t = some task) (calm : task.arranged = false)
    (listed : task.listed = true) (done : st.finish t result = .ok st') : st'.Balanced ∧
      ∀ u, st'.tasks.get? u = if u = t then some { task.closed t result with listed := false }
        else if u ∈ st.joiners t then (st.tasks.get? u).map Task.woken else st.tasks.get? u := by
  obtain ⟨live, st₁, woken, retired⟩ := finish_ok found done
  obtain ⟨own, known⟩ := balanced.joiners_wait result found calm
  have becomes : Becomes st t (task.closed t result) (st.closed t result) := becomes_closed found
  rw [← joiners_of_get? found] at woken
  obtain ⟨booked, wakes⟩ := (balanced.closed result found live calm).readyAll
    (balanced.seated.distinct (.joiners t)) known woken
  have found₁ : st₁.tasks.get? t = some (task.closed t result) := by
    rw [wakes, if_neg own, becomes.self]
  have lined := (Quiet.retire retired).lined booked.lined
  have counted : st'.Counted fun _ _ => 0 :=
    @Counted.retire _ _ _ _ _ (task.closed t result) booked.counted found₁ (isTerminal_finalLife result)
      listed retired
  obtain ⟨task', found', last⟩ := becomes_retire retired
  obtain rfl := Option.some.inj (found₁.symm.trans found')
  simp only [State.retire, bind_ok, task_ok] at retired
  obtain ⟨_, _, st₂, tasks, runnable⟩ := retired
  have sane := booked.sane found₁
  refine ⟨⟨last.sane ?_ booked.sane, ?_, ?_, lined⟩, fun u => ?_⟩
  · exact ⟨sane.external, sane.notified, sane.waits, sane.parked, sane.settled, sane.left⟩
  · have seated : (st₁.modifyTask t fun task => { task with listed := false }).Seated fun _ => False :=
      booked.seated.keep (fun _ => rfl) fun _ _ => rfl
    exact (seated.adjust tasks).adjust runnable
  · exact counted
  · rw [last]
    by_cases same : u = t
    · simp [same]
    · rw [if_neg same, if_neg same, wakes, becomes.other same]

theorem Balanced.finish_safe {result : Except (Error V) V} (balanced : st.Balanced)
    (found : st.tasks.get? t = some task) (live : task.life = .running)
    (calm : task.arranged = false) (listed : task.listed = true) : Safe (st.finish t result) := by
  have booked := balanced.closed result found live calm
  obtain ⟨own, known⟩ := balanced.joiners_wait result found calm
  have distinct := balanced.seated.distinct (.joiners t)
  have ahead : ∀ s c, 0 ≤ shift (fun _ _ => 0) task.scheduler .runnable 1 s c := fun s c => by
    grind [shift]
  unfold State.finish
  refine .bind (.task t) fun task' found' => .check ?_ ?_
  · obtain rfl := Option.some.inj (found.symm.trans (task_ok.1 found'))
    simp [live]
  obtain rfl := Option.some.inj (found.symm.trans (task_ok.1 found'))
  rw [← joiners_of_get? found]
  refine .bind (booked.readyAll_safe ahead distinct known) fun st₁ woken => ?_
  obtain ⟨booked₁, wakes⟩ := booked.readyAll distinct known woken
  have found₁ : st₁.tasks.get? t = some (task.closed t result) := by
    rw [wakes, if_neg own, (becomes_closed found).self]
  unfold State.retire
  refine .bind (.task t) fun task'' found'' => ?_
  obtain rfl := Option.some.inj (found₁.symm.trans (task_ok.1 found''))
  have counted := booked₁.counted.modifyTask found₁ fun task => { task with listed := false }
  refine .bind (Counted.adjust_safe counted ?_) fun st₂ tasks =>
    Counted.adjust_safe (Counted.adjust counted tasks) ?_
  · cases result <;> grind [shift, Task.weight, Task.counts, Task.closed, finalLife]
  · cases result <;> grind [shift, Task.weight, Task.counts, Task.closed, finalLife]

end State

end Tasking
