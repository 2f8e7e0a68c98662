import Tasking.Proofs.Counting
import Tasking.Proofs.Places

/-! # Keeping books

The books say of every task where it sits and which counters count it.  `State.Booked` is the
invariant: every task is in a state that makes sense (`Task.Sane`), every task sits where it should,
counters and links are right.  Starting, waking, parking and finishing tasks keep the books, and
break nothing as long as they are right.
-/

namespace Tasking

variable {V C : Type}

/-- What a task remembers makes sense. -/
structure Task.Sane (task : Task V) : Prop where
  external : task.external = true ↔ task.waiting = some .external
  notified : task.notified = true → task.life = .running ∧ task.waiting = none
  waits : task.waiting ≠ none → task.life = .running ∨ task.life = .waiting
  parked : task.life = .waiting → task.waiting ≠ none
  settled : task.outcome.isSome = task.life.isTerminal
  left : task.life.isTerminal = true → task.joiners.toList = []

/-- The task was woken, or will be woken by somebody it waits for. -/
def Task.arranged (task : Task V) : Bool := task.notified || task.waiting.isSome

/-- A ready task after it was handed to whoever runs it. -/
def Task.scheduled (task : Task V) : Task V :=
  { task with linked := task.linked || task.bound.isNone }

/-- A task after it was woken. -/
def Task.woken (task : Task V) : Task V :=
  if task.life = .waiting then
    Task.scheduled
      { task with life := .ready, notified := false, waiting := none, external := false }
  else
    { task with notified := true, waiting := none, external := false }

namespace State

/-- The books are right, except that some tasks are loose and some counters are ahead. -/
structure Booked (st : State V C) (loose : TaskId → Prop) (ahead : SchedulerId → Counter → Int) :
    Prop where
  sane : ∀ {t task}, st.tasks.get? t = some task → task.Sane
  seated : st.Seated loose
  counted : st.Counted ahead
  lined : st.Lined

variable {st st' : State V C} {loose loose' : TaskId → Prop} {ahead : SchedulerId → Counter → Int}
  {t : TaskId} {task : Task V}

theorem tasks_adjust {s : SchedulerId} {c : Counter} {change : Int}
    (done : st.adjust s c change = .ok st') : st'.tasks = st.tasks := by
  obtain ⟨scheduler, _, _, rfl⟩ := adjust_ok.1 done
  rfl

theorem scheduler_known (lined : st.Lined) (found : st.tasks.get? t = some task) :
    (st.schedulers.get? task.scheduler).isSome = true :=
  lined.scheduler_known (t := t) (b := task.linked) (by simp [link, found])

/-- Whoever sits nowhere is in no queue. -/
theorem Astray.unlinked (astray : st.Astray t) (lined : st.Lined)
    (found : st.tasks.get? t = some task) : task.linked = false := by
  by_contra linked
  have link : st.link t = some (task.scheduler, true) := by simpa [State.link, found] using linked
  rcases lined.linked_queued link with ready | ⟨r, waits⟩
  · exact astray (.queue task.scheduler) ready
  · exact astray (.line r) waits

/-- The tasks of a state in which one task changed. -/
def Becomes (st : State V C) (t : TaskId) (task : Task V) (st' : State V C) : Prop :=
  ∀ u, st'.tasks.get? u = if u = t then some task else st.tasks.get? u

theorem becomes_modifyTask (found : st.tasks.get? t = some task) (f : Task V → Task V) :
    Becomes st t (f task) (st.modifyTask t f) := by
  intro u
  rw [get?_modifyTask, found]
  rfl

/-- The tasks of a state in which some tasks were woken. -/
def Wakes (st : State V C) (ts : List TaskId) (st' : State V C) : Prop :=
  ∀ u, st'.tasks.get? u = if u ∈ ts then (st.tasks.get? u).map Task.woken else st.tasks.get? u

namespace Becomes

variable {task' : Task V} {st'' : State V C}

theorem self (becomes : Becomes st t task st') : st'.tasks.get? t = some task := by
  rw [becomes, if_pos rfl]

theorem other (becomes : Becomes st t task st') {u : TaskId} (other : u ≠ t) :
    st'.tasks.get? u = st.tasks.get? u := by
  rw [becomes, if_neg other]

theorem trans (first : Becomes st t task st') (second : Becomes st' t task' st'') :
    Becomes st t task' st'' := by
  intro u
  rw [second, first]
  split <;> rfl

theorem of_tasks (becomes : Becomes st t task st') (same : st''.tasks = st'.tasks) :
    Becomes st t task st'' := by
  intro u
  rw [same, becomes]

theorem sane (becomes : Becomes st t task st') (good : task.Sane)
    (sane : ∀ {u task}, st.tasks.get? u = some task → task.Sane) {u : TaskId} {other : Task V}
    (found : st'.tasks.get? u = some other) : other.Sane := by
  rw [becomes] at found
  split at found
  · exact Option.some.inj found ▸ good
  · exact sane found

end Becomes

/-! ## Joining a ready queue -/

theorem becomes_enqueued (found : st.tasks.get? t = some task) (s : SchedulerId) :
    Becomes st t { task with linked := true } (st.enqueued t s) :=
  becomes_modifyTask found _

theorem becomes_refl (found : st.tasks.get? t = some task) : Becomes st t task st := by
  intro u
  split
  · next same => rw [same, found]
  · rfl

theorem becomes_schedule (found : st.tasks.get? t = some task) (done : st.schedule t = .ok st') :
    Becomes st t task.scheduled st' := by
  obtain ⟨task', found', ⟨bound, rfl⟩ | ⟨unbound, _, rfl⟩⟩ := schedule_ok done
  · obtain rfl := Option.some.inj (found.symm.trans found')
    have same : task.scheduled = task := by simp [Task.scheduled, Option.isNone_eq_false_iff.2 bound]
    rw [same]
    exact becomes_refl found
  · obtain rfl := Option.some.inj (found.symm.trans found')
    have linked : task.scheduled = { task with linked := true } := by
      simp [Task.scheduled, Option.isSome_eq_false_iff.1 unbound]
    rw [linked]
    exact becomes_enqueued found _

theorem Counted.schedule (counted : st.Counted ahead) (done : st.schedule t = .ok st') :
    st'.Counted ahead := by
  obtain ⟨task, found, ⟨_, rfl⟩ | ⟨_, _, rfl⟩⟩ := schedule_ok done
  · exact counted
  · have linked := counted.keep (f := fun task => { task with linked := true }) found fun _ _ => rfl
    exact Counted.modifyScheduler linked _ fun _ c => by cases c <;> rfl

theorem Seated.schedule (seated : st.Seated loose) (lined : st.Lined)
    (found : st.tasks.get? t = some task) (out : loose t)
    (ready : task.life = .ready) (woken : task.waiting = none)
    (settled : ∀ u, loose' u ↔ loose u ∧ u ≠ t) (done : st.schedule t = .ok st') :
    st'.Seated loose' := by
  obtain ⟨task', found', ⟨bound, rfl⟩ | ⟨unbound, _, rfl⟩⟩ := schedule_ok done
  · obtain rfl := Option.some.inj (found.symm.trans found')
    refine seated.settle found out ?_ settled
    simp [Task.place?, woken, Option.isSome_iff_ne_none.1 bound]
  · obtain rfl := Option.some.inj (found.symm.trans found')
    refine seated.sit (.queue task.scheduler) found out
      (by simpa [Task.place?, woken, ready] using Option.isSome_eq_false_iff.1 unbound) (fun u => ?_) (fun place => ?_) settled
    · rw [becomes_enqueued found]
      split
      · next same => rw [same, found]; rfl
      · rfl
    · cases place with
      | queue s =>
        refine (queue_enqueued (scheduler_known lined found) s).trans ?_
        by_cases same : s = task.scheduler <;> simp [same, sitters]
      | line r => simp only [reduceCtorEq, ↓reduceIte]; rfl
      | joiners c =>
        simp only [reduceCtorEq, ↓reduceIte]
        exact joiners_modifyTask (f := fun task => { task with linked := true }) (fun _ => rfl) c

theorem Astray.schedule_safe (astray : st.Astray t) (lined : st.Lined) : Safe (st.schedule t) := by
  unfold State.schedule State.claimLink
  refine .bind (.task t) fun task found => ?_
  have unlinked := astray.unlinked lined (task_ok.1 found)
  split
  · exact .pure _
  · refine .bind (.bind (.task t) fun task' found' => .check ?_ (.pure _)) fun _ _ => .pure _
    obtain rfl := Except.ok.inj (found.symm.trans found')
    simp [unlinked]

/-! ## Waking -/

theorem becomes_finishWait (found : st.tasks.get? t = some task) (done : st.finishWait t = .ok st') :
    Becomes st t { task with waiting := none, external := false } st' := by
  obtain ⟨task', _, done⟩ := finishWait_ok done
  have forgot : Becomes st t { task with waiting := none, external := false } (st.modifyTask t fun task =>
    { task with waiting := none, external := false }) := becomes_modifyTask found _
  split at done
  · exact forgot.of_tasks (tasks_adjust done)
  · exact done ▸ forgot

theorem Counted.finishWait (counted : st.Counted ahead) (done : st.finishWait t = .ok st') :
    st'.Counted ahead := by
  obtain ⟨task, found, done⟩ := finishWait_ok done
  have forgot := counted.modifyTask found fun task => { task with waiting := none, external := false }
  split at done
  · next external =>
    refine (Counted.adjust forgot done).congr fun s c => ?_
    cases c <;> grind [shift, Task.weight, Task.counts]
  · next inside =>
    subst done
    refine forgot.congr fun s c => ?_
    cases c <;> grind [Task.weight, Task.counts]

theorem Seated.finishWait (seated : st.Seated loose) (found : st.tasks.get? t = some task)
    (before : loose t ∨ task.place? = none) (after : loose' t ∨ task.life ≠ .ready)
    (apart : ∀ {u}, u ≠ t → (loose' u ↔ loose u)) (done : st.finishWait t = .ok st') :
    st'.Seated loose' := by
  obtain ⟨task', found', done⟩ := finishWait_ok done
  have forgot : (st.modifyTask t fun task =>
      { task with waiting := none, external := false }).Seated loose' := by
    refine seated.modifyTask found (fun _ => rfl) before (after.imp id fun busy => ?_) apart
    simp [Task.place?, busy]
  split at done
  · exact forgot.adjust done
  · exact done ▸ forgot

theorem finishWait_safe (counted : st.Counted ahead) (nonneg : ∀ s c, 0 ≤ ahead s c) :
    Safe (st.finishWait t) := by
  unfold State.finishWait
  refine .bind (.task t) fun task found => ?_
  split
  · next external =>
    have forgot := counted.modifyTask (task_ok.1 found) fun task =>
      { task with waiting := none, external := false }
    apply Counted.adjust_safe forgot
    have enough := nonneg task.scheduler .external
    simp only [Task.weight, Task.counts, external, and_self, ↓reduceIte, Bool.false_eq_true, and_false]
    omega
  · exact .pure _

/-- A parked task is woken in three steps, a running one in one. -/
theorem ready_ok (found : st.tasks.get? t = some task) (done : st.ready t = .ok st') :
    (task.life = .waiting ∧ ∃ st₁ st₂, (st.setLife t .ready).adjust task.scheduler .runnable 1 = .ok st₁ ∧
      st₁.finishWait t = .ok st₂ ∧ st₂.schedule t = .ok st') ∨
    task.life = .running ∧
      (st.modifyTask t fun task => { task with notified := true }).finishWait t = .ok st' := by
  simp only [State.ready, bind_ok, task_ok] at done
  obtain ⟨task', found', done⟩ := done
  obtain rfl := Option.some.inj (found.symm.trans found')
  split at done
  · next parked =>
    simp only [bind_ok] at done
    obtain ⟨st₁, counted, st₂, finished, scheduled⟩ := done
    exact .inl ⟨parked, st₁, st₂, counted, finished, scheduled⟩
  · next live => exact .inr ⟨live, done⟩
  · simp at done

theorem becomes_ready (found : st.tasks.get? t = some task)
    (done : st.ready t = .ok st') : Becomes st t task.woken st' := by
  rcases ready_ok found done with ⟨parked, st₁, st₂, counted, finished, scheduled⟩ | ⟨live, finished⟩
  · have first : Becomes st t { task with life := .ready, notified := false } st₁ :=
      (becomes_modifyTask found _).of_tasks (tasks_adjust counted)
    have second := first.trans (becomes_finishWait first.self finished)
    have third := second.trans (becomes_schedule second.self scheduled)
    rwa [Task.woken, if_pos parked]
  · have first := becomes_modifyTask found fun task => { task with notified := true }
    rw [Task.woken, if_neg (by simp [live])]
    exact first.trans (becomes_finishWait first.self finished)

theorem Counted.ready (counted : st.Counted ahead) (found : st.tasks.get? t = some task)
    (done : st.ready t = .ok st') : st'.Counted ahead := by
  rcases ready_ok found done with ⟨parked, st₁, st₂, counts, finished, scheduled⟩ | ⟨live, finished⟩
  · have woken := counted.modifyTask found fun task => { task with life := .ready, notified := false }
    refine Counted.schedule (Counted.finishWait (Counted.congr (Counted.adjust woken counts)
      fun s c => ?_) finished) scheduled
    cases c <;> grind [shift, Task.weight, Task.counts]
  · exact Counted.finishWait (counted.keep (f := fun task => { task with notified := true }) found
      fun _ _ => rfl) finished

theorem Seated.ready (seated : st.Seated loose) (lined : st.Lined)
    (found : st.tasks.get? t = some task)
    (out : loose t ∨ task.place? = none) (settled : ∀ u, loose' u ↔ loose u ∧ u ≠ t)
    (done : st.ready t = .ok st') : st'.Seated loose' := by
  rcases ready_ok found done with ⟨parked, st₁, st₂, counts, finished, scheduled⟩ | ⟨live, finished⟩
  · have moved : (st.setLife t .ready).Seated fun u => loose u ∨ u = t :=
      seated.modifyTask found (fun _ => rfl) out (.inl (.inr rfl)) fun other => or_iff_left other
    have first : Becomes st t { task with life := .ready, notified := false } st₁ :=
      (becomes_modifyTask found _).of_tasks (tasks_adjust counts)
    have second := first.trans (becomes_finishWait first.self finished)
    have idle : st.life t ≠ some .running := by simp [State.life, found, parked]
    have lined' := (((Quiet.setLife idle rfl).trans (.adjust counts)).trans (.finishWait finished)).lined
      lined
    have waitless : st₂.Seated fun u => loose u ∨ u = t :=
      (moved.adjust counts).finishWait first.self (.inl (.inr rfl)) (.inl (.inr rfl)) (fun _ => .rfl)
        finished
    refine waitless.schedule lined' second.self (.inr rfl) rfl rfl (fun u => ?_) scheduled
    rw [settled]
    tauto
  · have first := becomes_modifyTask found fun task => { task with notified := true }
    have noted : (st.modifyTask t fun task => { task with notified := true }).Seated loose :=
      seated.keep (fun _ => rfl) fun _ _ => rfl
    exact noted.finishWait first.self out (.inr (by simp [live])) (fun other => by simp [settled, other])
      finished

theorem sitters_adjust {s : SchedulerId} {c : Counter} {change : Int}
    (done : st.adjust s c change = .ok st') (place : Place) : st'.sitters place = st.sitters place := by
  obtain ⟨scheduler, _, _, rfl⟩ := adjust_ok.1 done
  exact sitters_modifyScheduler (fun _ => ready_withCount _ _ _) place

theorem sitters_setLife (st : State V C) (t : TaskId) (life : Life) (place : Place) :
    (st.setLife t life).sitters place = st.sitters place :=
  sitters_modifyTask (f := fun task => { task with life := life, notified := false }) (fun _ => rfl)
    place

theorem sitters_finishWait (done : st.finishWait t = .ok st') (place : Place) :
    st'.sitters place = st.sitters place := by
  obtain ⟨task, found, done⟩ := finishWait_ok done
  have forgot := @sitters_modifyTask _ _ st t (fun task =>
    { task with waiting := none, external := false }) (fun _ => rfl) place
  split at done
  · exact (sitters_adjust done place).trans forgot
  · exact done ▸ forgot

theorem ready_safe (counted : st.Counted ahead) (nonneg : ∀ s c, 0 ≤ ahead s c) (lined : st.Lined)
    (found : st.tasks.get? t = some task) (awake : task.life = .running ∨ task.life = .waiting)
    (astray : st.Astray t) : Safe (st.ready t) := by
  unfold State.ready
  refine .bind (.task t) fun task' found' => ?_
  obtain rfl : task = task' := Option.some.inj (found.symm.trans (task_ok.1 found'))
  cases awake with
  | inl live =>
    simp only [live]
    exact finishWait_safe (counted.keep (f := fun task => { task with notified := true }) found
      fun _ _ => rfl) nonneg
  | inr parked =>
    simp only [parked]
    have woken := counted.modifyTask found fun task => { task with life := .ready, notified := false }
    have idle : st.life t ≠ some .running := by simp [State.life, found, parked]
    refine .bind (Counted.adjust_safe woken ?_) fun st₁ counts => ?_
    · have enough := nonneg task.scheduler .runnable
      grind [Task.weight, Task.counts]
    have counted₁ : st₁.Counted ahead := Counted.congr (Counted.adjust woken counts) fun s c => by
      cases c <;> grind [shift, Task.weight, Task.counts]
    refine .bind (finishWait_safe counted₁ nonneg) fun st₂ finished => ?_
    apply Astray.schedule_safe
    · intro place
      rw [sitters_finishWait finished, sitters_adjust counts]
      exact sitters_setLife st t .ready place ▸ astray place
    · exact (((Quiet.setLife idle rfl).trans (.adjust counts)).trans (.finishWait finished)).lined lined

end State

theorem Task.Sane.scheduled {task : Task V} (sane : task.Sane) : task.scheduled.Sane :=
  ⟨sane.external, sane.notified, sane.waits, sane.parked, sane.settled, sane.left⟩

theorem Task.Sane.woken {task : Task V} (sane : task.Sane) (waits : task.waiting ≠ none) :
    task.woken.Sane := by
  unfold Task.woken
  split
  · next parked =>
    apply Task.Sane.scheduled
    exact ⟨by simp, by simp, by simp, by simp, by simpa [parked, Life.isTerminal] using sane.settled,
      by simp [Life.isTerminal]⟩
  · next awake =>
    have live := (sane.waits waits).resolve_right awake
    exact ⟨by simp, fun _ => ⟨live, rfl⟩, by simp, by simp [live], sane.settled, sane.left⟩

namespace State.Booked

variable {st st' : State V C} {loose loose' : TaskId → Prop} {ahead : SchedulerId → Counter → Int}
  {t : TaskId} {task : Task V}

theorem ready (booked : st.Booked loose ahead) (found : st.tasks.get? t = some task)
    (waits : task.waiting ≠ none) (out : loose t ∨ task.place? = none)
    (settled : ∀ u, loose' u ↔ loose u ∧ u ≠ t) (done : st.ready t = .ok st') :
    st'.Booked loose' ahead := by
  have sane := booked.sane found
  have becomes := becomes_ready found done
  exact ⟨becomes.sane (sane.woken waits) booked.sane,
    booked.seated.ready booked.lined found out settled done,
    Counted.ready booked.counted found done, (Quiet.ready done).lined booked.lined⟩

theorem ready_safe (booked : st.Booked loose ahead) (nonneg : ∀ s c, 0 ≤ ahead s c)
    (found : st.tasks.get? t = some task) (waits : task.waiting ≠ none)
    (out : loose t ∨ task.place? = none) : Safe (st.ready t) :=
  State.ready_safe booked.counted nonneg booked.lined found ((booked.sane found).waits waits)
    (booked.seated.astray found out)

/-! ## Waking several tasks -/

theorem readyAll {ts : List TaskId} (booked : st.Booked (· ∈ ts) ahead) (distinct : ts.Nodup)
    (known : ∀ u ∈ ts, ∃ task, st.tasks.get? u = some task ∧ task.waiting ≠ none)
    (done : st.readyAll ts = .ok st') : st'.Booked (fun _ => False) ahead ∧ st.Wakes ts st' := by
  induction ts generalizing st with
  | nil =>
    obtain rfl := pure_ok.1 done
    exact ⟨by simpa using booked, fun u => by simp⟩
  | cons t rest inductionHypothesis =>
    simp only [State.readyAll, bind_ok] at done
    obtain ⟨st₁, first, later⟩ := done
    obtain ⟨task, found, waits⟩ := known t (by simp)
    rw [List.nodup_cons] at distinct
    have becomes := becomes_ready found first
    have booked₁ : st₁.Booked (· ∈ rest) ahead := by
      refine booked.ready found waits (.inl (by simp)) (fun u => ?_) first
      have other : u ∈ rest → u ≠ t := fun member same => distinct.1 (same ▸ member)
      simp only [List.mem_cons]
      tauto
    obtain ⟨booked', wakes⟩ := inductionHypothesis booked₁ distinct.2 (fun u member => by
      have other : u ≠ t := fun same => distinct.1 (same ▸ member)
      rw [becomes.other other]
      exact known u (List.mem_cons_of_mem t member)) later
    refine ⟨booked', fun u => ?_⟩
    rw [wakes, becomes]
    by_cases same : u = t
    · subst same
      simp [distinct.1, found]
    · simp [same]

theorem readyAll_safe {ts : List TaskId} (booked : st.Booked (· ∈ ts) ahead)
    (nonneg : ∀ s c, 0 ≤ ahead s c) (distinct : ts.Nodup)
    (known : ∀ u ∈ ts, ∃ task, st.tasks.get? u = some task ∧ task.waiting ≠ none) :
    Safe (st.readyAll ts) := by
  induction ts generalizing st with
  | nil => exact .pure _
  | cons t rest inductionHypothesis =>
    obtain ⟨task, found, waits⟩ := known t (by simp)
    rw [List.nodup_cons] at distinct
    refine .bind (booked.ready_safe nonneg found waits (.inl (by simp))) fun st₁ first => ?_
    have becomes := becomes_ready found first
    refine inductionHypothesis (booked.ready found waits (.inl (by simp)) (fun u => ?_) first) distinct.2
      fun u member => ?_
    · have other : u ∈ rest → u ≠ t := fun member same => distinct.1 (same ▸ member)
      simp only [List.mem_cons]
      tauto
    · have other : u ≠ t := fun same => distinct.1 (same ▸ member)
      rw [becomes.other other]
      exact known u (List.mem_cons_of_mem t member)

end State.Booked

end Tasking
