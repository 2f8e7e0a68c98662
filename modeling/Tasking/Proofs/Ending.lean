import Tasking.Proofs.Sharing

/-! # Tasks come to their end

While the books are right nothing goes wrong when a task ends: whoever joined it can be woken, and its
scheduler's counters can be taken back.  `Safe` leaves open that something was asked for which does
not exist; `Grounded` says that this does not happen either, so that together they give a result.
-/

namespace Tasking

variable {V C : Type}

/-- Everything that the computation looks for exists. -/
def Grounded {α : Type} (x : Attempt V C α) : Prop :=
  ∀ crash, x = .error crash → crash.fault.isForeign = false

namespace Grounded

variable {α β : Type} {st : State V C}

theorem ok (a : α) : Grounded (.ok a : Attempt V C α) := by simp [Grounded]

theorem pure (a : α) : Grounded (Pure.pure a : Attempt V C α) := ok a

theorem bind {x : Attempt V C α} {f : α → Attempt V C β} (first : Grounded x)
    (rest : ∀ a, x = .ok a → Grounded (f a)) : Grounded (x >>= f) := by
  intro crash met
  cases found : x with
  | error other =>
    obtain rfl : other = crash := by simpa [found, Bind.bind, Except.bind] using met
    exact first other found
  | ok a =>
    apply rest a found
    simpa [found, Bind.bind, Except.bind] using met

theorem fail {fault : Fault} (own : fault.isForeign = false) :
    Grounded (st.fail fault : Attempt V C α) := by
  intro crash met
  obtain rfl := Except.error.inj met
  exact own

/-- A check that may be passed or not. -/
theorem check {p : Prop} [Decidable p] {fault : Fault} {unreached : α → Attempt V C β}
    {rest : Attempt V C β} (own : fault.isForeign = false) (grounded : Grounded rest) :
    Grounded (if p then st.fail fault >>= unreached else rest) := by
  split
  · exact .bind (.fail own) nofun
  · exact grounded

theorem task {t : TaskId} {task : Task V} (found : st.tasks.get? t = some task) : Grounded (st.task t) :=
  (State.task_ok.2 found : st.task t = _) ▸ ok task

theorem adjust {s : SchedulerId} {c : Counter} {change : Int}
    (known : (st.schedulers.get? s).isSome = true) : Grounded (st.adjust s c change) := by
  obtain ⟨scheduler, found⟩ := Option.isSome_iff_exists.1 known
  unfold State.adjust
  rw [State.scheduler_ok.2 found]
  exact .bind (.ok scheduler) fun _ _ => .check rfl (.pure _)

end Grounded

/-- A computation that breaks nothing, and finds all that it looks for, delivers its result. -/
theorem Safe.exists_ok {α : Type} {x : Attempt V C α} (safe : Safe x) (grounded : Grounded x) :
    ∃ a, x = .ok a := by
  cases met : x with
  | ok a => exact ⟨a, rfl⟩
  | error crash => exact absurd (safe crash met) (by simp [grounded crash met])

namespace State

variable {st st' : State V C} {t : TaskId} {task : Task V}

theorem schedule_grounded (found : st.tasks.get? t = some task) : Grounded (st.schedule t) := by
  unfold State.schedule State.claimLink
  refine .bind (.task found) fun _ _ => ?_
  split
  · exact .pure _
  · exact .bind (.bind (.task found) fun _ _ => .check rfl (.pure _)) fun _ _ => .pure _

theorem finishWait_grounded (lined : st.Lined) (found : st.tasks.get? t = some task) :
    Grounded (st.finishWait t) := by
  unfold State.finishWait
  refine .bind (.task found) fun task' found' => ?_
  obtain rfl := Option.some.inj (found.symm.trans (task_ok.1 found'))
  split
  · have known := scheduler_known lined found
    exact .adjust known
  · exact .pure _

theorem ready_grounded (lined : st.Lined) (found : st.tasks.get? t = some task) :
    Grounded (st.ready t) := by
  unfold State.ready
  refine .bind (.task found) fun task' found' => ?_
  obtain rfl := Option.some.inj (found.symm.trans (task_ok.1 found'))
  split
  · next parked =>
    have idle : st.life t ≠ some .running := by simp [State.life, found, parked]
    have known := scheduler_known lined found
    refine .bind (.adjust known) fun st₁ counts => ?_
    have lined₁ := ((Quiet.setLife idle rfl).trans (.adjust counts)).lined lined
    have first := (becomes_modifyTask found fun task =>
      { task with life := .ready, notified := false }).of_tasks (tasks_adjust counts)
    refine .bind (finishWait_grounded lined₁ first.self) fun st₂ finished => ?_
    exact schedule_grounded (becomes_finishWait first.self finished).self
  · have first := becomes_modifyTask found fun task => { task with notified := true }
    exact finishWait_grounded (lined.modifyTask t fun _ => rfl) first.self
  · exact .fail rfl

theorem readyAll_grounded {ts : List TaskId} (lined : st.Lined)
    (known : ∀ u ∈ ts, (st.tasks.get? u).isSome = true) : Grounded (st.readyAll ts) := by
  induction ts generalizing st with
  | nil => exact .pure _
  | cons t rest inductionHypothesis =>
    obtain ⟨task, found⟩ := Option.isSome_iff_exists.1 (known t (by simp))
    refine .bind (ready_grounded lined found) fun st₁ first => ?_
    refine inductionHypothesis ((Quiet.ready first).lined lined) fun u member => ?_
    rw [becomes_ready found first]
    split
    · rfl
    · exact known u (List.mem_cons_of_mem t member)

theorem retire_grounded (lined : st.Lined) (found : st.tasks.get? t = some task) :
    Grounded (st.retire t) := by
  have known := scheduler_known lined found
  unfold State.retire
  refine .bind (.task found) fun task' found' => ?_
  obtain rfl := Option.some.inj (found.symm.trans (task_ok.1 found'))
  refine .bind (.adjust known) fun st₁ counts => .adjust ?_
  obtain ⟨scheduler, _, _, rfl⟩ := adjust_ok.1 counts
  rw [isSome_modifyScheduler]
  exact known

variable [Inhabited V]

/-- A running task that has not arranged to wait can end. -/
theorem Balanced.exists_finish (result : Except (Error V) V) (balanced : st.Balanced)
    (found : st.tasks.get? t = some task) (live : task.life = .running)
    (calm : task.arranged = false) (listed : task.listed = true) :
    ∃ st', st.finish t result = .ok st' := by
  refine (balanced.finish_safe found live calm listed).exists_ok ?_
  have booked := balanced.closed result found live calm
  obtain ⟨own, known⟩ := balanced.joiners_wait result found calm
  have distinct := balanced.seated.distinct (.joiners t)
  unfold State.finish
  refine .bind (.task found) fun task' found' => .check rfl ?_
  obtain rfl := Option.some.inj (found.symm.trans (task_ok.1 found'))
  rw [← joiners_of_get? found]
  refine .bind (readyAll_grounded booked.lined fun u member => ?_) fun st₁ woken => ?_
  · obtain ⟨joiner, there, _⟩ := known u member
    exact Option.isSome_iff_exists.2 ⟨joiner, there⟩
  · obtain ⟨booked₁, wakes⟩ := booked.readyAll distinct known woken
    refine @retire_grounded _ _ _ _ (task.closed t result) booked₁.lined ?_
    rw [wakes, if_neg own, (becomes_closed found).self]

end State

end Tasking
