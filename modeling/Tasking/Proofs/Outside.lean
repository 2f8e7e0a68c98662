import Tasking.Proofs.Ledger

/-! # Waiting for events outside

A task announces that it waits for an event outside and then suspends; whoever completes the event wakes
it.  The event may be completed before the announcement, between the announcement and the park, or after
the park (`Timing`).  Whenever it is, the task is ready once afterwards.

It is off the books of external waits exactly if the announcement came first (`external_wait_balanced`).
A wake that comes before the announcement is spent when the task would park, but the announcement stays:
the task counts as waiting for as long as it does not wait again, even when it is at its end
(`hasty_unbalanced`).
-/

namespace Tasking

variable {V C : Type}

/-- When an event is completed that a task waits for. -/
inductive Timing where
  | beforeAnnouncement | beforePark | afterPark
  deriving DecidableEq

namespace State

/-- A task waits for an event outside, which is completed at some time. -/
def waitOutside (st : State V C) (t : TaskId) : Timing → Attempt V C (State V C)
  | .beforeAnnouncement => do
    let st ← st.ready t
    let st ← st.waitExternal t
    st.park t
  | .beforePark => do
    let st ← st.waitExternal t
    let st ← st.ready t
    st.park t
  | .afterPark => do
    let st ← st.waitExternal t
    let st ← st.park t
    st.ready t

variable {st st' : State V C} {t : TaskId} {task task' : Task V} {timing : Timing}

theorem tally_of_becomes (found : st.tasks.get? t = some task) (becomes : Becomes st t task' st')
    (s : SchedulerId) (c : Counter) :
    st'.tally s c = st.tally s c + (task'.weight s c - task.weight s c) := by
  unfold tally
  rw [← Table.total_modify found (Task.weight s c) fun _ => task']
  apply Table.total_congr
  intro u
  rw [becomes, Table.get?_modify]
  split
  · rw [found]
    rfl
  · rfl

/-- What becomes of the task. -/
theorem becomes_waitOutside (found : st.tasks.get? t = some task) (calm : task.arranged = false)
    (done : st.waitOutside t timing = .ok st') : task.life = .running ∧ Becomes st t (Task.scheduled
      { task with
          life := .ready, notified := false,
          waiting := if timing = .beforeAnnouncement then some .external else none,
          external := decide (timing = .beforeAnnouncement) }) st' := by
  obtain ⟨unmarked, waitless⟩ := Task.arranged_eq_false.1 calm
  cases timing with
  | beforeAnnouncement =>
    simp only [waitOutside, bind_ok] at done
    obtain ⟨st₁, woken, st₂, announced, parked⟩ := done
    have first := becomes_ready found woken
    have live : task.life = .running := by
      have still := (waitExternal_ok first.self announced).1
      unfold Task.woken at still
      split at still
      · simp [Task.scheduled] at still
      · exact still
    have second := first.trans (becomes_waitExternal first.self announced)
    have third := second.trans (becomes_park second.self parked)
    simp only [Task.woken, live, reduceCtorEq, if_false, Task.parked, if_true] at third
    exact ⟨live, third⟩
  | beforePark =>
    simp only [waitOutside, bind_ok] at done
    obtain ⟨st₁, announced, st₂, woken, parked⟩ := done
    have live := (waitExternal_ok found announced).1
    have first := becomes_waitExternal found announced
    have second := first.trans (becomes_ready first.self woken)
    have third := second.trans (becomes_park second.self parked)
    simp only [Task.woken, live, reduceCtorEq, if_false, Task.parked, if_true] at third
    exact ⟨live, third⟩
  | afterPark =>
    simp only [waitOutside, bind_ok] at done
    obtain ⟨st₁, announced, st₂, parked, woken⟩ := done
    have live := (waitExternal_ok found announced).1
    have first := becomes_waitExternal found announced
    have second := first.trans (becomes_park first.self parked)
    have third := second.trans (becomes_ready second.self woken)
    simp only [Task.parked, unmarked, Bool.false_eq_true, if_false, Task.woken, if_true] at third
    exact ⟨live, third⟩

/-- The accounts are kept meanwhile. -/
theorem Accounts.waitOutside (accounts : st.Accounts) (done : st.waitOutside t timing = .ok st') :
    st'.Accounts := by
  cases timing with
  | beforeAnnouncement =>
    simp only [State.waitOutside, bind_ok] at done
    obtain ⟨st₁, woken, st₂, announced, parked⟩ := done
    exact ((accounts.ready woken).1.waitExternal announced).1.parks parked |>.1
  | beforePark =>
    simp only [State.waitOutside, bind_ok] at done
    obtain ⟨st₁, announced, st₂, woken, parked⟩ := done
    exact ((accounts.waitExternal announced).1.ready woken).1.parks parked |>.1
  | afterPark =>
    simp only [State.waitOutside, bind_ok] at done
    obtain ⟨st₁, announced, st₂, parked, woken⟩ := done
    exact ((accounts.waitExternal announced).1.parks parked).1.ready woken |>.1

/-- Whenever the event is completed, the task is ready afterwards, sits in the ready queue once, and no other
task has changed.  The task waits for nothing any more and is not counted any more if and only if the event
was completed after the announcement. -/
theorem external_wait_balanced (accounts : st.Accounts) (found : st.tasks.get? t = some task)
    (calm : task.arranged = false) (uncounted : task.external = false)
    (done : st.waitOutside t timing = .ok st') :
    ∃ task', st'.tasks.get? t = some task' ∧ task'.life = .ready ∧ task'.notified = false ∧
      (st'.queue task.scheduler).count t = 1 ∧ (∀ u, u ≠ t → st'.tasks.get? u = st.tasks.get? u) ∧
      (task'.waiting = none ∧ task'.external = false ↔ timing ≠ .beforeAnnouncement) ∧
      ∀ {s scheduler scheduler'}, st.schedulers.get? s = some scheduler →
        st'.schedulers.get? s = some scheduler' →
        (st'.statsOf s scheduler').external = (st.statsOf s scheduler).external +
          if timing = .beforeAnnouncement ∧ s = task.scheduler then 1 else 0 := by
  obtain ⟨live, becomes⟩ := becomes_waitOutside found calm done
  have accounts' := accounts.waitOutside done
  refine ⟨_, becomes.self, rfl, rfl, ?_, fun u => becomes.other, ?_, ?_⟩
  · exact List.count_eq_one_of_mem (accounts'.filed.distinct _)
      (accounts'.filed.queued.2 ⟨nofun, _, becomes.self, rfl⟩)
  · cases timing <;> simp [Task.scheduled]
  · intro s scheduler scheduler' known known'
    have before := accounts.counted s scheduler known .external
    have after := accounts'.counted s scheduler' known' .external
    have tally := tally_of_becomes found becomes s .external
    have nonneg := tally_nonneg st s .external
    simp only [Scheduler.count, Int.add_zero] at before after
    simp only [statsOf, before, after, tally, Task.weight, Task.counts, Task.scheduled, uncounted]
    cases timing with
    | beforeAnnouncement =>
      by_cases own : task.scheduler = s
      · simp only [own, decide_true, and_true, if_true, Bool.false_eq_true, and_false, if_false]
        omega
      · simp [own, Ne.symm own]
    | beforePark => simp
    | afterPark => simp

end State

/-- The sleeper is woken after it parked. -/
theorem sleeper_balanced : ∃ st' task', (Crew.sleeperRun.crew 9).state.waitOutside ⟨1⟩ .afterPark = .ok st' ∧
    st'.tasks.get? ⟨1⟩ = some task' ∧ task'.life = .ready ∧ task'.waiting = none ∧ task'.external = false := by
  have live : ∃ task, (Crew.sleeperRun.crew 9).state.tasks.get? ⟨1⟩ = some task ∧ task.arranged = false ∧
      task.external = false := by
    have books : ((Crew.sleeperRun.crew 9).state.tasks.get? ⟨1⟩).map
        (fun task => (task.arranged, task.external)) = some (false, false) := by decide +kernel
    obtain ⟨task, found, books⟩ := Option.map_eq_some_iff.1 books
    exact ⟨task, found, congrArg Prod.fst books, congrArg Prod.snd books⟩
  obtain ⟨task, found, calm, uncounted⟩ := live
  have done : ((Crew.sleeperRun.crew 9).state.waitOutside ⟨1⟩ .afterPark).isOk = true := by decide +kernel
  obtain ⟨st', done⟩ : ∃ st', (Crew.sleeperRun.crew 9).state.waitOutside ⟨1⟩ .afterPark = .ok st' := by
    cases result : (Crew.sleeperRun.crew 9).state.waitOutside ⟨1⟩ .afterPark with
    | ok st' => exact ⟨st', rfl⟩
    | error crash => simp [result, Except.isOk, Except.toBool] at done
  obtain ⟨task', found', ready, _, _, _, off, _⟩ := State.external_wait_balanced
    (Crew.sleeperRun.accountable 9 (by decide)).accounts found calm uncounted done
  obtain ⟨waitless, uncounted'⟩ := off.2 (by decide)
  exact ⟨st', task', done, found', ready, waitless, uncounted'⟩

/-! ### An event that was completed before it was announced

The task finishes when it is resumed again, and counts as waiting for the event ever after. -/

def hasty : Program Unit Bool :=
  .ask (.newCell false) fun woken =>
  .ask .newRegistry fun g =>
  .ask (.newScheduler .manual g) fun
    | .error _ => .answer .suspended
    | .ok s => .newFrame "hasty" (fun context _ _ =>
        .ask (.read woken) fun
        | true => .answer (.done ())
        | false => .ask (.write woken true) fun _ =>
          .ask (.ready context.task) fun _ => .ask (.waitExternal context.task) fun _ =>
          .answer .suspended) fun entry =>
      .ask (.spawn s entry) fun
      | .error _ => .answer .suspended
      | .ok t => .ask (.start t) fun _ => .drive s fun _ => .answer (.done ())

/-- The host of the task after so many steps. -/
def hastyHost (n : Nat) : Config Unit Bool := (Config.start (.initial 1) hasty).after n

theorem hasty_ok : ∀ n < 19, (hastyHost n).step.isOk = true := by decide +kernel

/-- The host came to its end, so nobody runs.  The only task is done, and no task is parked, but the
scheduler counts one that waits for an event outside. -/
theorem hasty_unbalanced : (∀ n < 19, (hastyHost n).step.isOk = true) ∧
    (hastyHost 19).answer?.isSome = true ∧ (hastyHost 19).state.life ⟨1⟩ = some .done ∧
    (hastyHost 19).state.tasks.size = 1 ∧
    ((hastyHost 19).state.schedulers.get? ⟨1⟩).map
      (fun scheduler => ((hastyHost 19).state.statsOf ⟨1⟩ scheduler).external) = some 1 :=
  ⟨hasty_ok, by decide +kernel, by decide +kernel, by decide +kernel, by decide +kernel⟩

end Tasking
