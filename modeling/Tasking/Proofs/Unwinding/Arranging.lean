import Tasking.Proofs.Joins
import Tasking.Proofs.Unwinding.Unstirred

/-! # Waiting from a clear state

A clear task that arranges to wait waits for that one thing, in the one place where it should sit for it
(`State.Awaits`).  Nothing is in the way when it parks then, and when what it waits for comes about it is woken and will
be run once (`State.Recovers`).  `State.Fresh` sums this up.
-/

namespace Tasking

variable {V C : Type}

/-- The task that a request lets wait, and for what. -/
def Request.awaits? : Request V C → Option (TaskId × WaitTarget)
  | .waitExternal t => some (t, .external)
  | .acquire r t => some (t, .resource r)
  | .waitFor t child => some (t, .task child)
  | _ => none

/-- The traces of a task that waits for something and does nothing else. -/
def WaitTarget.trace (life : Life) : WaitTarget → Life × Bool × Option WaitTarget × Bool × Bool
  | .external => (life, false, some .external, true, false)
  | .resource r => (life, false, some (.resource r), false, true)
  | .task c => (life, false, some (.task c), false, false)

namespace State

variable {st st' st₁ st₂ : State V C} {t u c : TaskId} {task : Task V} {life : Life} {target : WaitTarget}
  {r : ResourceId}

/-- A task waits for one thing, in the one place where it should sit for that. -/
structure Awaits (st : State V C) (t : TaskId) (life : Life) (target : WaitTarget) : Prop where
  trace : st.trace? t = some (target.trace life)
  sits : ∀ place, (st.sitters place).count t = if target.place? = some place then 1 else 0

/-- A task is ready, waits for nothing, and will be run once. -/
structure Recovers (st : State V C) (t : TaskId) : Prop where
  ready : ∃ task, st.tasks.get? t = some task ∧ task.trace = (.ready, false, none, false, task.bound.isNone) ∧
    ∀ place, (st.sitters place).count t = if task.place? = some place then 1 else 0

theorem Astray.count (astray : st.Astray t) (place : Place) : (st.sitters place).count t = 0 :=
  List.count_eq_zero_of_not_mem (astray place)

theorem trace?_of_get? (found : st.tasks.get? t = some task) : st.trace? t = some task.trace := by
  simp [trace?, found]

theorem sitters_announceWait (t : TaskId) (target : WaitTarget) (place : Place) :
    (st.announceWait t target).sitters place = st.sitters place :=
  sitters_modifyTask (f := fun task => { task with waiting := some target }) (fun _ => rfl) place

theorem sitters_endRun (t : TaskId) (place : Place) : (st.endRun t).sitters place = st.sitters place :=
  sitters_modifyTask (f := fun task => { task with worker := none }) (fun _ => rfl) place

theorem sitters_notified (t : TaskId) (place : Place) :
    (st.modifyTask t fun task => { task with notified := true }).sitters place = st.sitters place :=
  sitters_modifyTask (f := fun task => { task with notified := true }) (fun _ => rfl) place

theorem sitters_enqueued {s : SchedulerId} (known : (st.schedulers.get? s).isSome = true) (place : Place) :
    (st.enqueued t s).sitters place = if place = .queue s then st.sitters place ++ [t] else st.sitters place := by
  cases place with
  | line q => simp only [reduceCtorEq, ↓reduceIte]; rfl
  | joiners d =>
    simp only [reduceCtorEq, ↓reduceIte]
    exact joiners_modifyTask (f := fun task => { task with linked := true }) (fun _ => rfl) d
  | queue v =>
    refine (queue_enqueued known v).trans ?_
    by_cases same : v = s <;> simp [same, sitters]

/-- A task that is ready and sits nowhere yet is scheduled. -/
theorem recovers_of_schedule (found : st.tasks.get? t = some task)
    (trace : task.trace = (.ready, false, none, false, false)) (astray : st.Astray t)
    (known : (st.schedulers.get? task.scheduler).isSome = true) (done : st.schedule t = .ok st') :
    st'.Recovers t := by
  simp only [Task.trace, Prod.mk.injEq] at trace
  obtain ⟨ready, quiet, waitless, uncounted, unlinked⟩ := trace
  obtain ⟨own, there, ⟨bound, rfl⟩ | ⟨free, _, rfl⟩⟩ := schedule_ok done <;>
    obtain rfl := Option.some.inj (found.symm.trans there)
  · have taken : task.bound ≠ none := Option.isSome_iff_ne_none.1 bound
    refine ⟨task, found, ?_, fun place => ?_⟩
    · simpa [Task.trace, ready, quiet, waitless, uncounted, unlinked] using bound
    · rw [astray.count, if_neg (by simp [Task.place?, waitless, taken])]
  · have free' : task.bound = none := by simpa using free
    refine ⟨_, (becomes_enqueued found task.scheduler).self, ?_, fun place => ?_⟩
    · simp [Task.trace, ready, quiet, waitless, uncounted, free']
    · have sits : ({ task with linked := true } : Task V).place? = some (.queue task.scheduler) := by
        simp [Task.place?, waitless, ready, free']
      rw [sitters_enqueued known, sits]
      by_cases here : place = .queue task.scheduler
      · rw [if_pos here, List.count_append, astray.count, here]
        simp
      · rw [if_neg here, astray.count, if_neg fun same => here (Option.some.inj same).symm]

/-- A parked task that sits nowhere is woken. -/
theorem recovers_of_ready {target : Option WaitTarget} {notified external : Bool}
    (trace : st.trace? t = some (.waiting, notified, target, external, false)) (astray : st.Astray t)
    (done : st.ready t = .ok st') : st'.Recovers t := by
  obtain ⟨task, found, same⟩ := Option.map_eq_some_iff.1 trace
  simp only [Task.trace, Prod.mk.injEq] at same
  obtain ⟨parked, _, _, _, unlinked⟩ := same
  obtain ⟨_, st₁, st₂, counted, finished, scheduled⟩ | ⟨live, _⟩ := ready_ok found done
  · have first : Becomes st t { task with life := .ready, notified := false } st₁ :=
      (becomes_modifyTask found fun task => { task with life := .ready, notified := false }).of_tasks
        (tasks_adjust counted)
    have second := becomes_finishWait first.self finished
    refine recovers_of_schedule second.self (by simp [Task.trace, unlinked]) (fun place sits => ?_) ?_ scheduled
    · rw [sitters_finishWait finished, sitters_adjust counted, sitters_setLife] at sits
      exact astray place sits
    · obtain ⟨scheduler, known, _, rfl⟩ := adjust_ok.1 counted
      refine (Remembers.finishWait finished).known ?_
      rw [isSome_modifyScheduler]
      exact Option.isSome_of_eq_some known
  · simp [parked] at live

/-! ### Arranging a wait -/

theorem Clear.awaits_of_waitExternal (clear : st.Clear t) (done : st.waitExternal t = .ok st') :
    st'.Awaits t .running .external := by
  obtain ⟨task, found, live, quiet, _, uncounted, unlinked⟩ := clear.found
  obtain ⟨_, counted⟩ := waitExternal_ok found done
  rw [uncounted, if_neg (by simp)] at counted
  refine ⟨?_, fun place => ?_⟩
  · rw [trace?_of_get? (becomes_waitExternal found done).self]
    simp [Task.trace, WaitTarget.trace, live, quiet, unlinked]
  · have same : st'.sitters place = st.sitters place := (sitters_adjust counted place).trans
      (sitters_modifyTask (f := fun task => { task with waiting := some .external, external := true }) (fun _ => rfl) place)
    rw [same, clear.astray.count, if_neg (by simp [WaitTarget.place?])]

theorem Clear.awaits_of_acquire (clear : st.Clear t) (known : (st.resources.get? r).isSome = true) :
    ((st.announceWait t (.resource r)).inLine t r).Awaits t .running (.resource r) := by
  obtain ⟨task, found, live, quiet, _, uncounted, _⟩ := clear.found
  have first := becomes_modifyTask found fun task => { task with waiting := some (WaitTarget.resource r) }
  have second : Becomes _ t _ ((st.announceWait t (.resource r)).inLine t r) :=
    becomes_modifyTask first.self fun task => { task with linked := true }
  refine ⟨?_, fun place => ?_⟩
  · rw [trace?_of_get? second.self]
    simp [Task.trace, WaitTarget.trace, live, quiet, uncounted]
  · have known' : ((st.announceWait t (.resource r)).resources.get? r).isSome = true := known
    rw [sitters_inLine known', sitters_announceWait]
    by_cases here : place = .line r
    · rw [if_pos here, List.count_append, clear.astray.count, here]
      simp [WaitTarget.place?]
    · rw [if_neg here, clear.astray.count, WaitTarget.place?, if_neg fun same => here (Option.some.inj same).symm]

theorem Clear.awaits_of_waitFor (clear : st.Clear t) (known : (st.tasks.get? c).isSome = true) :
    (st.joined t c).Awaits t .running (.task c) := by
  obtain ⟨task, found, live, quiet, _, uncounted, unlinked⟩ := clear.found
  refine ⟨?_, fun place => ?_⟩
  · rw [State.trace?, get?_joined found, if_pos rfl, Option.map_some]
    split <;> simp [Task.trace, WaitTarget.trace, live, quiet, uncounted, unlinked]
  cases place with
  | line q => exact (clear.astray.count (.line q)).trans (if_neg (by simp [WaitTarget.place?])).symm
  | queue s => exact (clear.astray.count (.queue s)).trans (if_neg (by simp [WaitTarget.place?])).symm
  | joiners d =>
    have none' : (st.joiners d).count t = 0 := clear.astray.count (.joiners d)
    rw [sitters, joiners_joined found known]
    by_cases here : d = c
    · subst here
      rw [if_pos rfl, List.count_append, none']
      simp [WaitTarget.place?]
    · rw [if_neg here, none', if_neg (by simpa [WaitTarget.place?] using Ne.symm here)]

/-- A clear task that arranges to wait waits for that alone. -/
theorem Clear.awaits_of_serve [Inhabited V] {request : Request V C} {reply : request.Reply} (clear : st.Clear t)
    (waits : request.awaits? = some (t, target)) (disturbs : st.Disturbs t request)
    (done : st.serve request = .ok (reply, st')) : st'.Awaits t .running target := by
  cases request with
  | waitExternal u =>
    obtain ⟨rfl, rfl⟩ := Prod.mk.inj (Option.some.inj waits)
    simp only [State.serve, bind_ok, pure_ok, Prod.mk.injEq] at done
    obtain ⟨_, announced, _, rfl⟩ := done
    exact clear.awaits_of_waitExternal announced
  | acquire r u =>
    obtain ⟨rfl, rfl⟩ := Prod.mk.inj (Option.some.inj waits)
    obtain ⟨known, _, ⟨_, nobody, _⟩ | ⟨_, ⟨refusal, _, refused, _⟩ | ⟨_, _, _, rfl⟩⟩⟩ := acquire_ok done
    · exact absurd nobody disturbs.2.1
    · exact absurd (refused.symm.trans disturbs.2.2) (by simp)
    · exact clear.awaits_of_acquire known
  | waitFor u child =>
    obtain ⟨rfl, rfl⟩ := Prod.mk.inj (Option.some.inj waits)
    obtain ⟨awaited, known, ⟨_, ended, _⟩ | ⟨_, ⟨refusal, _, refused, _⟩ | ⟨_, _, rfl⟩⟩⟩ := waitFor_ok done
    · exact absurd ((outcome_of_get? known).symm.trans disturbs.2.1) ended
    · exact absurd (refused.symm.trans disturbs.2.2) (by simp)
    · exact clear.awaits_of_waitFor (Option.isSome_of_eq_some known)
  | _ => cases waits

/-! ### Parking -/

theorem Awaits.endRun (awaits : st.Awaits t life target) : (st.endRun t).Awaits t life target := by
  have left : Unstirred t st (st.endRun t) := .modifyTask st (fun _ _ => rfl) fun _ => id
  refine ⟨left.trace.trans awaits.trace, fun place => ?_⟩
  rw [sitters_endRun]
  exact awaits.sits place

/-- Nothing is in the way of a task that parks. -/
theorem Awaits.park_eq (awaits : st.Awaits t .running target) : ∃ task, st.tasks.get? t = some task ∧
    st.park t = (st.setLife t .waiting).adjust task.scheduler .runnable (-1) := by
  obtain ⟨task, found, same⟩ := Option.map_eq_some_iff.1 awaits.trace
  obtain ⟨live, quiet, waits⟩ : task.life = .running ∧ task.notified = false ∧ task.waiting = some target := by
    cases target <;> simp_all [Task.trace, WaitTarget.trace]
  refine ⟨task, found, ?_⟩
  have looks : st.task t = .ok task := task_ok.2 found
  simp [State.park, looks, bind, Except.bind, live, quiet, waits]

theorem Awaits.park (awaits : st.Awaits t .running target) (done : st.park t = .ok st') :
    st'.Awaits t .waiting target := by
  obtain ⟨task, found, same⟩ := awaits.park_eq
  rw [same] at done
  have moved := becomes_modifyTask found fun task => { task with life := .waiting, notified := false }
  have still : st'.tasks = (st.setLife t .waiting).tasks := tasks_adjust done
  refine ⟨?_, fun place => ?_⟩
  · have before := (trace?_of_get? found).symm.trans awaits.trace
    rw [State.trace?, still]
    refine (trace?_of_get? moved.self).trans ?_
    cases target <;> simp_all [Task.trace, WaitTarget.trace]
  · rw [sitters_adjust done, sitters_setLife]
    exact awaits.sits place

/-- A clear task that yields goes behind the tasks that are ready. -/
theorem Clear.recovers_of_yield (clear : st.Clear t) (found : st.tasks.get? t = some task)
    (known : (st.schedulers.get? task.scheduler).isSome = true) (yields : st.yield t = .ok st₁)
    (done : (st₁.endRun t).park t = .ok st') : st'.Recovers t := by
  obtain ⟨task', found', live, quiet, waitless, uncounted, unlinked⟩ := clear.found
  obtain rfl := Option.some.inj (found.symm.trans found')
  simp only [State.yield, bind_ok, task_ok, check_ok, pure_ok] at yields
  obtain ⟨_, _, _, rfl⟩ := yields
  have first := becomes_modifyTask found fun task => { task with notified := true }
  have second : Becomes _ t _ ((st.modifyTask t fun task => { task with notified := true }).endRun t) :=
    becomes_modifyTask first.self fun task => { task with worker := none }
  obtain ⟨_, ⟨_, scheduled⟩ | ⟨silent, _⟩⟩ := park_ok second.self done
  · have third : Becomes _ t _ (State.setLife _ t .ready) :=
      becomes_modifyTask second.self fun task => { task with life := .ready, notified := false }
    refine recovers_of_schedule third.self ?_ (fun place sits => ?_) known scheduled
    · simp [Task.trace, waitless, uncounted, unlinked]
    · rw [sitters_setLife, sitters_endRun, sitters_notified] at sits
      exact clear.astray place sits
  · simp at silent

/-! ### Waking -/

/-- What a task waits for comes about: the event happens, or the resource is handed to the task, or the other task
ends. -/
inductive Arrives (t : TaskId) : State V C → WaitTarget → State V C → Prop where
  | external {st st' : State V C} (woken : st.ready t = .ok st') : Arrives t st .external st'
  | resource {st st' : State V C} {r : ResourceId} {u : TaskId} {rest : List TaskId} (first : st.waiters r = t :: rest)
      (released : st.release r u = .ok st') : Arrives t st (.resource r) st'
  | task {st st' : State V C} {c : TaskId} {result : Except (Error V) V} (ends : Ends st c result st') :
      Arrives t st (.task c) st'

theorem Awaits.arrives (awaits : st.Awaits t .waiting target) (arrives : Arrives t st target st') :
    st'.Recovers t := by
  cases arrives with
  | external woken =>
    refine recovers_of_ready awaits.trace (fun place sits => ?_) woken
    have nowhere := awaits.sits place
    rw [if_neg (by simp [WaitTarget.place?])] at nowhere
    exact List.count_eq_zero.1 nowhere sits
  | @resource _ r u rest first released =>
    obtain ⟨known, _, ⟨none', _⟩ | ⟨next, rest', line, woken⟩⟩ := release_ok released
    · simp [first] at none'
    obtain ⟨rfl, rfl⟩ := List.cons_eq_cons.1 (first.symm.trans line)
    obtain ⟨task, found, same⟩ := Option.map_eq_some_iff.1 awaits.trace
    have left : Becomes st t { task with linked := false } (st.handed t r rest') := becomes_modifyTask found _
    have trace : (st.handed t r rest').trace? t = some (.waiting, false, some (.resource r), false, false) := by
      rw [trace?_of_get? left.self]
      simp_all [Task.trace, WaitTarget.trace]
    refine recovers_of_ready trace (fun place sits => ?_) woken
    rw [sitters_handed known] at sits
    have once := awaits.sits place
    split at sits
    · next here =>
      subst here
      simp only [sitters, first, List.count_cons_self, WaitTarget.place?, if_true] at once
      exact List.count_eq_zero.1 (Nat.succ.inj once) sits
    · next other =>
      rw [WaitTarget.place?, if_neg fun same => other (Option.some.inj same).symm] at once
      exact List.count_eq_zero.1 once sits
  | @task _ c result ends =>
    obtain ⟨task, found, same⟩ := Option.map_eq_some_iff.1 awaits.trace
    simp only [Task.trace, WaitTarget.trace, Prod.mk.injEq] at same
    obtain ⟨parked, _, _, _, unlinked⟩ := same
    have once : (st.joiners c).count t = 1 := (awaits.sits (.joiners c)).trans (if_pos rfl)
    have joins : t ∈ st.joiners c := List.count_pos_iff.1 (by omega)
    have woken : task.woken = Task.scheduled
        { task with life := .ready, notified := false, waiting := none, external := false } := if_pos parked
    have there : st'.tasks.get? t = some task.woken := by
      rw [ends.others (ends.awake joins).1, once, found]
      rfl
    have sits : task.woken.place? = if task.bound = none then some (.queue task.scheduler) else none := by
      rw [woken]
      simp [Task.place?, Task.scheduled]
    refine ⟨_, there, by rw [woken]; simp [Task.trace, Task.scheduled, unlinked], fun place => ?_⟩
    rw [sits]
    cases place with
    | line r =>
      have none' : (st.waiters r).count t = 0 := (awaits.sits (.line r)).trans (if_neg (by simp [WaitTarget.place?]))
      rw [sitters, waiters_of_resources ends.resources, none']
      split <;> simp
    | joiners d =>
      have count : (st'.joiners d).count t = 0 := by
        rw [ends.joiners]
        split
        · rfl
        · next other => exact (awaits.sits (.joiners d)).trans (if_neg (by simpa [WaitTarget.place?] using Ne.symm other))
      rw [sitters, count]
      split <;> simp
    | queue s =>
      have none' : (st.queue s).count t = 0 := (awaits.sits (.queue s)).trans (if_neg (by simp [WaitTarget.place?]))
      have queues : st.queues s t = (task.bound.isNone && decide (task.scheduler = s)) := by
        simp [State.queues, found, parked]
      rw [sitters, ends.queue, List.count_append, none', Nat.zero_add]
      by_cases goes : st.queues s t = true
      · rw [List.count_filter goes, once]
        rw [queues] at goes
        simp_all
      · rw [List.count_eq_zero.2 fun member => goes (List.mem_filter.1 member).2]
        rw [queues] at goes
        by_cases free : task.bound = none <;> simp_all

/-! ### All of it -/

/-- The next wait of a task parks it, and wakes it again: nothing is left of earlier ones. -/
structure Fresh [Inhabited V] (st : State V C) (t : TaskId) : Prop where
  yields : ∀ {task st₁ st₂}, st.tasks.get? t = some task → (st.schedulers.get? task.scheduler).isSome = true →
    st.yield t = .ok st₁ → (st₁.endRun t).park t = .ok st₂ → st₂.Recovers t
  parks : ∀ {request : Request V C} {target reply st₁}, request.awaits? = some (t, target) → st.Disturbs t request →
    st.serve request = .ok (reply, st₁) → ∃ task, st₁.tasks.get? t = some task ∧
      (st₁.endRun t).park t = ((st₁.endRun t).setLife t .waiting).adjust task.scheduler .runnable (-1)
  waits : ∀ {request : Request V C} {target reply st₁ st₂}, request.awaits? = some (t, target) →
    st.Disturbs t request → st.serve request = .ok (reply, st₁) → (st₁.endRun t).park t = .ok st₂ →
    st₂.Awaits t .waiting target
  wakes : ∀ {target : WaitTarget} {st₂ st₃ : State V C}, st₂.Awaits t .waiting target → Arrives t st₂ target st₃ →
    st₃.Recovers t

theorem Clear.fresh [Inhabited V] (clear : st.Clear t) : st.Fresh t where
  yields := clear.recovers_of_yield
  parks {request target reply st₁} waits disturbs served := by
    have awaits := clear.awaits_of_serve waits disturbs served
    obtain ⟨task, found, parks⟩ := awaits.endRun.park_eq
    obtain ⟨task', found', _⟩ := Option.map_eq_some_iff.1 awaits.trace
    have left := becomes_modifyTask found' fun task => { task with worker := none }
    obtain rfl := Option.some.inj (left.self.symm.trans found)
    exact ⟨task', found', parks⟩
  waits waits disturbs served parked := (clear.awaits_of_serve waits disturbs served).endRun.park parked
  wakes := Awaits.arrives

end State

end Tasking
