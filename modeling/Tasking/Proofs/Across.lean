import Tasking.Proofs.Dealing
import Tasking.Proofs.Bystanding
import Tasking.Proofs.Untangled

/-! # Several schedulers

Tasks of several schedulers share resources and join each other.  Whoever asks to wait is refused exactly if
there is a way back that the scheduler of the asker sees, and that is not longer than the number of its
unfinished tasks and one (`Crew.Run.refuses_seen`).  A scheduler sees every join, but of the owners of
resources it sees its own tasks alone.

So no cycle comes about between tasks of one scheduler.  But if each of two tasks asks for the resource of the
other, and they are tasks of different schedulers, then neither is refused (`Crew.standoff_unseen`).
-/

namespace Tasking

variable {V C : Type}

namespace State

variable {st : State V C} {homes : SchedulerId → Prop} {s : SchedulerId} {t u child : TaskId} {task : Task V}
  {r : ResourceId} {target : WaitTarget} {way : List TaskId}

/-- What to wait for depends on a task, as a scheduler sees it. -/
inductive Faces (st : State V C) (s : SchedulerId) : WaitTarget → TaskId → Prop where
  | resource {r : ResourceId} {owner : TaskId} (owns : st.owner r = some owner)
      (own : st.home owner = some s) (awaited : st.Unfinished owner) : Faces st s (.resource r) owner
  | task {child : TaskId} (awaited : st.Unfinished child) : Faces st s (.task child) child

/-- A way from what to wait for to a task, as a scheduler sees it. -/
structure WayBack (st : State V C) (s : SchedulerId) (target : WaitTarget) (t : TaskId) (way : List TaskId) :
    Prop where
  begins : ∃ first, way.head? = some first ∧ st.Faces s target first
  sees : way.IsChain (st.Sees s)
  returns : way.getLast? = some t

/-- To wait for the target would close a cycle that the scheduler of the task sees.  The way back must not be
longer than the number of unfinished tasks of the scheduler, and one. -/
def ClosesSeen (st : State V C) (t : TaskId) (target : WaitTarget) : Prop :=
  ∃ s way, st.home t = some s ∧ st.WayBack s target t way ∧
    way.length ≤ st.population s (fun task => !task.isFinished) + 1

theorem blocker_eq_some (accounts : st.Accounts) : st.blocker s target = some u ↔ st.Faces s target u := by
  constructor
  · intro blocks
    cases target with
    | resource r =>
      obtain ⟨owns, own, awaited⟩ := (blocker_resource accounts).1 blocks
      exact .resource owns own awaited
    | task child =>
      obtain ⟨rfl, awaited⟩ := blocker_task.1 blocks
      exact .task awaited
    | external => simp [blocker] at blocks
  · intro faces
    cases faces with
    | resource owns own awaited => exact (blocker_resource accounts).2 ⟨owns, own, awaited⟩
    | task awaited => exact blocker_task.2 ⟨rfl, awaited⟩

/-- A scheduler counts its unfinished tasks. -/
theorem tasks_eq_population (accounts : st.Accounts) {scheduler : Scheduler}
    (known : st.schedulers.get? s = some scheduler) :
    scheduler.tasks.toNat = st.population s fun task => !task.isFinished := by
  have counts := accounts.count_eq known .tasks
  simp only [Scheduler.count] at counts
  rw [counts, Int.toNat_natCast]
  apply population_congr
  intro t task found
  simp [Task.counts, (accounts.posted found).entered, Task.isFinished]

theorem findCycle_isSome_iff_closesSeen (accounts : st.Accounts) (found : st.tasks.get? t = some task) :
    (st.findCycle t target).isSome = true ↔ st.ClosesSeen t target := by
  obtain ⟨scheduler, known⟩ := Option.isSome_iff_exists.1 (accounts.posted found).known
  rw [findCycle_isSome_iff_sees accounts found known target, tasks_eq_population accounts known]
  constructor
  · rintro ⟨first, blocks, way, begins, returns, sees, short⟩
    have faces := (blocker_eq_some accounts).1 blocks
    exact ⟨task.scheduler, way, home_of_get? found, ⟨⟨first, begins, faces⟩, sees, returns⟩, short⟩
  · rintro ⟨s, way, home, ⟨⟨first, begins, faces⟩, sees, returns⟩, short⟩
    obtain rfl : task.scheduler = s := Option.some.inj ((home_of_get? found).symm.trans home)
    exact ⟨first, (blocker_eq_some accounts).2 faces, way, begins, returns, sees, short⟩

theorem refusal?_eq_some {refusal : Deadlock} (refused : st.refusal? t target = some refusal) :
    ∃ task path, st.tasks.get? t = some task ∧ st.findCycle t target = some path ∧ refusal = ⟨t, path⟩ := by
  obtain ⟨task, found, refused⟩ := Option.bind_eq_some_iff.1 refused
  split at refused
  · obtain ⟨path, finds, same⟩ := Option.bind_eq_some_iff.1 refused
    exact ⟨task, path, found, finds, (Option.some.inj same).symm⟩
  · cases refused

namespace Watched

variable (watched : st.Watched homes)
include watched

/-- A request to wait is refused exactly if it would close a cycle that is seen. -/
theorem refused_iff : (∃ path, st.refusal? t target = some ⟨t, path⟩) ↔ st.ClosesSeen t target := by
  constructor
  · rintro ⟨path, refused⟩
    obtain ⟨task, path, found, finds, _⟩ := refusal?_eq_some refused
    exact (findCycle_isSome_iff_closesSeen watched.accounts found).1 (by simp [finds])
  · intro closes
    have present := closes
    obtain ⟨s, way, home, _⟩ := present
    obtain ⟨task, found, _⟩ := Option.map_eq_some_iff.1 home
    have finds := (findCycle_isSome_iff_closesSeen watched.accounts found).2 closes
    rw [← watched.refusal?_isSome_iff found] at finds
    obtain ⟨refusal, refused⟩ := Option.isSome_iff_exists.1 finds
    obtain ⟨_, path, _, _, rfl⟩ := refusal?_eq_some refused
    exact ⟨path, refused⟩

theorem acquire_refused_iff :
    (∃ path, st.acquire r t = .ok (.error ⟨t, path⟩, st)) ↔ st.ClosesSeen t (.resource r) := by
  rw [← watched.refused_iff]
  constructor
  · rintro ⟨path, done⟩
    obtain ⟨_, _, ⟨taken, _⟩ | ⟨_, ⟨refusal, same, refused, _⟩ | ⟨blocked, _⟩⟩⟩ := acquire_ok done
    · cases taken
    · obtain rfl := Except.error.inj same
      exact ⟨path, refused⟩
    · cases blocked
  · rintro ⟨path, refused⟩
    -- The cycle leads through the owner of the resource, so there is one.
    obtain ⟨s, way, home, ⟨⟨first, _, faces⟩, _, _⟩, _⟩ := watched.refused_iff.1 ⟨path, refused⟩
    cases faces with
    | resource owns _ _ =>
      have owned : st.owner r ≠ none := by simp [owns]
      have known : (st.resources.get? r).isSome = true := by
        unfold owner at owns
        obtain ⟨resource, found, _⟩ := Option.bind_eq_some_iff.1 owns
        simp [found]
      obtain ⟨task, found, _⟩ := Option.map_eq_some_iff.1 home
      exact ⟨path, acquire_refused known (by simp [found]) owned refused⟩

theorem waitFor_refused_iff (final : st.Final) :
    (∃ path, st.waitFor t child = .ok (.error ⟨t, path⟩, st)) ↔ st.ClosesSeen t (.task child) := by
  rw [← watched.refused_iff]
  constructor
  · rintro ⟨path, done⟩
    obtain ⟨_, _, ⟨ended, _⟩ | ⟨_, ⟨refusal, same, refused, _⟩ | ⟨joined, _⟩⟩⟩ := waitFor_ok done
    · cases ended
    · obtain rfl := Except.error.inj same
      exact ⟨path, refused⟩
    · cases joined
  · rintro ⟨path, refused⟩
    obtain ⟨s, way, home, ⟨⟨first, _, faces⟩, _, _⟩, _⟩ := watched.refused_iff.1 ⟨path, refused⟩
    cases faces with
    | task awaited =>
      obtain ⟨awaited, found', unfinished⟩ := awaited
      obtain ⟨task, found, _⟩ := Option.map_eq_some_iff.1 home
      -- A task that is not at its end has no outcome yet.
      have none' : awaited.outcome = none := by
        by_contra ended
        obtain ⟨life, lives, terminal⟩ := final child (by simpa [State.outcome, found'] using ended)
        simp [State.life, found'] at lives
        simp [Task.isFinished, lives, terminal] at unfinished
      refine ⟨path, bind_ok.2 ⟨awaited, task_ok.2 found', bind_ok.2 ⟨task, task_ok.2 found, ?_⟩⟩⟩
      simp only [none', refused]
      rfl

end Watched

end State

namespace Crew

variable [Inhabited V]

/-- What programs keep to all of whose schedulers with tasks look for deadlocks. -/
def Alert (c : Crew V C) (a : Agent V C) : Prop := Among (fun _ => True) c a

/-- No cycle is within one scheduler.  Requests are refused exactly if they would close a cycle that the
scheduler of whoever asks sees, and change nothing then. -/
theorem Run.refuses_seen (run : Run V C Alert) {i : Nat} (bound : i ≤ run.length) :
    (∀ s, Loopless ((run.crew i).state.WaitsWithin s)) ∧
    (∀ t r, (∃ path, (run.crew i).state.acquire r t = .ok (.error ⟨t, path⟩, (run.crew i).state)) ↔
      (run.crew i).state.ClosesSeen t (.resource r)) ∧
    ∀ t child, (∃ path, (run.crew i).state.waitFor t child = .ok (.error ⟨t, path⟩, (run.crew i).state)) ↔
      (run.crew i).state.ClosesSeen t (.task child) := by
  have watched := Run.watched run i bound
  refine ⟨watched.untangled.loopless, fun t r => watched.acquire_refused_iff, fun t child => ?_⟩
  exact watched.waitFor_refused_iff (run.final i bound)

/-! ### A cycle that is seen

The second task waits for the resource of the first, and a task of another scheduler joins the second.  The
first one asks to join that. -/

def detour : Program Unit Empty :=
  .ask .newRegistry fun g =>
  .ask (.newScheduler .manual g) fun
    | .error _ => .answer .suspended
    | .ok s => .ask (.newScheduler .manual g) fun
      | .error _ => .answer .suspended
      | .ok away => .newFrame "idle" (fun _ _ _ => .answer (.done ())) fun entry =>
        .ask (.spawn s entry) fun
        | .error _ => .answer .suspended
        | .ok t => .ask (.spawn s entry) fun
          | .error _ => .answer .suspended
          | .ok u => .ask (.spawn away entry) fun
            | .error _ => .answer .suspended
            | .ok v => .ask (.newResource none) fun q => .ask (.acquire q t) fun _ =>
              .ask (.acquire q u) fun _ => .ask (.waitFor v u) fun _ => .answer (.done ())

/-- The host of the three tasks after so many steps. -/
def detourHost (n : Nat) : Config Unit Empty := (Config.start (.initial 1) detour).after n

theorem detour_ok : ∀ n < 11, (detourHost n).step.isOk = true := by decide +kernel

theorem detour_alert : ∀ n < 11, Alert (detourHost n).alone (detourHost n).agent := by
  intro n bound
  interval_cases n
  case «4» | «5» | «6» =>
    refine ⟨trivial, ?_⟩
    rintro s entry next ⟨⟩
    exact ⟨trivial, by decide +kernel⟩
  all_goals exact ⟨trivial, nofun⟩

def detourRun : Run Unit Empty Alert := .ofHost 1 detour 11 detour_ok detour_alert

/-- The first task may not join the third one, although that is a task of another scheduler. -/
theorem detour_refused : (detourRun.crew 12).state.home ⟨1⟩ ≠ (detourRun.crew 12).state.home ⟨3⟩ ∧
    ∃ path, (detourRun.crew 12).state.waitFor ⟨1⟩ ⟨3⟩ =
      .ok (.error ⟨⟨1⟩, path⟩, (detourRun.crew 12).state) := by
  obtain ⟨_, _, joins⟩ := detourRun.refuses_seen (show 12 ≤ 12 by decide)
  have refused : (detourRun.crew 12).state.refusal? ⟨1⟩ (.task ⟨3⟩) =
      some ⟨⟨1⟩, [⟨1⟩, ⟨3⟩, ⟨2⟩, ⟨1⟩]⟩ := by decide +kernel
  have watched := Run.watched detourRun 12 (by decide)
  exact ⟨by decide +kernel, (joins ⟨1⟩ ⟨3⟩).2 (watched.refused_iff.1 ⟨_, refused⟩)⟩

/-! ### A cycle that is not seen -/

def standoff : Program Unit Empty :=
  .ask .newRegistry fun g =>
  .ask (.newScheduler .manual g) fun
    | .error _ => .answer .suspended
    | .ok s => .ask (.newScheduler .manual g) fun
      | .error _ => .answer .suspended
      | .ok away => .newFrame "idle" (fun _ _ _ => .answer (.done ())) fun entry =>
        .ask (.spawn s entry) fun
        | .error _ => .answer .suspended
        | .ok t => .ask (.spawn away entry) fun
          | .error _ => .answer .suspended
          | .ok u => .ask (.newResource none) fun q => .ask (.newResource none) fun r =>
            .ask (.acquire q t) fun _ => .ask (.acquire r u) fun _ => .ask (.acquire r t) fun _ =>
            .ask (.acquire q u) fun _ => .answer (.done ())

/-- The host of the two tasks after so many steps. -/
def standoffHost (n : Nat) : Config Unit Empty := (Config.start (.initial 1) standoff).after n

theorem standoff_ok : ∀ n < 12, (standoffHost n).step.isOk = true := by decide +kernel

theorem standoff_alert : ∀ n < 12, Alert (standoffHost n).alone (standoffHost n).agent := by
  intro n bound
  interval_cases n
  case «4» | «5» =>
    refine ⟨trivial, ?_⟩
    rintro s entry next ⟨⟩
    exact ⟨trivial, by decide +kernel⟩
  all_goals exact ⟨trivial, nofun⟩

def standoffRun : Run Unit Empty Alert := .ofHost 1 standoff 12 standoff_ok standoff_alert

/-- Each of the two tasks owns a resource, and neither is refused when it asks for the other one. -/
theorem standoff_unseen :
    (standoffRun.crew 13).state.home ⟨1⟩ ≠ (standoffRun.crew 13).state.home ⟨2⟩ ∧
    (∃ st, (standoffRun.crew 11).state.acquire ⟨2⟩ ⟨1⟩ = .ok (.ok .blocked, st)) ∧
    (∃ st, (standoffRun.crew 12).state.acquire ⟨1⟩ ⟨2⟩ = .ok (.ok .blocked, st)) ∧
    (standoffRun.crew 13).state.Waits ⟨1⟩ ⟨2⟩ ∧ (standoffRun.crew 13).state.Waits ⟨2⟩ ⟨1⟩ := by
  have first : ((standoffRun.crew 13).state.tasks.get? ⟨1⟩).map (fun task => (task.isFinished, task.waiting)) =
      some (false, some (.resource ⟨2⟩)) := by decide +kernel
  have second : ((standoffRun.crew 13).state.tasks.get? ⟨2⟩).map (fun task => (task.isFinished, task.waiting)) =
      some (false, some (.resource ⟨1⟩)) := by decide +kernel
  obtain ⟨t, found, same⟩ := Option.map_eq_some_iff.1 first
  obtain ⟨u, found', same'⟩ := Option.map_eq_some_iff.1 second
  obtain ⟨open₁, waits⟩ := Prod.mk.inj same
  obtain ⟨open₂, waits'⟩ := Prod.mk.inj same'
  have owner : (standoffRun.crew 13).state.owner ⟨1⟩ = some ⟨1⟩ := by decide +kernel
  have owner' : (standoffRun.crew 13).state.owner ⟨2⟩ = some ⟨2⟩ := by decide +kernel
  refine ⟨by decide +kernel, ⟨_, rfl⟩, ⟨_, rfl⟩, ?_, ?_⟩
  · exact .resource found open₁ waits owner' ⟨u, found', open₂⟩
  · exact .resource found' open₂ waits' owner ⟨t, found, open₁⟩

end Crew

end Tasking
