import Tasking.Proofs.Loopless

/-! # The wait graph stays without cycles

Whatever tasks do on schedulers that look for deadlocks, no cycle comes about of tasks of one scheduler
that wait for each other (`Crew.Run.watched`); so there is none at all if there is a single scheduler
(`Crew.Run.waits_loopless`).

Most operations only ease the wait graph: tasks stop waiting, or end, but none begins to wait for others
(`State.Eases`).  Only asking for a resource in use and joining a task add edges, and both look for a
cycle first.
-/

namespace Tasking

variable {V C : Type}

/-- A task did not begin to wait for others, and did not come back from its end. -/
structure Task.Eases (task task' : Task V) : Prop where
  scheduler : task'.scheduler = task.scheduler
  finished : task.isFinished = true → task'.isFinished = true
  waiting : ∀ {target}, target ≠ .external → task'.waiting = some target → task.waiting = some target

namespace Task.Eases

variable {task task' task'' : Task V}

@[refl] theorem refl (task : Task V) : task.Eases task := ⟨rfl, id, fun _ => id⟩

theorem trans (first : task.Eases task') (second : task'.Eases task'') : task.Eases task'' where
  scheduler := second.scheduler.trans first.scheduler
  finished ended := second.finished (first.finished ended)
  waiting inside waits := first.waiting inside (second.waiting inside waits)

theorem of_sameBooks (same : task.SameBooks task') : task.Eases task' := by
  rw [same]
  exact ⟨rfl, id, fun _ => id⟩

theorem woken (task : Task V) : task.Eases task.woken := by
  unfold Task.woken
  split
  · next parked =>
    exact ⟨rfl, by simp [Task.isFinished, parked, Life.isTerminal], by simp [Task.scheduled]⟩
  · exact ⟨rfl, id, by simp⟩

/-- A task that is not at its end went to another stage of its life. -/
theorem of_life (alive : task.life.isTerminal = false)
    (same : (task'.scheduler, task'.waiting) = (task.scheduler, task.waiting)) : task.Eases task' := by
  obtain ⟨scheduler, waiting⟩ := Prod.mk.inj same
  exact ⟨scheduler, by simp [Task.isFinished, alive], fun _ waits => waiting ▸ waits⟩

end Task.Eases

namespace State

variable {st st' st'' : State V C} {homes : SchedulerId → Prop} {s : SchedulerId} {t u : TaskId}
  {task task' : Task V} {r : ResourceId}

/-- No task began to wait for others, and none is new. -/
def Eases (st st' : State V C) : Prop := ∀ u task', st'.tasks.get? u = some task' →
  ∃ task, st.tasks.get? u = some task ∧ task.Eases task'

namespace Eases

theorem of_tasks (same : st'.tasks = st.tasks) : Eases st st' :=
  fun _ task found => ⟨task, same ▸ found, .refl task⟩

@[refl] theorem refl (st : State V C) : Eases st st := .of_tasks rfl

theorem trans (first : Eases st st') (second : Eases st' st'') : Eases st st'' := by
  intro u task'' found
  obtain ⟨task', found', eases'⟩ := second u task'' found
  obtain ⟨task, found'', eases⟩ := first u task' found'
  exact ⟨task, found'', eases.trans eases'⟩

theorem of_becomes (found : st.tasks.get? t = some task) (becomes : Becomes st t task' st')
    (eases : task.Eases task') : Eases st st' := by
  intro u other found'
  rw [becomes] at found'
  split at found'
  · next same =>
    subst same
    obtain rfl := Option.some.inj found'
    exact ⟨task, found, eases⟩
  · exact ⟨other, found', .refl other⟩

theorem of_aside (aside : Aside st st') : Eases st st' := by
  intro u task' found'
  have rel := aside.tasks u
  rw [found'] at rel
  cases found : st.tasks.get? u with
  | none => rw [found] at rel; cases rel
  | some task =>
    rw [found] at rel
    cases rel with
    | some same => exact ⟨task, rfl, .of_sameBooks same⟩

theorem ready (done : st.ready t = .ok st') : Eases st st' := by
  obtain ⟨task, found⟩ := exists_of_task done
  exact .of_becomes found (becomes_ready found done) (.woken task)

theorem readyAll {ts : List TaskId} (done : st.readyAll ts = .ok st') : Eases st st' := by
  induction ts generalizing st with
  | nil => exact pure_ok.1 done ▸ .refl st
  | cons t rest inductionHypothesis =>
    simp only [State.readyAll, bind_ok] at done
    obtain ⟨st₁, first, later⟩ := done
    exact (ready first).trans (inductionHypothesis later)

theorem finish [Inhabited V] {result : Except (Error V) V} (done : st.finish t result = .ok st') :
    Eases st st' := by
  obtain ⟨task, found⟩ := exists_of_task done
  obtain ⟨_, st₁, woken, retired⟩ := finish_ok found done
  have closed : Eases st (st.closed t result) := by
    refine .of_becomes found (becomes_closed found) ⟨rfl, fun _ => ?_, fun _ => id⟩
    exact isTerminal_finalLife result
  obtain ⟨last, found₁, becomes⟩ := becomes_retire retired
  have struck : Eases st₁ st' := .of_becomes found₁ becomes ⟨rfl, id, fun _ => id⟩
  exact closed.trans ((readyAll woken).trans struck)

end Eases

/-- Whoever waits for nothing that others do has no edge. -/
theorem not_waits (found : st.tasks.get? t = some task)
    (idle : ∀ target, target ≠ .external → task.waiting ≠ some target) : ∀ u, ¬ st.Waits t u := by
  intro u waits
  cases waits with
  | resource found' _ waits _ _ =>
    obtain rfl := Option.some.inj (found.symm.trans found')
    exact idle _ (by simp) waits
  | task found' waits _ =>
    obtain rfl := Option.some.inj (found.symm.trans found')
    exact idle _ (by simp) waits

/-- Whoever waits for a resource is in line for it, nobody is in line for one that is free, and the wait
graph has no cycle between tasks of one scheduler. -/
structure Untangled (st : State V C) : Prop where
  free : ∀ {r}, st.owner r = none → st.waiters r = []
  lined : ∀ {t task r}, st.tasks.get? t = some task → task.waiting = some (.resource r) → t ∈ st.waiters r
  loopless : ∀ s, Loopless (st.WaitsWithin s)

namespace Untangled

/-- Nobody begins to wait for others, and resources go to nobody who waits. -/
theorem ease (untangled : st.Untangled)
    (tasks : ∀ {u task'}, st'.tasks.get? u = some task' →
      (∃ task, st.tasks.get? u = some task ∧ task.Eases task') ∨ task'.waiting = none)
    (lined : ∀ {t task r}, st'.tasks.get? t = some task → task.waiting = some (.resource r) →
      t ∈ st.waiters r → t ∈ st'.waiters r)
    (free : ∀ {r}, st'.owner r = none → st'.waiters r = [])
    (owners : ∀ {r u}, st'.waiters r ≠ [] → st'.owner r = some u →
      st.owner r = some u ∨ ∀ v, ¬ st'.Waits u v) : st'.Untangled := by
  have waited : ∀ {t task' r}, st'.tasks.get? t = some task' → task'.waiting = some (.resource r) →
      ∃ task, st.tasks.get? t = some task ∧ task.Eases task' ∧ task.waiting = some (.resource r) := by
    intro t task' r found' waits
    cases tasks found' with
    | inr idle => simp [idle] at waits
    | inl old =>
      obtain ⟨task, found, eases⟩ := old
      exact ⟨task, found, eases, eases.waiting (by simp) waits⟩
  have inLine : ∀ {t task' r}, st'.tasks.get? t = some task' → task'.waiting = some (.resource r) →
      t ∈ st'.waiters r := by
    intro t task' r found' waits
    obtain ⟨task, found, _, waits'⟩ := waited found' waits
    exact lined found' waits (untangled.lined found waits')
  -- Whoever is not at the end now either was not before, or is new and waits for nothing.
  have open' : ∀ {u}, st'.Unfinished u → st.Unfinished u ∨ ∀ v, ¬ st'.Waits u v := by
    rintro u ⟨task', found', unfinished⟩
    cases tasks found' with
    | inr idle => exact .inr (not_waits found' fun target _ => by simp [idle])
    | inl old =>
      obtain ⟨task, found, eases⟩ := old
      refine .inl ⟨task, found, ?_⟩
      by_contra ended
      simp [eases.finished (by simpa using ended)] at unfinished
  have old : ∀ {a b}, st'.Waits a b → st.Waits a b ∨ ∀ c, ¬ st'.Waits b c := by
    intro a b edge
    cases edge with
    | @resource task' r found' unfinished waits owns awaited =>
      obtain ⟨task, found, eases, waits'⟩ := waited found' waits
      rcases owners (List.ne_nil_of_mem (inLine found' waits)) owns with owned | sink
      · rcases open' awaited with before | sink
        · refine .inl (.resource found ?_ waits' owned before)
          by_contra ended
          simp [eases.finished (by simpa using ended)] at unfinished
        · exact .inr sink
      · exact .inr sink
    | @task task' found' waits awaited =>
      cases tasks found' with
      | inr idle => simp [idle] at waits
      | inl before =>
        obtain ⟨task, found, eases⟩ := before
        rcases open' awaited with before | sink
        · exact .inl (.task found (eases.waiting (by simp) waits) before)
        · exact .inr sink
  -- Whoever waits for others was there before, on the same scheduler.
  have homes : ∀ {s a b}, st'.Waits a b → st'.home a = some s → st.home a = some s := by
    intro s a b edge here
    obtain ⟨task', found', same⟩ := Option.map_eq_some_iff.1 here
    cases tasks found' with
    | inr idle => exact absurd edge (not_waits found' (fun target _ => by simp [idle]) b)
    | inl before =>
      obtain ⟨task, found, eases⟩ := before
      rw [home_of_get? found, ← same, eases.scheduler]
  refine ⟨free, inLine, fun s => (untangled.loopless s).of_sinks fun {a b} within => ?_⟩
  obtain ⟨edge, here, there⟩ := within
  by_cases further : ∃ c, st'.Waits b c
  · obtain ⟨c, next⟩ := further
    have before := (old edge).resolve_right fun sink => sink c next
    exact .inl ⟨before, homes edge here, homes next there⟩
  · exact .inr fun c next => further ⟨c, next.1⟩

/-- Nobody begins to wait for others, and resources stay where they are. -/
theorem calm (untangled : st.Untangled) (eases : Eases st st') (owner : ∀ r, st'.owner r = st.owner r)
    (waiters : ∀ r, st'.waiters r = st.waiters r) : st'.Untangled := by
  refine untangled.ease (fun found' => .inl (eases _ _ found')) (fun {t task r} _ _ inside => ?_)
    (fun {r} nobody => ?_) fun {r u} _ owns => .inl ?_
  · rwa [waiters]
  · rw [waiters]
    exact untangled.free (owner r ▸ nobody)
  · rwa [← owner]

theorem of_resources (untangled : st.Untangled) (eases : Eases st st')
    (same : st'.resources = st.resources) : st'.Untangled :=
  untangled.calm eases (fun r => by rw [owner, same, owner]) fun r => by rw [waiters, same, waiters]

/-- Somebody takes a resource that is free. -/
theorem take (untangled : st.Untangled) (known : (st.resources.get? r).isSome = true)
    (nobody : st.owner r = none) (t : TaskId) : (st.setOwner r (some t)).Untangled := by
  refine untangled.ease (fun {u task'} found' => .inl ⟨task', found', .refl task'⟩) ?_ ?_ ?_
  · intro u task q _ _ inside
    rwa [waiters_setOwner]
  · intro q
    rw [owner_setOwner known, waiters_setOwner, Function.update_apply]
    split
    · simp
    · exact untangled.free
  · intro q u inside
    rw [waiters_setOwner] at inside
    rw [owner_setOwner known, Function.update_apply]
    split
    · next same => exact absurd (untangled.free (same ▸ nobody)) inside
    · exact .inl

/-- A resource is given up.  Whoever waited longest gets it and is woken, so the edges of all others that
wait for it lead to somebody who does not wait. -/
theorem release (untangled : st.Untangled) (done : st.release r t = .ok st') :
    Eases st st' ∧ st'.Untangled := by
  obtain ⟨known, _, ⟨nobody, rfl⟩ | ⟨next, rest, line, woken⟩⟩ := release_ok done
  · refine ⟨.of_tasks rfl, untangled.ease (fun {u task'} found' => .inl ⟨task', found', .refl task'⟩) ?_ ?_ ?_⟩
    · intro u task q _ _ inside
      rwa [waiters_setOwner]
    · intro q
      rw [owner_setOwner known, waiters_setOwner, Function.update_apply]
      split
      · next same => exact fun _ => same ▸ nobody
      · exact untangled.free
    · intro q u inside
      rw [owner_setOwner known, Function.update_apply]
      split
      · simp
      · exact .inl
  · obtain ⟨task, found⟩ := exists_of_task woken
    have handed : Eases st (st.handed next r rest) := by
      intro u task' found'
      rw [show (st.handed next r rest).tasks.get? u = (st.dropLink next).tasks.get? u from rfl, dropLink,
        get?_modifyTask] at found'
      split at found'
      · next same =>
        subst same
        obtain ⟨task, found, rfl⟩ := Option.map_eq_some_iff.1 found'
        exact ⟨task, found, rfl, id, fun _ => id⟩
      · exact ⟨task', found', .refl task'⟩
    have becomes := becomes_ready found woken
    have eases := handed.trans (.ready woken)
    have quiet := Quiet.ready woken
    have owner : st'.owner = Function.update st.owner r (some next) := by
      rw [← owner_handed known]
      funext q
      rw [State.owner, quiet.resources, State.owner]
    have waiters : st'.waiters = Function.update st.waiters r rest.toList := by
      rw [← waiters_handed_eq known]
      funext q
      rw [State.waiters, quiet.resources, State.waiters]
    have idle : task.woken.waiting = none := by
      unfold Task.woken
      split <;> rfl
    refine ⟨eases, untangled.ease (fun found' => .inl (eases _ _ found')) ?_ ?_ ?_⟩
    · intro u task' q found' waits inside
      rw [waiters, Function.update_apply]
      split
      · next same =>
        subst same
        rw [line] at inside
        refine (List.mem_cons.1 inside).resolve_left ?_
        rintro rfl
        obtain rfl := Option.some.inj (becomes.self.symm.trans found')
        simp [idle] at waits
      · exact inside
    · intro q
      rw [owner, waiters, Function.update_apply, Function.update_apply]
      split
      · simp
      · exact untangled.free
    · intro q u _
      rw [owner, Function.update_apply]
      split
      · rintro ⟨⟩
        exact .inr (not_waits becomes.self fun target _ => by simp [idle])
      · exact .inl

/-- A new task waits for nothing. -/
theorem spawned [Inhabited V] (untangled : st.Untangled) (s : SchedulerId) (entry : FrameId) :
    ((st.addTask s entry none).2.enlist s st.tasks.next).Untangled := by
  refine untangled.ease (fun {u task'} found' => ?_) (fun _ _ => id) untangled.free fun _ => .inl
  rw [get?_spawned] at found'
  split at found'
  · obtain rfl := Option.some.inj found'
    exact .inr rfl
  · exact .inl ⟨task', found', .refl task'⟩

end Untangled

/-! ## Beginning to wait -/

/-- All tasks are on certain schedulers, which look for deadlocks, and the wait graph has no cycle between
tasks of one of them. -/
structure Watched (homes : SchedulerId → Prop) (st : State V C) : Prop where
  accounts : st.Accounts
  posted : ∀ {t task}, st.tasks.get? t = some task →
    homes task.scheduler ∧ st.detects task.scheduler = true
  untangled : st.Untangled

theorem Remembers.detects (remembers : Remembers st st') (looks : st.detects s = true) :
    st'.detects s = true := by
  obtain ⟨scheduler, known, looks⟩ := (Option.any_eq_true _ _).1 looks
  have still := remembers s scheduler.settings (by simp [known])
  obtain ⟨scheduler', known', same⟩ := Option.map_eq_some_iff.1 still
  simpa [State.detects, known', same] using looks

namespace Watched

/-- A request is refused if waiting would close a cycle that the search finds. -/
theorem refusal?_isSome_iff (watched : st.Watched homes) (found : st.tasks.get? t = some task)
    (target : WaitTarget) :
    (st.refusal? t target).isSome = true ↔ (st.findCycle t target).isSome = true := by
  unfold refusal?
  cases finds : st.findCycle t target <;> simp [found, (watched.posted found).2]

/-- A request that is not refused closes no cycle within the scheduler of the task. -/
theorem apart (watched : st.Watched homes) (found : st.tasks.get? t = some task) (own : task.scheduler = s)
    {target : WaitTarget} (allowed : st.refusal? t target = none) {first : TaskId}
    (blocks : st.blocker s target = some first) : ¬ Relation.ReflTransGen (st.WaitsWithin s) first t := by
  intro way
  have finds := findCycle_of_within watched.accounts (watched.untangled.loopless s) found own blocks way
  rw [← watched.refusal?_isSome_iff found, allowed] at finds
  cases finds

/-- A task begins to wait, after that was not refused. -/
theorem begins (watched : st.Watched homes) (found : st.tasks.get? t = some task) {target : WaitTarget}
    (allowed : st.refusal? t target = none)
    (tasks : ∀ {u task'}, st'.tasks.get? u = some task' → ∃ task, st.tasks.get? u = some task ∧
      task'.scheduler = task.scheduler ∧ task'.isFinished = task.isFinished ∧
      task'.waiting = if u = t then some target else task.waiting)
    (owner : ∀ r, st'.owner r = st.owner r) (lined : ∀ {u r}, u ∈ st.waiters r → u ∈ st'.waiters r)
    (inLine : ∀ r, target = .resource r → t ∈ st'.waiters r)
    (free : ∀ {r}, st'.owner r = none → st'.waiters r = []) : st'.Untangled := by
  have awaited : ∀ {u}, st'.Unfinished u → st.Unfinished u := by
    rintro u ⟨task', found', unfinished⟩
    obtain ⟨task, found, _, same, _⟩ := tasks found'
    exact ⟨task, found, same ▸ unfinished⟩
  have homes : ∀ {s u}, st'.home u = some s → st.home u = some s := by
    intro s u here
    obtain ⟨task', found', same⟩ := Option.map_eq_some_iff.1 here
    obtain ⟨task, found, scheduler, _⟩ := tasks found'
    rw [home_of_get? found, ← same, scheduler]
  have own : ∀ {s}, st'.home t = some s → task.scheduler = s := by
    intro s here
    simpa [home_of_get? found] using homes here
  refine ⟨free, fun {u task' r} found' waits => ?_,
    fun s => (watched.untangled.loopless s).of_edges t fun {a b} within => ?_⟩
  · obtain ⟨task, found, _, _, waiting⟩ := tasks found'
    rw [waits] at waiting
    split at waiting
    · next same => exact same ▸ inLine r (Option.some.inj waiting).symm
    · exact lined (watched.untangled.lined found waiting.symm)
  · obtain ⟨edge, here, there⟩ := within
    cases edge with
    | @resource task' r found' unfinished waits owns ahead =>
      obtain ⟨other, before, _, same, waiting⟩ := tasks found'
      rw [waits] at waiting
      rw [owner] at owns
      split at waiting
      · next same =>
        subst same
        obtain rfl := Option.some.inj waiting
        refine .inl ⟨rfl, watched.apart found (own here) allowed ?_⟩
        exact (blocker_resource watched.accounts).2 ⟨owns, homes there, awaited ahead⟩
      · next elsewhere =>
        have edge : st.Waits a b := .resource before (same ▸ unfinished) waiting.symm owns (awaited ahead)
        exact .inr ⟨elsewhere, edge, homes here, homes there⟩
    | @task task' found' waits ahead =>
      obtain ⟨other, before, _, _, waiting⟩ := tasks found'
      rw [waits] at waiting
      split at waiting
      · next same =>
        subst same
        obtain rfl := Option.some.inj waiting
        exact .inl ⟨rfl, watched.apart found (own here) allowed (blocker_task.2 ⟨rfl, awaited ahead⟩)⟩
      · next elsewhere =>
        exact .inr ⟨elsewhere, .task before waiting.symm (awaited ahead), homes here, homes there⟩

/-- No task is new. -/
theorem of_persists (watched : st.Watched homes) (kept : st'.Accounts ∧ Persists st st')
    (old : ∀ {u task'}, st'.tasks.get? u = some task' → st.tasks.get? u ≠ none)
    (untangled : st'.Untangled) : st'.Watched homes where
  accounts := kept.1
  posted {u task'} found' := by
    cases kept.2.tasks found' with
    | inr new => exact absurd new.1 (old found')
    | inl before =>
      obtain ⟨task, found, stays⟩ := before
      obtain ⟨own, detects⟩ := watched.posted found
      rw [stays.scheduler]
      exact ⟨own, kept.2.remembers.detects detects⟩
  untangled := untangled

/-- Where all tasks are on one scheduler, the wait graph has no cycle at all. -/
theorem loopless (watched : st.Watched (· = s)) : Loopless st.Waits := by
  rw [← waitsWithin_eq fun found => (watched.posted found).1]
  exact watched.untangled.loopless s

theorem of_eases (watched : st.Watched homes) (kept : st'.Accounts ∧ Persists st st')
    (eases : Eases st st') (untangled : st'.Untangled) : st'.Watched homes := by
  refine watched.of_persists kept (fun {u task'} found' => ?_) untangled
  obtain ⟨task, found, _⟩ := eases u task' found'
  simp [found]

theorem aside (watched : st.Watched homes) (aside : Aside st st') : st'.Watched homes := by
  have eases : Eases st st' := .of_aside aside
  exact watched.of_eases (watched.accounts.aside aside) eases
    (watched.untangled.calm eases aside.owner aside.waiters)

theorem acquire (watched : st.Watched homes) {granted : Except Deadlock Grant}
    (done : st.acquire r t = .ok (granted, st')) : st'.Watched homes := by
  have kept := watched.accounts.acquire done
  obtain ⟨known, there, ⟨_, nobody, rfl⟩ | ⟨owned, ⟨_, _, _, rfl⟩ | ⟨_, allowed, _, rfl⟩⟩⟩ := acquire_ok done
  · exact watched.of_eases kept (.of_tasks rfl) (watched.untangled.take known nobody t)
  · exact watched
  · obtain ⟨task, found⟩ := Option.isSome_iff_exists.1 there
    have first : Becomes st t { task with waiting := some (.resource r) } (st.announceWait t (.resource r)) :=
      becomes_modifyTask found _
    have becomes : Becomes st t { task with waiting := some (.resource r), linked := true }
        ((st.announceWait t (.resource r)).inLine t r) := first.trans (becomes_modifyTask first.self _)
    have tasks : ∀ {u task'}, ((st.announceWait t (.resource r)).inLine t r).tasks.get? u = some task' →
        ∃ task, st.tasks.get? u = some task ∧ task'.scheduler = task.scheduler ∧
          task'.isFinished = task.isFinished ∧
          task'.waiting = if u = t then some (.resource r) else task.waiting := by
      intro u task' found'
      rw [becomes] at found'
      split at found'
      · next same =>
        obtain rfl := Option.some.inj found'
        exact ⟨task, same ▸ found, rfl, rfl, by simp [same]⟩
      · next other => exact ⟨task', found', rfl, rfl, by simp [other]⟩
    have owner : ((st.announceWait t (.resource r)).inLine t r).owner = st.owner := owner_inLine t r
    have waiters : ∀ q, ((st.announceWait t (.resource r)).inLine t r).waiters q =
        if q = r then st.waiters r ++ [t] else st.waiters q := fun q =>
      @waiters_inLine _ _ (st.announceWait t (.resource r)) t r known q
    refine watched.of_persists kept (fun {u task'} found' => ?_)
      (watched.begins found allowed tasks (congrFun owner) ?_ ?_ ?_)
    · obtain ⟨task, found, _⟩ := tasks found'
      simp [found]
    · intro u q inside
      rw [waiters]
      split
      · next same => exact List.mem_append_left _ (same ▸ inside)
      · exact inside
    · rintro q ⟨⟩
      simp [waiters]
    · intro q nobody
      rw [owner] at nobody
      rw [waiters, if_neg (by rintro rfl; exact owned nobody)]
      exact watched.untangled.free nobody

theorem waitFor (watched : st.Watched homes) {child : TaskId}
    {reply : Except Deadlock (Option (Outcome V))} (done : st.waitFor t child = .ok (reply, st')) :
    st'.Watched homes := by
  have kept := watched.accounts.waitFor done
  obtain ⟨task, found⟩ : ∃ task, st.tasks.get? t = some task := by
    simp only [State.waitFor, bind_ok, task_ok] at done
    obtain ⟨_, _, task, found, _⟩ := done
    exact ⟨task, found⟩
  obtain ⟨_, _, ⟨_, _, rfl⟩ | ⟨_, ⟨_, _, _, rfl⟩ | ⟨_, allowed, rfl⟩⟩⟩ := waitFor_ok done
  · exact watched
  · exact watched
  · have tasks : ∀ {u task'}, (st.joined t child).tasks.get? u = some task' →
        ∃ task, st.tasks.get? u = some task ∧ task'.scheduler = task.scheduler ∧
          task'.isFinished = task.isFinished ∧
          task'.waiting = if u = t then some (.task child) else task.waiting := by
      intro u task' found'
      rw [get?_joined found] at found'
      obtain ⟨other, before, rfl⟩ := Option.map_eq_some_iff.1 found'
      split at before
      · next same =>
        obtain rfl := Option.some.inj before
        exact ⟨task, same ▸ found, by split <;> rfl, by split <;> rfl, by split <;> simp⟩
      · next different => exact ⟨other, before, by split <;> rfl, by split <;> rfl, by split <;> simp⟩
    refine watched.of_persists kept (fun {u task'} found' => ?_)
      (watched.begins found allowed tasks (fun _ => rfl) id (by simp) watched.untangled.free)
    obtain ⟨task, found, _⟩ := tasks found'
    simp [found]

end Watched

/-! ## Steps -/

/-- What code may ask for that spawns tasks on certain schedulers only, which look for deadlocks. -/
def Among (homes : SchedulerId → Prop) (st : State V C) (request : Request V C) : Prop :=
  st.Unforced request ∧ ∀ s entry, request = .spawn s entry → homes s ∧ st.detects s = true

namespace Watched

variable [Inhabited V]

theorem serve (watched : st.Watched homes) {request : Request V C} {reply : request.Reply}
    (permitted : Among homes st request) (done : st.serve request = .ok (reply, st')) :
    st'.Watched homes := by
  have kept := watched.accounts.serve permitted.1 done
  have untangled := watched.untangled
  cases request with
  | move | spawnBound => exact permitted.1.elim
  | spawn s entry =>
    obtain ⟨here, detects⟩ := permitted.2 s entry rfl
    have remembers := kept.2.remembers
    simp only [State.serve, State.spawn, bind_ok, scheduler_ok] at done
    obtain ⟨scheduler, known, done⟩ := done
    split at done
    · simp only [pure_ok, Prod.mk.injEq] at done
      exact done.2 ▸ watched
    · simp only [pure_ok, Prod.mk.injEq] at done
      obtain ⟨_, rfl⟩ := done
      refine ⟨kept.1, fun {u task'} found' => ?_, untangled.spawned s entry⟩
      have before := (get?_spawned s entry none u).symm.trans found'
      split at before
      · obtain rfl := Option.some.inj before
        exact ⟨here, remembers.detects detects⟩
      · obtain ⟨own, detects⟩ := watched.posted before
        exact ⟨own, remembers.detects detects⟩
  | start t =>
    simp only [State.serve, bind_ok, pure_ok, Prod.mk.injEq] at done
    obtain ⟨st₁, started, _, rfl⟩ := done
    obtain ⟨task, found⟩ := exists_of_task started
    obtain ⟨new, _⟩ := start_ok found started
    have eases : Eases st st₁ := .of_becomes found (becomes_start found started)
      (.of_life (by simp [new, Life.isTerminal]) rfl)
    exact watched.of_eases kept eases (untangled.of_resources eases (Quiet.start started).resources)
  | ready t =>
    simp only [State.serve, bind_ok, pure_ok, Prod.mk.injEq] at done
    obtain ⟨st₁, woken, _, rfl⟩ := done
    have eases : Eases st st₁ := .ready woken
    exact watched.of_eases kept eases (untangled.of_resources eases (Quiet.ready woken).resources)
  | yield t =>
    simp only [State.serve, bind_ok, pure_ok, Prod.mk.injEq] at done
    obtain ⟨st₁, yielded, _, rfl⟩ := done
    have resources := (Quiet.yield yielded).resources
    simp only [State.yield, bind_ok, task_ok, check_ok, pure_ok] at yielded
    obtain ⟨task, found, _, rfl⟩ := yielded
    have eases : Eases st _ := .of_becomes found (becomes_modifyTask found fun task =>
      { task with notified := true }) ⟨rfl, id, fun _ => id⟩
    exact watched.of_eases kept eases (untangled.of_resources eases resources)
  | waitExternal t =>
    simp only [State.serve, bind_ok, pure_ok, Prod.mk.injEq] at done
    obtain ⟨st₁, announced, _, rfl⟩ := done
    obtain ⟨task, found⟩ := exists_of_task announced
    have eases : Eases st st₁ := .of_becomes found (becomes_waitExternal found announced)
      ⟨rfl, id, fun inside waits => absurd (Option.some.inj waits).symm inside⟩
    exact watched.of_eases kept eases (untangled.of_resources eases (Quiet.waitExternal announced).resources)
  | pause t f =>
    simp only [State.serve, bind_ok, pure_ok, Prod.mk.injEq] at done
    obtain ⟨st₁, paused, _, rfl⟩ := done
    exact watched.aside (.of_pause paused)
  | waitFor t child => exact watched.waitFor done
  | tryAcquire r t =>
    simp only [State.serve, State.tryAcquire, bind_ok, resource_ok] at done
    obtain ⟨resource, known, _, _, done⟩ := done
    split at done
    · next nobody =>
      simp only [pure_ok, Prod.mk.injEq] at done
      obtain ⟨_, rfl⟩ := done
      refine watched.of_eases kept (.of_tasks rfl) (untangled.take (by simp [known]) ?_ t)
      simpa [owner_of_get? known] using nobody
    · simp only [pure_ok, Prod.mk.injEq] at done
      exact done.2 ▸ watched
  | acquire r t => exact watched.acquire done
  | release r t =>
    simp only [State.serve, bind_ok, pure_ok, Prod.mk.injEq] at done
    obtain ⟨st₁, released, _, rfl⟩ := done
    obtain ⟨eases, untangled'⟩ := untangled.release released
    exact watched.of_eases kept eases untangled'
  | newScheduler settings g =>
    rcases addScheduler_ok done with rfl | ⟨workers, rfl⟩
    · exact watched
    · have eases : Eases st { st with schedulers := st.schedulers.add (.new settings g workers) } :=
        .of_tasks rfl
      exact watched.of_eases kept eases (untangled.of_resources eases rfl)
  | stop s =>
    simp only [State.serve, bind_ok, pure_ok, Prod.mk.injEq] at done
    obtain ⟨st₁, stopped, _, rfl⟩ := done
    obtain rfl := stop_idle (watched.accounts.queue_eq_nil permitted.1) stopped
    have eases : Eases st (st.modifyScheduler s fun other =>
      { other with isShutDown := true, ready := .empty }) := .of_tasks rfl
    exact watched.of_eases kept eases (untangled.of_resources eases rfl)
  | _ =>
    obtain ⟨tasks, _, owner, waiters⟩ := serve_bookless rfl done
    exact watched.of_eases kept (.of_tasks tasks) (untangled.calm (.of_tasks tasks) owner waiters)

theorem deeds (watched : st.Watched homes) (deeds : Deeds (Among homes) st st') : st'.Watched homes := by
  obtain ⟨st₁, st₂, earlier, deed, later⟩ := deeds
  replace watched := watched.aside earlier
  have during : st₂.Watched homes := by
    cases deed with
    | aside aside => exact watched.aside aside
    | serve permitted served => exact watched.serve permitted served
    | acquire acquired => exact watched.acquire acquired
    | release released =>
      obtain ⟨eases, untangled⟩ := watched.untangled.release released
      exact watched.of_eases (watched.accounts.release released) eases untangled
    | waitFor waited => exact watched.waitFor waited
  exact during.aside later

omit [Inhabited V] in
/-- The run of a task begins or ends, and nobody begins to wait. -/
theorem turns (watched : st.Watched homes) (accounts : st'.Accounts) (remembers : Remembers st st')
    (eases : Eases st st') (resources : st'.resources = st.resources) : st'.Watched homes where
  accounts := accounts
  posted {u task'} found' := by
    obtain ⟨task, found, eases⟩ := eases u task' found'
    obtain ⟨own, detects⟩ := watched.posted found
    rw [eases.scheduler]
    exact ⟨own, remembers.detects detects⟩
  untangled := watched.untangled.of_resources eases resources

end Watched

end State

namespace Crew

/-- What code keeps to that spawns tasks on certain schedulers only, which look for deadlocks: it forces no
task from one stage to another either. -/
def Among (homes : SchedulerId → Prop) (c : Crew V C) (a : Agent V C) : Prop :=
  Unforced c a ∧ ∀ s entry next, a.focus = .code (.ask (.spawn s entry) next) →
    homes s ∧ c.state.detects s = true

/-- What code keeps to if there is a single scheduler, which looks for deadlocks: it forces no task from
one stage to another, and spawns tasks nowhere else. -/
def Single (home : SchedulerId) (c : Crew V C) (a : Agent V C) : Prop :=
  Unforced c a ∧ ∀ s entry next, a.focus = .code (.ask (.spawn s entry) next) →
    s = home ∧ c.state.detects home = true

variable {homes : SchedulerId → Prop} {home : SchedulerId}

theorem Single.among {c : Crew V C} {a : Agent V C} (single : Single home c a) : Among (· = home) c a := by
  refine ⟨single.1, fun s entry next focus => ?_⟩
  obtain ⟨rfl, detects⟩ := single.2 s entry next focus
  exact ⟨rfl, detects⟩

variable [Inhabited V]

theorem watched_act {st : State V C} {before after : List (Agent V C)} {a : Agent V C}
    {config : Config V C} (watched : st.Watched homes) (among : Among homes ⟨st, before ++ a :: after⟩ a)
    (step : (a.config st).step = .ok config) : config.state.Watched homes := by
  have permitted : ∀ request next, (a.config st).focus = .code (.ask request next) →
      State.Among homes (a.config st).state request := by
    intro request next focus
    obtain ⟨unforced, here⟩ := among
    simp only [Unforced, show a.focus = .code (.ask request next) from focus] at unforced
    refine ⟨unforced, ?_⟩
    rintro s entry rfl
    exact here s entry next focus
  cases Config.course_of_step permitted step with
  | deeds deeds => exact watched.deeds deeds
  | @begins t w st₁ taken begun =>
    rcases taken with ⟨s, _, taken⟩ | ⟨⟨index, own⟩, _⟩
    · obtain ⟨accounts, task, found, ready, becomes⟩ := watched.accounts.begins taken begun
      refine watched.turns accounts ((State.Remembers.takeReady taken).trans (.beginRun begun))
        (.of_becomes found becomes (.of_life (by simp [ready, Life.isTerminal]) rfl)) ?_
      exact (State.Quiet.beginRun begun).1.resources.trans (State.Quiet.takeReady taken).resources
    · simp only [Among, Unforced, show a.focus = .own t index from own, false_and] at among
  | @parks t st₁ aside parked =>
    have watched₁ := watched.aside aside
    obtain ⟨accounts, task, found, live, _, becomes⟩ := watched₁.accounts.parks parked
    have same : (task.parked.scheduler, task.parked.waiting) = (task.scheduler, task.waiting) := by
      unfold Task.parked
      split <;> rfl
    exact watched₁.turns accounts (.park parked)
      (.of_becomes found becomes (.of_life (by simp [live, Life.isTerminal]) same))
      (State.Stops.park parked).1.resources
  | @finishes t result st₁ aside finished =>
    have watched₁ := watched.aside aside
    obtain ⟨task, found⟩ := State.exists_of_task finished
    obtain ⟨_, st₂, woken, retired⟩ := State.finish_ok found finished
    exact watched₁.turns (watched₁.accounts.finishes finished).1 (.finish finished) (.finish finished)
      ((State.Quiet.retire retired).resources.trans (State.Quiet.readyAll woken).resources)

/-- At every moment all tasks are on the schedulers, and the wait graph has no cycle between tasks of one of
them. -/
theorem Run.watched (run : Run V C (Among homes)) : ∀ i ≤ run.length, (run.crew i).state.Watched homes := by
  intro i
  induction i with
  | zero =>
    intro _
    obtain ⟨parallelism, starts⟩ := run.starts
    rw [starts]
    refine ⟨(accountable_initial parallelism).accounts, fun found => ?_, fun _ => ?_, fun found => ?_,
      fun s t cycle => ?_⟩
    · simp [initial, State.initial] at found
    · simp [initial, State.initial, State.waiters]
    · simp [initial, State.initial] at found
    · obtain ⟨u, ⟨edge, _⟩, _⟩ := Relation.TransGen.head'_iff.1 cycle
      cases edge with
      | resource found => simp [initial, State.initial] at found
      | task found => simp [initial, State.initial] at found
  | succ i inductionHypothesis =>
    intro bound
    have watched := inductionHypothesis (by omega)
    have step := run.steps i (by omega)
    revert watched step
    generalize run.crew i = c
    generalize run.crew (i + 1) = c'
    generalize run.resumed i = label
    intro watched step
    cases step with
    | act among step => exact watched_act watched among step
    | join | lapse => exact watched
    | @switch st agents thread =>
      have same : State.Aside st { st with running := thread } := .of_tables rfl rfl (fun _ => rfl) fun _ => rfl
      exact watched.aside same

theorem Run.watched_single (run : Run V C (Single home)) {i : Nat} (bound : i ≤ run.length) :
    (run.crew i).state.Watched (· = home) := (run.mono fun _ _ single => single.among).watched i bound

/-- The wait graph never has a cycle, and the search for one that a request would close is complete:
it is never cut short before it meets a task that waits for the requester. -/
theorem Run.waits_loopless (run : Run V C (Single home)) {i : Nat} (bound : i ≤ run.length) :
    Loopless (run.crew i).state.Waits ∧
      ∀ {t task} (target), (run.crew i).state.tasks.get? t = some task →
        (((run.crew i).state.findCycle t target).isSome = true ↔
          ∃ first, (run.crew i).state.blocker home target = some first ∧
            Relation.ReflTransGen (run.crew i).state.Waits first t) := by
  have watched := run.watched_single bound
  have own : ∀ {t task}, (run.crew i).state.tasks.get? t = some task → task.scheduler = home :=
    fun found => (watched.posted found).1
  have loopless := watched.loopless
  exact ⟨loopless, fun target found => State.findCycle_isSome_iff watched.accounts own loopless found target⟩

/-! ### Two tasks and two resources

The second task waits for the resource of the first.  Asking for the other resource would close a cycle. -/

def tangle : Program Unit Empty :=
  .ask .newRegistry fun g =>
  .ask (.newScheduler .manual g) fun
    | .error _ => .answer .suspended
    | .ok s => .newFrame "idle" (fun _ _ _ => .answer (.done ())) fun entry =>
      .ask (.spawn s entry) fun
      | .error _ => .answer .suspended
      | .ok t => .ask (.spawn s entry) fun
        | .error _ => .answer .suspended
        | .ok u => .ask (.newResource none) fun q => .ask (.newResource none) fun r =>
          .ask (.acquire q t) fun _ => .ask (.acquire r u) fun _ => .ask (.acquire q u) fun _ =>
          .answer (.done ())

/-- The host of the two tasks after so many steps. -/
def tangleHost (n : Nat) : Config Unit Empty := (Config.start (.initial 1) tangle).after n

theorem tangle_ok : ∀ n < 10, (tangleHost n).step.isOk = true := by decide +kernel

theorem tangle_single : ∀ n < 10, Single ⟨1⟩ (tangleHost n).alone (tangleHost n).agent := by
  intro n bound
  interval_cases n
  case «3» | «4» =>
    refine ⟨trivial, ?_⟩
    rintro s entry next ⟨⟩
    exact ⟨rfl, by decide +kernel⟩
  all_goals exact ⟨trivial, nofun⟩

def tangleRun : Run Unit Empty (Single ⟨1⟩) := .ofHost 1 tangle 10 tangle_ok tangle_single

theorem tangle_loopless : Loopless (tangleRun.crew 11).state.Waits ∧
    (tangleRun.crew 11).state.Waits ⟨2⟩ ⟨1⟩ ∧
    (tangleRun.crew 11).state.findCycle ⟨1⟩ (.resource ⟨2⟩) = some [⟨1⟩, ⟨2⟩, ⟨1⟩] := by
  obtain ⟨loopless, complete⟩ := tangleRun.waits_loopless (show 11 ≤ 11 by decide)
  obtain ⟨task, found⟩ : ∃ task, (tangleRun.crew 11).state.tasks.get? ⟨1⟩ = some task :=
    Option.isSome_iff_exists.1 (by decide +kernel)
  obtain ⟨first, blocks, way⟩ := (complete (.resource ⟨2⟩) found).1 (by decide +kernel)
  obtain rfl : ⟨2⟩ = first := Option.some.inj ((show _ = some ⟨2⟩ by decide +kernel).symm.trans blocks)
  have edge : (tangleRun.crew 11).state.nextWaited ⟨1⟩ ⟨2⟩ = some ⟨1⟩ := by decide +kernel
  have watched := tangleRun.watched_single (show 11 ≤ 11 by decide)
  have sees := (State.nextWaited_eq_some watched.accounts).1 edge
  exact ⟨loopless, sees.waits (State.blocker_unfinished watched.accounts blocks), by decide +kernel⟩

end Crew

end Tasking
