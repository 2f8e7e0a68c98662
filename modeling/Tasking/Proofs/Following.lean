import Tasking.Proofs.Doings

/-! # What a task keeps while others act

A task that waits for another one goes on waiting for it until that has an outcome, and outcomes stay
(`State.Attends`).  What a task is to be resumed with is nobody's business but that of its own run, so
serving a request and resuming a frame bring up no new errors (`State.Follows`).
-/

namespace Tasking

variable {V C : Type}

namespace State

variable {st st' st'' : State V C} {t : TaskId} {task task' : Task V}

/-- A task has an outcome. -/
def Settled (st : State V C) (t : TaskId) : Prop :=
  ∃ task, st.tasks.get? t = some task ∧ task.outcome ≠ none

/-- Tasks that wait for a task do so until it has an outcome, which it keeps. -/
structure Attends (st st' : State V C) : Prop where
  waits : ∀ {u task c}, st.tasks.get? u = some task → task.waiting = some (.task c) →
    (∃ task', st'.tasks.get? u = some task' ∧ task'.waiting = some (.task c)) ∨ st'.Settled c
  settled : ∀ {c}, st.Settled c → st'.Settled c

/-- Besides, no task has an error that it had not before. -/
structure Follows (st st' : State V C) : Prop extends Attends st st' where
  error : ∀ {u task'}, st'.tasks.get? u = some task' → task'.error ≠ none →
    ∃ task, st.tasks.get? u = some task ∧ task.error = task'.error

namespace Attends

@[refl] theorem refl (st : State V C) : Attends st st :=
  ⟨fun found waits => .inl ⟨_, found, waits⟩, id⟩

theorem trans (first : Attends st st') (second : Attends st' st'') : Attends st st'' where
  waits found waits := by
    rcases first.waits found waits with ⟨task', found', waits'⟩ | done
    · exact second.waits found' waits'
    · exact .inr (second.settled done)
  settled done := second.settled (first.settled done)

/-- One task changed, which keeps waiting for the task that it waits for, if any, and its outcome. -/
theorem of_becomes (found : st.tasks.get? t = some task) (becomes : Becomes st t task' st')
    (waits : ∀ c, task.waiting = some (.task c) → task'.waiting = some (.task c))
    (outcome : task.outcome ≠ none → task'.outcome ≠ none) : Attends st st' where
  waits {u other c} found' waits' := by
    refine .inl ?_
    by_cases same : u = t
    · subst same
      obtain rfl := Option.some.inj (found.symm.trans found')
      exact ⟨task', becomes.self, waits c waits'⟩
    · exact ⟨other, (becomes.other same).trans found', waits'⟩
  settled {c} := by
    rintro ⟨other, found', done⟩
    by_cases same : c = t
    · subst same
      obtain rfl := Option.some.inj (found.symm.trans found')
      exact ⟨task', becomes.self, outcome done⟩
    · exact ⟨other, (becomes.other same).trans found', done⟩

end Attends

namespace Follows

@[refl] theorem refl (st : State V C) : Follows st st := ⟨.refl st, fun found _ => ⟨_, found, rfl⟩⟩

theorem trans (first : Follows st st') (second : Follows st' st'') : Follows st st'' where
  toAttends := first.toAttends.trans second.toAttends
  error found failing := by
    obtain ⟨task, found', same⟩ := second.error found failing
    obtain ⟨task₀, found₀, same₀⟩ := first.error found' (same ▸ failing)
    exact ⟨task₀, found₀, same₀.trans same⟩

theorem of_tasks (same : st'.tasks = st.tasks) : Follows st st' := by
  refine ⟨⟨fun found waits => .inl ⟨_, ?_, waits⟩, ?_⟩, fun found _ => ⟨_, ?_, rfl⟩⟩
  · rwa [same]
  · rintro c ⟨task, found, done⟩
    exact ⟨task, by rwa [same], done⟩
  · rwa [← same]

theorem of_becomes (found : st.tasks.get? t = some task) (becomes : Becomes st t task' st')
    (waits : ∀ c, task.waiting = some (.task c) → task'.waiting = some (.task c))
    (outcome : task'.outcome = task.outcome) (error : task'.error = task.error ∨ task'.error = none) :
    Follows st st' where
  toAttends := .of_becomes found becomes waits fun done => outcome ▸ done
  error {u other} found' failing := by
    by_cases same : u = t
    · subst same
      obtain rfl := Option.some.inj (becomes.self.symm.trans found')
      exact ⟨task, found, (error.resolve_right failing).symm⟩
    · exact ⟨other, (becomes.other same).symm.trans found', rfl⟩

/-- A new task waits for nothing and has no error. -/
theorem of_new {new : Task V}
    (tasks : ∀ u, st'.tasks.get? u = if u = st.tasks.next then some new else st.tasks.get? u)
    (error : new.error = none) : Follows st st' := by
  have old : ∀ {u task}, st.tasks.get? u = some task → st'.tasks.get? u = some task :=
    fun found => (tasks _).trans ((if_neg (Table.ne_next_of_get? found)).trans found)
  refine ⟨⟨fun found waits => .inl ⟨_, old found, waits⟩, ?_⟩, fun {u task'} found failing => ?_⟩
  · rintro c ⟨task, found, done⟩
    exact ⟨task, old found, done⟩
  · rw [tasks] at found
    split at found
    · obtain rfl := Option.some.inj found
      exact absurd error failing
    · exact ⟨task', found, rfl⟩

/-- A task was woken that waits for no task. -/
theorem woken (found : st.tasks.get? t = some task) {before : Task V} (same : before = { task with linked := before.linked })
    (becomes : Becomes st t before.woken st') (free : ∀ c, task.waiting ≠ some (.task c)) :
    Follows st st' := by
  refine .of_becomes found becomes (fun c waits => absurd waits (free c)) ?_ (.inl ?_)
  · rw [same]
    unfold Task.woken
    split <;> rfl
  · rw [same]
    unfold Task.woken
    split <;> rfl

end Follows

/-! ## Serving requests -/

section Serving

variable [Inhabited V]

/-- What a request does that proper programs may make. -/
theorem follows_serve (balanced : st.Balanced) {request : Request V C} {reply : request.Reply}
    (open' : match request with
      | .tryAcquire _ _ | .acquire _ _ | .release _ _ | .move _ _ | .waitFor _ _ => False
      | .ready t => ∃ task, st.tasks.get? t = some task ∧ task.external = true
      | .waitExternal t => ∃ task, st.tasks.get? t = some task ∧ task.waiting = none
      | .spawnBound s _ => ∀ scheduler, st.schedulers.get? s = some scheduler →
          scheduler.settings.threadObstacle? scheduler.nextThread = none
      | .stop s => st.queue s = []
      | _ => True)
    (served : st.serve request = .ok (reply, st')) : Follows st st' := by
  cases request with
  | tryAcquire | acquire | release | move | waitFor => exact open'.elim
  | spawn s entry =>
    simp only [serve, spawn, bind_ok] at served
    obtain ⟨scheduler, _, served⟩ := served
    split at served
    · simp only [pure_ok, Prod.mk.injEq] at served
      exact served.2 ▸ .refl st
    · simp only [pure_ok, Prod.mk.injEq] at served
      obtain ⟨_, rfl⟩ := served
      exact .of_new (get?_spawned s entry none) rfl
  | spawnBound s entry =>
    obtain ⟨_, tasks | ⟨new, _, _, error, _, tasks⟩⟩ := balanced.spawnBound open' served
    · exact .of_tasks tasks
    · exact .of_new tasks error
  | stop s =>
    simp only [serve, bind_ok, pure_ok, Prod.mk.injEq] at served
    obtain ⟨_, stopped, _, rfl⟩ := served
    exact .of_tasks (balanced.stop open' stopped).2
  | start t =>
    simp only [serve, bind_ok, pure_ok, Prod.mk.injEq] at served
    obtain ⟨_, started, _, rfl⟩ := served
    obtain ⟨task, found⟩ : ∃ task, st.tasks.get? t = some task := by
      simp only [State.start, bind_ok, task_ok] at started
      exact ⟨started.choose, started.choose_spec.1⟩
    exact .of_becomes found (becomes_start found started) (fun _ => id) rfl (.inl rfl)
  | ready t =>
    simp only [serve, bind_ok, pure_ok, Prod.mk.injEq] at served
    obtain ⟨_, woken, _, rfl⟩ := served
    obtain ⟨task, found, external⟩ := open'
    have outside := (balanced.sane found).external.1 external
    exact .woken found rfl (becomes_ready found woken) (by simp [outside])
  | yield t =>
    simp only [serve, State.yield, bind_ok, task_ok, check_ok, pure_ok, Prod.mk.injEq] at served
    obtain ⟨_, ⟨task, found, _, rfl⟩, _, rfl⟩ := served
    exact .of_becomes found (becomes_modifyTask found _) (fun _ => id) rfl (.inl rfl)
  | waitExternal t =>
    simp only [serve, bind_ok, pure_ok, Prod.mk.injEq] at served
    obtain ⟨_, announced, _, rfl⟩ := served
    obtain ⟨task, found, waitless⟩ := open'
    exact .of_becomes found (becomes_waitExternal found announced) (by simp [waitless]) rfl (.inl rfl)
  | pause t f =>
    simp only [serve, bind_ok, pure_ok, Prod.mk.injEq] at served
    obtain ⟨_, paused, _, rfl⟩ := served
    obtain ⟨known, rfl⟩ := pause_ok paused
    obtain ⟨task, found⟩ := Option.isSome_iff_exists.1 known
    exact .of_becomes found (becomes_modifyTask found _) (fun _ => id) rfl (.inl rfl)
  | newScheduler settings g => exact .of_tasks (balanced.addScheduler served).2
  | _ => exact .of_tasks (serve_bookless rfl served).1

end Serving

/-! ## Resuming frames -/

theorem follows_setCode (f : FrameId) (code : Frame.Code V (Body V C)) : Follows st (st.setCode f code) :=
  .of_tasks rfl

theorem follows_callFrame {f callee : FrameId} {value : V} {answer : Answer V}
    (done : st.callFrame t f callee value = .ok (answer, st')) : Follows st st' := by
  simp only [State.callFrame, bind_ok, pure_ok, Prod.mk.injEq] at done
  obtain ⟨st₁, attached, st₂, paused, _, rfl⟩ := done
  obtain ⟨_, _, rfl⟩ := attach_ok attached
  obtain ⟨known, rfl⟩ := pause_ok paused
  obtain ⟨task, found⟩ := Option.isSome_iff_exists.1 known
  have attached' : Follows st (st.modifyFrame callee fun frame => { frame with caller := some f }) :=
    .of_tasks rfl
  exact attached'.trans (.of_becomes found (becomes_modifyTask found _) (fun _ => id) rfl (.inl rfl))

theorem follows_resumeGuard (balanced : st.Balanced) (found : st.tasks.get? t = some task)
    (live : task.life = .running) (calm : task.arranged = false) {f : FrameId} {r : ResourceId}
    {phase : Phase V} {value : V} {error : Option (Error V)} {answer : Answer V}
    (done : st.resumeGuard t f r phase value error = .ok (answer, st')) : Follows st st' := by
  have recoded := balanced.setCode f (.guard r .released)
  have released : Follows st (st.setCode f (.guard r .released)) := follows_setCode f _
  have waitless := (Task.arranged_eq_false.1 calm).2
  cases phase with
  | start body =>
    simp only [State.resumeGuard] at done
    split at done
    · simp only [pure_ok, Prod.mk.injEq] at done
      exact done.2 ▸ released
    · simp only [bind_ok] at done
      obtain ⟨⟨granted, st₁⟩, asked, done⟩ := done
      have asks : Follows st st₁ := by
        obtain ⟨_, ⟨_, tasks⟩ | ⟨_, becomes⟩⟩ := recoded.acquire (t := t) found live calm asked
        · exact .of_tasks tasks
        · exact released.trans (.of_becomes found becomes (by simp [waitless]) rfl (.inl rfl))
      dsimp only at done
      split at done
      · exact asks.trans ((follows_setCode f _).trans (follows_callFrame done))
      · simp only [pure_ok, Prod.mk.injEq] at done
        exact done.2 ▸ asks.trans (follows_setCode f _)
      · simp only [pure_ok, Prod.mk.injEq] at done
        exact done.2 ▸ asks
  | waiting body kept =>
    simp only [State.resumeGuard, check_ok] at done
    obtain ⟨_, _, done⟩ := done
    exact released.trans ((follows_setCode f _).trans (follows_callFrame done))
  | held =>
    simp only [State.resumeGuard, bind_ok, pure_ok, Prod.mk.injEq] at done
    obtain ⟨st₁, gives, rfl, rfl⟩ := done
    obtain ⟨_, tasks | ⟨u, other, found', waits, becomes⟩⟩ := recoded.release gives
    · exact .of_tasks tasks
    · exact released.trans (.woken found' rfl becomes (by simp [waits]))
  | released => simp [State.resumeGuard] at done

theorem follows_resumeJoin (found : st.tasks.get? t = some task) (calm : task.arranged = false)
    {f : FrameId} {child : TaskId} {parked : Bool} {error : Option (Error V)} {answer : Answer V}
    (done : st.resumeJoin t f child parked error = .ok (answer, st')) : Follows st st' := by
  have waitless := (Task.arranged_eq_false.1 calm).2
  unfold State.resumeJoin at done
  split at done
  · simp only [pure_ok, Prod.mk.injEq] at done
    exact done.2 ▸ .refl st
  · split at done
    · simp only [bind_ok, task_ok] at done
      obtain ⟨awaited, _, done⟩ := done
      split at done
      · simp only [pure_ok, Prod.mk.injEq] at done
        exact done.2 ▸ .refl st
      · simp at done
    · simp only [bind_ok] at done
      obtain ⟨⟨reply, st₁⟩, waited, done⟩ := done
      have asks : Follows st st₁ := by
        obtain ⟨awaited, known, ⟨_, _, rfl⟩ | ⟨_, ⟨_, _, _, rfl⟩ | ⟨_, _, rfl⟩⟩⟩ := waitFor_ok waited
        · exact .refl _
        · exact .refl _
        · have announced := becomes_modifyTask found fun task =>
            { task with waiting := some (.task child) }
          have first : Follows st (st.announceWait t (.task child)) :=
            .of_becomes found announced (by simp [waitless]) rfl (.inl rfl)
          obtain ⟨other, found'⟩ : ∃ other, (st.announceWait t (.task child)).tasks.get? child = some other := by
            by_cases same : child = t
            · subst same
              exact ⟨_, announced.self⟩
            · exact ⟨awaited, (announced.other same).trans known⟩
          exact first.trans (.of_becomes found' (becomes_modifyTask found' _) (fun _ => id) rfl (.inl rfl))
      split at done
      · simp only [pure_ok, Prod.mk.injEq] at done
        exact done.2 ▸ asks
      · simp only [pure_ok, Prod.mk.injEq] at done
        exact done.2 ▸ asks.trans (follows_setCode f _)
      · simp only [pure_ok, Prod.mk.injEq] at done
        exact done.2 ▸ asks

/-- What resuming a frame of a calm task does to others, and to errors. -/
theorem follows_resume (balanced : st.Balanced) (found : st.tasks.get? t = some task)
    (live : task.life = .running) (calm : task.arranged = false) {f : FrameId} {value : V}
    {error : Option (Error V)} {resumption : Resumption V C}
    (done : st.resume t f value error = .ok (resumption, st')) : Follows st st' := by
  simp only [State.resume, bind_ok, frame_ok] at done
  obtain ⟨frame, _, done⟩ := done
  split at done
  · simp only [pure_ok, Prod.mk.injEq] at done
    exact done.2 ▸ .refl st
  · simp only [bind_ok, pure_ok, Prod.mk.injEq] at done
    obtain ⟨⟨answer, st₁⟩, resumed, _, rfl⟩ := done
    exact follows_resumeGuard balanced found live calm resumed
  · simp only [bind_ok, pure_ok, Prod.mk.injEq] at done
    obtain ⟨⟨answer, st₁⟩, resumed, _, rfl⟩ := done
    exact follows_resumeJoin found calm resumed
  · unfold State.resumeMessage at done
    split at done
    · simp only [pure_ok, Prod.mk.injEq] at done
      exact done.2 ▸ .refl st
    · split at done
      · simp only [pure_ok, Prod.mk.injEq] at done
        exact done.2 ▸ .of_tasks rfl
      · simp only [bind_ok] at done
        obtain ⟨actor, _, may, _, done⟩ := done
        split at done
        · simp only [pure_ok, Prod.mk.injEq] at done
          exact done.2 ▸ .of_tasks rfl
        · simp at done

/-! ## The ends of runs -/

theorem attends_park (found : st.tasks.get? t = some task) (done : st.park t = .ok st') :
    Attends st st' := by
  refine .of_becomes found (becomes_park found done) (fun c => ?_) ?_
  · unfold Task.parked
    split <;> exact id
  · unfold Task.parked
    split <;> exact id

theorem attends_finish [Inhabited V] (balanced : st.Balanced) (found : st.tasks.get? t = some task)
    (calm : task.arranged = false) (listed : task.listed = true) {result : Except (Error V) V}
    (done : st.finish t result = .ok st') : Attends st st' := by
  obtain ⟨_, tasks⟩ := balanced.finish found calm listed done
  have ended : st'.Settled t := ⟨_, (tasks t).trans (if_pos rfl), by simp [Task.closed]⟩
  constructor
  · intro u other c found' waits
    by_cases joins : u ∈ st.joiners t
    · obtain ⟨other', found'', waits'⟩ := balanced.waits_of_joins joins
      obtain rfl := Option.some.inj (found'.symm.trans found'')
      obtain rfl : c = t := by simpa using waits.symm.trans waits'
      exact .inr ended
    · have different : u ≠ t := by
        rintro rfl
        obtain rfl := Option.some.inj (found.symm.trans found')
        simp [(Task.arranged_eq_false.1 calm).2] at waits
      exact .inl ⟨other, (tasks u).trans ((if_neg different).trans ((if_neg joins).trans found')), waits⟩
  · rintro c ⟨other, found', done'⟩
    by_cases same : c = t
    · exact same ▸ ended
    · by_cases joins : c ∈ st.joiners t
      · refine ⟨other.woken, (tasks c).trans ((if_neg same).trans ((if_pos joins).trans ?_)), ?_⟩
        · rw [found']
          rfl
        · unfold Task.woken
          split <;> exact done'
      · exact ⟨other, (tasks c).trans ((if_neg same).trans ((if_neg joins).trans found')), done'⟩

end State

end Tasking
