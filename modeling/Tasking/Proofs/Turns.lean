import Tasking.Proofs.Regular

/-! # Turns of regular programs

A task that runs has arranged to wait only if its frame is about to suspend.  So whenever a frame is
resumed, finishes or jumps, its task is calm, and the books stay right.
-/

namespace Tasking

open Picture

variable {V C : Type}

namespace State

variable {st st' st₁ : State V C} {t : TaskId} {task task' : Task V} {f : FrameId}

/-- Resuming a frame of a task keeps the books, and the task has arranged to wait afterwards only if
    the frame suspended. -/
structure Resumes (st : State V C) (t : TaskId) (task : Task V) (suspends : Prop) (st' : State V C) :
    Prop where
  balanced : st'.Balanced
  spares : Spares (some t) st st'
  own : ∃ task', st'.tasks.get? t = some task' ∧ task'.listed = task.listed ∧
    task'.life = task.life ∧ (task'.arranged = true → suspends)

namespace Resumes

variable {suspends : Prop}

/-- Resuming the frame did nothing to tasks. -/
theorem of_tables (balanced : st.Balanced) (found : st.tasks.get? t = some task)
    (calm : task.arranged = false) (tasks : st'.tasks = st.tasks)
    (schedulers : st'.schedulers = st.schedulers) (waiters : ∀ r, st'.waiters r = st.waiters r) :
    st.Resumes t task suspends st' where
  balanced := balanced.of_tables tasks schedulers waiters
  spares := .of_tasks tasks
  own := ⟨task, tasks ▸ found, rfl, rfl, by simp [calm]⟩

/-- Resuming the frame did something to its own task alone. -/
theorem of_becomes (found : st.tasks.get? t = some task) (balanced : st'.Balanced)
    (becomes : Becomes st t task' st') (listed : task'.listed = task.listed)
    (life : task'.life = task.life) (arranged : task'.arranged = true → suspends) :
    st.Resumes t task suspends st' where
  balanced := balanced
  spares := .of_becomes (by simp [found]) becomes
  own := ⟨task', becomes.self, listed, life, arranged⟩

/-- The frame was resumed after its task had been told what with. -/
theorem after (becomes : Becomes st t task' st₁) (found : st.tasks.get? t = some task)
    (listed : task'.listed = task.listed) (life : task'.life = task.life)
    (resumes : st₁.Resumes t task' suspends st') : st.Resumes t task suspends st' where
  balanced := resumes.balanced
  spares := by
    refine ⟨fun {u other} foreign found' => ?_, fun {u other} found' => ?_⟩
    · have different : u ≠ t := fun same => foreign (by rw [same])
      exact resumes.spares.alike foreign ((becomes.other different).trans found')
    · refine (resumes.spares.back found').imp (fun old => ?_) id
      by_cases same : u = t
      · simp [same, found]
      · rwa [becomes.other same] at old
  own := by
    obtain ⟨other, found', listed', life', arranged⟩ := resumes.own
    exact ⟨other, found', listed'.trans listed, life'.trans life, arranged⟩

end Resumes

theorem Balanced.setCode (balanced : st.Balanced) (f : FrameId) (code : Frame.Code V (Body V C)) :
    (st.setCode f code).Balanced := balanced.of_tables rfl rfl fun _ => rfl

/-- A frame called another one. -/
theorem Balanced.callFrame (balanced : st.Balanced) (found : st.tasks.get? t = some task)
    {callee : FrameId} {value : V} {answer : Answer V}
    (done : st.callFrame t f callee value = .ok (answer, st')) :
    st'.Balanced ∧ Becomes st t { task with top := some callee } st' := by
  simp only [State.callFrame, bind_ok, pure_ok, Prod.mk.injEq] at done
  obtain ⟨st₁, attached, st₂, paused, _, rfl⟩ := done
  obtain ⟨_, _, rfl⟩ := attach_ok attached
  obtain ⟨_, rfl⟩ := pause_ok paused
  have balanced₁ : (st.modifyFrame callee fun frame => { frame with caller := some f }).Balanced :=
    balanced.of_tables rfl rfl fun _ => rfl
  exact ⟨balanced₁.modifyTask found fun _ => rfl, becomes_modifyTask found _⟩

theorem Balanced.resumeGuard (balanced : st.Balanced) (found : st.tasks.get? t = some task)
    (live : task.life = .running) (calm : task.arranged = false) {r : ResourceId} {phase : Phase V}
    {value : V} {error : Option (Error V)} {answer : Answer V}
    (done : st.resumeGuard t f r phase value error = .ok (answer, st')) :
    st.Resumes t task (answer = .suspended ∧ error = none) st' := by
  have recoded := balanced.setCode f (.guard r .released)
  cases phase with
  | start body =>
    simp only [State.resumeGuard] at done
    split at done
    · simp only [pure_ok, Prod.mk.injEq] at done
      exact done.2 ▸ .of_tables balanced found calm rfl rfl fun _ => rfl
    · simp only [bind_ok] at done
      obtain ⟨⟨granted, st₁⟩, asked, done⟩ := done
      obtain ⟨balanced₁, change⟩ := recoded.acquire (t := t) found live calm asked
      dsimp only at done
      split at done
      · have tasks : st₁.tasks = st.tasks := (change.resolve_right (by simp)).2
        have found₁ : st₁.tasks.get? t = some task := tasks ▸ found
        obtain ⟨balanced', becomes⟩ := (balanced₁.setCode f (.guard r .held)).callFrame found₁ done
        have becomes' : Becomes st t { task with top := some body } st' := fun u => by
          rw [becomes u, ← tasks]
          rfl
        exact .of_becomes found balanced' becomes' rfl rfl fun now => by
          have now' : task.arranged = true := now
          simp [calm] at now'
      · simp only [pure_ok, Prod.mk.injEq] at done
        obtain ⟨rfl, rfl⟩ := done
        obtain ⟨_, becomes⟩ := change.resolve_left (by simp)
        exact .of_becomes found (balanced₁.setCode f (.guard r (.waiting body value))) becomes rfl rfl
          fun _ => ⟨rfl, rfl⟩
      · next refusal =>
        simp only [pure_ok, Prod.mk.injEq] at done
        have tasks : st₁.tasks = st.tasks := (change.resolve_right (by simp)).2
        have found₁ : st₁.tasks.get? t = some task := tasks ▸ found
        rw [← done.2]
        exact ⟨balanced₁, .of_tasks tasks, task, found₁, rfl, rfl, by simp [calm]⟩
  | waiting body kept =>
    simp only [State.resumeGuard, check_ok] at done
    obtain ⟨_, _, done⟩ := done
    obtain ⟨balanced', becomes⟩ := (recoded.setCode f (.guard r .held)).callFrame (t := t) found done
    exact .of_becomes found balanced' becomes rfl rfl fun now => by
      have now' : task.arranged = true := now
      simp [calm] at now'
  | held =>
    simp only [State.resumeGuard, bind_ok, pure_ok, Prod.mk.injEq] at done
    obtain ⟨st₁, released, rfl, rfl⟩ := done
    obtain ⟨balanced', tasks | ⟨u, other, found', waits, becomes⟩⟩ := recoded.release released
    · exact ⟨balanced', .of_tasks tasks, task, tasks ▸ found, rfl, rfl, by simp [calm]⟩
    · have different : t ≠ u := by
        rintro rfl
        obtain rfl := Option.some.inj (found.symm.trans found')
        simp [(Task.arranged_eq_false.1 calm).2] at waits
      have unlinked : other.Alike { other with linked := false } :=
        ⟨rfl, rfl, rfl, rfl, .rfl, fun _ => rfl⟩
      have woken : Task.Alike { other with linked := false } { other with linked := false }.woken :=
        .woken (by simp [waits])
      exact ⟨balanced', .of_alike found' becomes (unlinked.trans woken), task, (becomes.other different).trans found, rfl,
        rfl, by simp [calm]⟩
  | released => simp [State.resumeGuard] at done

theorem Balanced.resumeJoin (balanced : st.Balanced) (found : st.tasks.get? t = some task)
    (live : task.life = .running) (calm : task.arranged = false) {child : TaskId} {parked : Bool}
    {error : Option (Error V)} {answer : Answer V}
    (done : st.resumeJoin t f child parked error = .ok (answer, st')) :
    st.Resumes t task (answer = .suspended ∧ error = none) st' := by
  have same : st' = st → st.Resumes t task (answer = .suspended ∧ error = none) st' := by
    rintro rfl
    exact .of_tables balanced found calm rfl rfl fun _ => rfl
  unfold State.resumeJoin at done
  split at done
  · simp only [pure_ok, Prod.mk.injEq] at done
    exact same done.2.symm
  · split at done
    · simp only [bind_ok, task_ok] at done
      obtain ⟨awaited, _, done⟩ := done
      split at done
      · simp only [pure_ok, Prod.mk.injEq] at done
        exact same done.2.symm
      · simp at done
    · simp only [bind_ok] at done
      obtain ⟨⟨reply, st₁⟩, waited, done⟩ := done
      obtain ⟨awaited, known, ⟨rfl, ended, rfl⟩ | ⟨unfinished, ⟨refusal, rfl, _, rfl⟩ | ⟨rfl, _, rfl⟩⟩⟩ :=
        waitFor_ok waited
      · cases outcome : awaited.outcome with
        | none => exact absurd outcome ended
        | some outcome' =>
          simp only [outcome, pure_ok, Prod.mk.injEq] at done
          exact same done.2.symm
      · simp only [pure_ok, Prod.mk.injEq] at done
        exact same done.2.symm
      · simp only [pure_ok, Prod.mk.injEq] at done
        obtain ⟨rfl, rfl⟩ := done
        have tasks := get?_joined found child
        have balanced' := (balanced.joined found live calm known unfinished).setCode f (.join child true)
        refine ⟨balanced', ⟨fun {u other} foreign found' => ?_, fun {u other} found' => .inl ?_⟩, ?_⟩
        · have different : u ≠ t := fun same => foreign (by rw [same])
          refine ⟨_, (tasks u).trans (by rw [if_neg different, found']; rfl), ?_⟩
          dsimp only
          split
          · exact ⟨rfl, rfl, rfl, rfl, .rfl, fun _ => rfl⟩
          · exact .refl other
        · by_cases same : u = t
          · simp [same, found]
          · have found'' := (tasks u).symm.trans found'
            rw [if_neg same] at found''
            obtain ⟨before, there, _⟩ := Option.map_eq_some_iff.1 found''
            simp [there]
        · refine ⟨_, (tasks t).trans (by rw [if_pos rfl]; rfl), ?_, ?_, fun _ => ⟨rfl, rfl⟩⟩
          · dsimp only
            split <;> rfl
          · dsimp only
            split <;> rfl

theorem Balanced.resumeMessage (balanced : st.Balanced) (found : st.tasks.get? t = some task)
    (calm : task.arranged = false) {a : ActorId} {message : V} {delivered : Bool} {value : V}
    {error : Option (Error V)} {resumption : Resumption V C} {suspends : Prop}
    (done : st.resumeMessage t f a message delivered value error = .ok (resumption, st')) :
    st.Resumes t task suspends st' := by
  unfold State.resumeMessage at done
  split at done
  · simp only [pure_ok, Prod.mk.injEq] at done
    exact done.2 ▸ .of_tables balanced found calm rfl rfl fun _ => rfl
  · split at done
    · simp only [pure_ok, Prod.mk.injEq] at done
      exact done.2 ▸ .of_tables balanced found calm rfl rfl fun _ => rfl
    · simp only [bind_ok] at done
      obtain ⟨actor, _, may, _, done⟩ := done
      split at done
      · simp only [pure_ok, Prod.mk.injEq] at done
        exact done.2 ▸ .of_tables balanced found calm rfl rfl fun _ => rfl
      · simp at done

/-- What resuming a frame of a calm task does to the books. -/
theorem Balanced.resume (balanced : st.Balanced) (found : st.tasks.get? t = some task)
    (live : task.life = .running) (calm : task.arranged = false) {value : V}
    {error : Option (Error V)} {resumption : Resumption V C}
    (done : st.resume t f value error = .ok (resumption, st')) :
    st.Resumes t task (resumption = ⟨.answer .suspended, none⟩ ∧ error = none) st' := by
  simp only [State.resume, bind_ok, frame_ok] at done
  obtain ⟨frame, _, done⟩ := done
  split at done
  · simp only [pure_ok, Prod.mk.injEq] at done
    exact done.2 ▸ .of_tables balanced found calm rfl rfl fun _ => rfl
  · simp only [bind_ok, pure_ok, Prod.mk.injEq] at done
    obtain ⟨⟨answer, st₁⟩, resumed, rfl, rfl⟩ := done
    obtain ⟨balanced', spares, task', found', listed, life, arranged⟩ :=
      balanced.resumeGuard found live calm resumed
    exact ⟨balanced', spares, task', found', listed, life, fun now => by simp [arranged now]⟩
  · simp only [bind_ok, pure_ok, Prod.mk.injEq] at done
    obtain ⟨⟨answer, st₁⟩, resumed, rfl, rfl⟩ := done
    obtain ⟨balanced', spares, task', found', listed, life, arranged⟩ :=
      balanced.resumeJoin found live calm resumed
    exact ⟨balanced', spares, task', found', listed, life, fun now => by simp [arranged now]⟩
  · exact balanced.resumeMessage found calm done

end State

end Tasking
