import Tasking.Proofs.Halting.Wear

/-! # What changes leave of a computation

A task goes on with what is in its registers: its top frame, and the value and the error for it.  Most of what
the runtime does to tasks is steady, as it changes no registers (`State.Steady`): starting, waking, parking and
taking up tasks, and handing resources over.

If each frame is there for one task, its home, then a change respects the tasks that it leaves with their
registers and with the frames that are there for them (`State.Respects`).
-/

namespace Tasking

variable {V C : Type}

namespace Task

variable {task task' task'' : Task V}

/-- Which frame of a task is resumed next, and with what. -/
def register (task : Task V) : Option FrameId × V × Option (Error V) := (task.top, task.value, task.error)

/-- The registers are as they were, and whoever was started stays so. -/
structure Steady (task task' : Task V) : Prop where
  register : task'.register = task.register
  started : task.life ≠ .init → task'.life ≠ .init

theorem Steady.refl (task : Task V) : task.Steady task := ⟨rfl, id⟩

theorem Steady.trans (first : task.Steady task') (second : task'.Steady task'') : task.Steady task'' :=
  ⟨second.register.trans first.register, second.started ∘ first.started⟩

theorem steady_woken (task : Task V) : task.Steady task.woken := by
  unfold woken
  split
  · exact ⟨rfl, fun _ => by simp [scheduled]⟩
  · exact ⟨rfl, id⟩

end Task

namespace State

variable {st st' st'' : State V C} {t : TaskId} {task task' : Task V}

/-- The registers of all tasks are as they were. -/
def Steady (st st' : State V C) : Prop :=
  ∀ u, Option.Rel Task.Steady (st.tasks.get? u) (st'.tasks.get? u)

namespace Steady

theorem of_tasks (same : st'.tasks = st.tasks) : Steady st st' := by
  intro u
  rw [same]
  cases st.tasks.get? u with
  | none => exact .none
  | some task => exact .some (.refl task)

@[refl] theorem refl (st : State V C) : Steady st st := .of_tasks rfl

theorem trans (first : Steady st st') (second : Steady st' st'') : Steady st st'' := by
  have link {x y z : Option (Task V)} (left : Option.Rel Task.Steady x y) (right : Option.Rel Task.Steady y z) :
      Option.Rel Task.Steady x z := by
    cases left with
    | none => exact right
    | some stays =>
      cases right with
      | some stays' => exact .some (stays.trans stays')
  exact fun u => link (first u) (second u)

theorem of_becomes (found : st.tasks.get? t = some task) (becomes : Becomes st t task' st')
    (steady : task.Steady task') : Steady st st' := by
  intro u
  rw [becomes u]
  split
  · next same => rw [same, found]; exact .some steady
  · exact refl st u

theorem modifyTask (st : State V C) (t : TaskId) {f : Task V → Task V} (steady : ∀ task : Task V, task.Steady (f task)) :
    Steady st (st.modifyTask t f) := by
  cases found : st.tasks.get? t with
  | none =>
    intro u
    rw [get?_modifyTask]
    split
    · next same => rw [same, found]; exact .none
    · exact refl st u
  | some task => exact .of_becomes found (becomes_modifyTask found f) (steady task)

end Steady

/-! ## Steady changes -/

theorem steady_ready (done : st.ready t = .ok st') : Steady st st' := by
  obtain ⟨task, found⟩ := exists_of_task done
  exact .of_becomes found (becomes_ready found done) task.steady_woken

theorem steady_readyAll {ts : List TaskId} (done : st.readyAll ts = .ok st') : Steady st st' := by
  induction ts generalizing st with
  | nil => exact pure_ok.1 done ▸ .refl st
  | cons t ts inductionHypothesis =>
    obtain ⟨st₁, woken, rest⟩ := bind_ok.1 done
    exact (steady_ready woken).trans (inductionHypothesis rest)

theorem steady_start (done : st.start t = .ok st') : Steady st st' := by
  obtain ⟨task, found⟩ := exists_of_task done
  exact .of_becomes found (becomes_start found done) ⟨rfl, fun _ => by simp [Task.scheduled]⟩

theorem steady_waitExternal (done : st.waitExternal t = .ok st') : Steady st st' := by
  obtain ⟨task, found⟩ := exists_of_task done
  exact .of_becomes found (becomes_waitExternal found done) ⟨rfl, id⟩

theorem steady_park (done : st.park t = .ok st') : Steady st st' := by
  obtain ⟨task, found⟩ := exists_of_task done
  refine .of_becomes found (becomes_park found done) ?_
  unfold Task.parked
  split <;> exact ⟨rfl, fun _ => by simp [Task.scheduled]⟩

theorem steady_beginRun {w : Worker} (done : st.beginRun t w = .ok st') : Steady st st' := by
  have ready := (Quiet.beginRun done).2.1
  obtain ⟨task, found, _⟩ := Option.map_eq_some_iff.1 ready
  exact .of_becomes found (becomes_beginRun found done) ⟨rfl, fun _ => by simp⟩

theorem steady_retire (done : st.retire t = .ok st') : Steady st st' := by
  obtain ⟨task, found, becomes⟩ := becomes_retire done
  exact .of_becomes found becomes ⟨rfl, id⟩

theorem steady_endRun (st : State V C) (t : TaskId) : Steady st (st.endRun t) :=
  .modifyTask st t (f := fun task => { task with worker := none }) fun _ => ⟨rfl, id⟩

theorem steady_dropLink (st : State V C) (t : TaskId) : Steady st (st.dropLink t) :=
  .modifyTask st t (f := fun task => { task with linked := false }) fun _ => ⟨rfl, id⟩

theorem steady_dropLinks (st : State V C) (ts : List TaskId) : Steady st (st.dropLinks ts) := by
  induction ts generalizing st with
  | nil => exact .refl st
  | cons t ts inductionHypothesis => exact (steady_dropLink st t).trans (inductionHypothesis _)

theorem steady_takeReady {s : SchedulerId} {next : Option TaskId} (done : st.takeReady s = .ok (next, st')) :
    Steady st st' := by
  obtain ⟨_, rfl⟩ | ⟨t, rest, _, _, _, rfl⟩ := takeReady_ok done
  · exact .refl st'
  · exact steady_dropLink st t

theorem steady_announceWait (st : State V C) (t : TaskId) (target : WaitTarget) :
    Steady st (st.announceWait t target) :=
  .modifyTask st t (f := fun task => { task with waiting := some target }) fun _ => ⟨rfl, id⟩

theorem steady_acquire {r : ResourceId} {granted : Except Deadlock Grant}
    (done : st.acquire r t = .ok (granted, st')) : Steady st st' := by
  obtain ⟨_, _, ⟨_, _, rfl⟩ | ⟨_, ⟨_, _, _, rfl⟩ | ⟨_, _, _, rfl⟩⟩⟩ := acquire_ok done
  · exact .of_tasks rfl
  · exact .refl st'
  · refine (steady_announceWait st t (.resource r)).trans ?_
    exact .modifyTask _ t (f := fun task => { task with linked := true }) fun _ => ⟨rfl, id⟩

theorem steady_release {r : ResourceId} (done : st.release r t = .ok st') : Steady st st' := by
  obtain ⟨_, _, ⟨_, rfl⟩ | ⟨next, rest, _, woken⟩⟩ := release_ok done
  · exact .of_tasks rfl
  · exact (show Steady st (st.handed next r rest) from steady_dropLink st next).trans (steady_ready woken)

theorem steady_waitFor {child : TaskId} {reply : Except Deadlock (Option (Outcome V))}
    (done : st.waitFor t child = .ok (reply, st')) : Steady st st' := by
  obtain ⟨awaited, _, ⟨_, _, rfl⟩ | ⟨_, ⟨_, _, _, rfl⟩ | ⟨_, _, rfl⟩⟩⟩ := waitFor_ok done
  · exact .refl st'
  · exact .refl st'
  · refine (steady_announceWait st t (.task child)).trans ?_
    exact .modifyTask _ child (f := fun task => { task with joiners := task.joiners.push t }) fun _ => ⟨rfl, id⟩

/-- Only putting a frame on top of a chain, creating a task and forcing a task are no steady requests. -/
theorem steady_serve [Inhabited V] {request : Request V C} {reply : request.Reply}
    (calm : match request with
      | .spawn _ _ | .spawnBound _ _ | .pause _ _ | .move _ _ => False
      | _ => True)
    (done : st.serve request = .ok (reply, st')) : Steady st st' := by
  by_cases bookless : request.bookless = true
  · exact .of_tasks (serve_bookless bookless done).1
  · cases request with
    | spawn | spawnBound | pause | move => exact calm.elim
    | start t =>
      simp only [serve, bind_ok, pure_ok, Prod.mk.injEq] at done
      obtain ⟨_, started, _, rfl⟩ := done
      exact steady_start started
    | ready t =>
      simp only [serve, bind_ok, pure_ok, Prod.mk.injEq] at done
      obtain ⟨_, woken, _, rfl⟩ := done
      exact steady_ready woken
    | yield t =>
      simp only [serve, State.yield, bind_ok, task_ok, check_ok, pure_ok, Prod.mk.injEq] at done
      obtain ⟨_, ⟨task, found, _, rfl⟩, _, rfl⟩ := done
      exact .of_becomes found (becomes_modifyTask found _) ⟨rfl, id⟩
    | waitExternal t =>
      simp only [serve, bind_ok, pure_ok, Prod.mk.injEq] at done
      obtain ⟨_, announced, _, rfl⟩ := done
      exact steady_waitExternal announced
    | waitFor t child => exact steady_waitFor done
    | stop s =>
      simp only [serve, State.stop, bind_ok, pure_ok, Prod.mk.injEq] at done
      obtain ⟨_, ⟨scheduler, _, rfl⟩, _, rfl⟩ := done
      refine .trans ?_ (steady_dropLinks _ _)
      exact .of_tasks rfl
    | tryAcquire r t =>
      obtain ⟨_, _, ⟨_, _, rfl⟩ | ⟨_, _, rfl⟩⟩ := tryAcquire_ok done
      · exact .of_tasks rfl
      · exact .refl st'
    | acquire r t => exact steady_acquire done
    | release r t =>
      simp only [serve, bind_ok, pure_ok, Prod.mk.injEq] at done
      obtain ⟨_, released, _, rfl⟩ := done
      exact steady_release released
    | newScheduler settings g =>
      obtain rfl | ⟨workers, rfl⟩ := addScheduler_ok done
      · exact .refl st'
      · exact .of_tasks rfl
    | _ => simp [Request.bookless] at bookless

/-! ## Homes -/

variable {home : FrameId → TaskId} {kept : TaskId → Prop} {f : FrameId}

/-- A frame is there. -/
def Known (st : State V C) (f : FrameId) : Prop := (st.frames.get? f).isSome = true

/-- Each frame on a chain is there for the task that the chain belongs to, and so is the body that a guard has
yet to call. -/
structure Housed (home : FrameId → TaskId) (st : State V C) : Prop where
  top : ∀ {t f}, st.top t = some f → st.Known f ∧ home f = t
  caller : ∀ {f g}, st.caller f = some g → st.Known g ∧ home g = home f
  awaited : ∀ {f body}, st.awaited? f = some body → st.Known body ∧ home body = home f

/-- Certain tasks keep their registers and the frames that are there for them. -/
structure Respects (home : FrameId → TaskId) (kept : TaskId → Prop) (st st' : State V C) : Prop where
  task : ∀ {u task}, st.tasks.get? u = some task → ∃ task', st'.tasks.get? u = some task' ∧
    (kept u → task'.register = task.register) ∧ (task.life ≠ .init → task'.life ≠ .init)
  frame : ∀ {g frame}, st.frames.get? g = some frame → ∃ frame', st'.frames.get? g = some frame' ∧
    (kept (home g) → frame' = frame)
  housed : st.Housed home → st'.Housed home

theorem awaited?_of_code? {g : FrameId} (same : st'.code? g = st.code? g) : st'.awaited? g = st.awaited? g := by
  rw [awaited?, same, awaited?]

theorem Known.mono (knows : ∀ {g frame}, st.frames.get? g = some frame → ∃ frame', st'.frames.get? g = some frame')
    (known : st.Known f) : st'.Known f := by
  obtain ⟨frame, found⟩ := Option.isSome_iff_exists.1 known
  obtain ⟨frame', found'⟩ := knows found
  simp [Known, found']

theorem Housed.of_frames (housed : st.Housed home) (same : st'.frames = st.frames)
    (top : ∀ {t f}, st'.top t = some f → st.top t = some f ∨ st.Known f ∧ home f = t) : st'.Housed home where
  top {t f} here := by
    rw [Known, same]
    exact (top here).elim housed.top id
  caller {f g} link := by
    rw [Known, same]
    rw [caller_of_frames same] at link
    exact housed.caller link
  awaited {f body} waits := by
    rw [Known, same]
    rw [awaited?_of_code? (code?_of_frames same f)] at waits
    exact housed.awaited waits

namespace Respects

@[refl] theorem refl (st : State V C) : Respects home kept st st :=
  ⟨fun found => ⟨_, found, fun _ => rfl, id⟩, fun found => ⟨_, found, fun _ => rfl⟩, id⟩

theorem trans (first : Respects home kept st st') (second : Respects home kept st' st'') :
    Respects home kept st st'' where
  task found := by
    obtain ⟨task', found', same, started⟩ := first.task found
    obtain ⟨task'', found'', same', started'⟩ := second.task found'
    exact ⟨task'', found'', fun keeps => (same' keeps).trans (same keeps), started' ∘ started⟩
  frame found := by
    obtain ⟨frame', found', same⟩ := first.frame found
    obtain ⟨frame'', found'', same'⟩ := second.frame found'
    exact ⟨frame'', found'', fun keeps => (same' keeps).trans (same keeps)⟩
  housed := second.housed ∘ first.housed

theorem mono {kept' : TaskId → Prop} (respects : Respects home kept st st') (fewer : ∀ u, kept' u → kept u) :
    Respects home kept' st st' where
  task found := by
    obtain ⟨task', found', same, started⟩ := respects.task found
    exact ⟨task', found', fun keeps => same (fewer _ keeps), started⟩
  frame found := by
    obtain ⟨frame', found', same⟩ := respects.frame found
    exact ⟨frame', found', fun keeps => same (fewer _ keeps)⟩
  housed := respects.housed

theorem known (respects : Respects home kept st st') (known : st.Known f) : st'.Known f :=
  known.mono fun found => (respects.frame found).imp fun _ => And.left

theorem of_steady (steady : Steady st st') (frames : st'.frames = st.frames) : Respects home kept st st' where
  task {u task} found := by
    have stays := steady u
    rw [found] at stays
    cases found' : st'.tasks.get? u with
    | none => rw [found'] at stays; cases stays
    | some task' =>
      rw [found'] at stays
      cases stays with
      | some stays => exact ⟨task', rfl, fun _ => stays.register, stays.started⟩
  frame found := ⟨_, frames ▸ found, fun _ => rfl⟩
  housed housed := by
    refine housed.of_frames frames fun {u f} top => .inl ?_
    have stays := steady u
    obtain ⟨task', found', here⟩ := Option.bind_eq_some_iff.1 top
    cases found : st.tasks.get? u with
    | none => rw [found, found'] at stays; cases stays
    | some task =>
      rw [found, found'] at stays
      cases stays with
      | some stays =>
        rw [State.top, found, Option.bind_some, ← here]
        exact (congrArg Prod.fst stays.register).symm

theorem of_tables (tasks : st'.tasks = st.tasks) (frames : st'.frames = st.frames) : Respects home kept st st' :=
  .of_steady (.of_tasks tasks) frames

/-- A task that need not be spared has other registers. -/
theorem of_becomes (found : st.tasks.get? t = some task) (becomes : Becomes st t task' st')
    (frames : st'.frames = st.frames) (started : task.life ≠ .init → task'.life ≠ .init) (free : ¬ kept t)
    (top : ∀ f, task'.top = some f → st.top t = some f ∨ st.Known f ∧ home f = t) : Respects home kept st st' where
  task {u other} found' := by
    by_cases same : u = t
    · subst same
      obtain rfl := Option.some.inj (found.symm.trans found')
      exact ⟨task', becomes.self, fun keeps => absurd keeps free, started⟩
    · exact ⟨other, (becomes.other same).trans found', fun _ => rfl, id⟩
  frame found' := ⟨_, frames ▸ found', fun _ => rfl⟩
  housed housed := by
    refine housed.of_frames frames fun {u f} here => ?_
    rw [State.top, becomes u] at here
    split at here
    · next same => exact same ▸ top f here
    · exact .inl here

/-- There is a task more, whose entry is there for it. -/
theorem of_new {new : Task V}
    (tasks : ∀ u, st'.tasks.get? u = if u = st.tasks.next then some new else st.tasks.get? u)
    (frames : st'.frames = st.frames)
    (top : ∀ f, new.top = some f → st.Known f ∧ home f = st.tasks.next) : Respects home kept st st' where
  task {u task} found :=
    ⟨task, (tasks u).trans ((if_neg (Table.ne_next_of_get? found)).trans found), fun _ => rfl, id⟩
  frame found := ⟨_, frames ▸ found, fun _ => rfl⟩
  housed housed := by
    refine housed.of_frames frames fun {u f} here => ?_
    rw [State.top, tasks u] at here
    split at here
    · next same => exact .inr (same ▸ top f here)
    · exact .inl here

/-- A frame of a task that need not be spared changed. -/
theorem modifyFrame {change : Frame V (Body V C) → Frame V (Body V C)} (free : ¬ kept (home f))
    (caller : ∀ frame g, st.frames.get? f = some frame → (change frame).caller = some g →
      st.caller f = some g ∨ st.Known g ∧ home g = home f)
    (awaited : ∀ body, (st.modifyFrame f change).awaited? f = some body →
      st.awaited? f = some body ∨ st.Known body ∧ home body = home f) :
    Respects home kept st (st.modifyFrame f change) := by
  have knows {g : FrameId} {frame : Frame V (Body V C)} (found : st.frames.get? g = some frame) :
      ∃ frame', (st.modifyFrame f change).frames.get? g = some frame' ∧ (kept (home g) → frame' = frame) := by
    rw [get?_modifyFrame]
    split
    · next same => exact ⟨_, by rw [← same, found]; rfl, fun keeps => absurd (same ▸ keeps) free⟩
    · exact ⟨_, found, fun _ => rfl⟩
  have known {g : FrameId} (known : st.Known g) : (st.modifyFrame f change).Known g :=
    known.mono fun found => (knows found).imp fun _ => And.left
  refine ⟨fun found => ⟨_, found, fun _ => rfl, id⟩, knows, fun housed => ?_⟩
  constructor
  · exact fun top => (housed.top top).imp_left known
  · intro g k link
    have from' : st.caller g = some k ∨ st.Known k ∧ home k = home g := by
      rw [State.caller, get?_modifyFrame] at link
      split at link
      · next same =>
        obtain ⟨frame, found, here⟩ := Option.bind_eq_some_iff.1 link
        obtain ⟨frame₀, found₀, rfl⟩ := Option.map_eq_some_iff.1 found
        exact same ▸ caller frame₀ k found₀ here
      · exact .inl link
    exact (from'.elim housed.caller id).imp_left known
  · intro g body waits
    have from' : st.awaited? g = some body ∨ st.Known body ∧ home body = home g := by
      by_cases same : g = f
      · exact same ▸ awaited body (same ▸ waits)
      · refine .inl ?_
        rwa [awaited?_of_code? (show (st.modifyFrame f change).code? g = st.code? g by
          rw [code?, get?_modifyFrame, if_neg same, code?])] at waits
    exact (from'.elim housed.awaited id).imp_left known

/-- A frame that has not been called gets on no chain by being created. -/
theorem addFrame {frame : Frame V (Body V C)} (rootless : frame.caller = none)
    (awaited : ∀ body, (st.addFrame frame).2.awaited? st.frames.next = some body →
      st.Known body ∧ home body = home st.frames.next) : Respects home kept st (st.addFrame frame).2 := by
  have knows {g : FrameId} {other : Frame V (Body V C)} (found : st.frames.get? g = some other) :
      (st.addFrame frame).2.frames.get? g = some other := by
    rw [State.addFrame, Table.get?_add_eq, if_neg (Table.ne_next_of_get? found), found]
  have known {g : FrameId} (known : st.Known g) : (st.addFrame frame).2.Known g :=
    known.mono fun found => ⟨_, knows found⟩
  refine ⟨fun found => ⟨_, found, fun _ => rfl, id⟩, fun found => ⟨_, knows found, fun _ => rfl⟩, fun housed => ?_⟩
  constructor
  · exact fun top => (housed.top top).imp_left known
  · intro g k link
    rw [State.caller, State.addFrame, Table.get?_add_eq] at link
    split at link
    · simp [rootless] at link
    · exact (housed.caller link).imp_left known
  · intro g body waits
    by_cases same : g = st.frames.next
    · subst same
      exact (awaited body waits).imp_left known
    · rw [awaited?_of_code? (show (st.addFrame frame).2.code? g = st.code? g by
        rw [code?, State.addFrame, Table.get?_add_eq, if_neg same, code?])] at waits
      exact (housed.awaited waits).imp_left known

end Respects

end State

end Tasking
