import Tasking.Proofs.Accounts
import Tasking.Proofs.Dealing
import Tasking.Proofs.Doings

/-! # Which tasks a step touches

A step of a thread is about one task at most: the one that a request names, or the one whose run the
thread is in.  Other tasks are touched only if they are next in line for a resource, if they are taken up
to be run, or if they joined a task that ends.

`State.Touches` says what holds of all tasks that are not touched: their stage, their pending wakes, the
tops of their chains and the errors they will get are what they were, and they got in no line.  No task
ends meanwhile, and joiners are added at the end only.  The end of a task is dealt with on its own
(`State.Ends`): it wakes the joiners one by one, in the order in which they joined.
-/

namespace Tasking

variable {V C : Type}

/-- Where a task stands: its stage, whether a wake is pending, the top of its chain, and the error that the
top will get. -/
def Task.stance (task : Task V) : Life × Bool × Option FrameId × Option (Error V) :=
  (task.life, task.notified, task.top, task.error)

/-- The task that a request is about, if it is about one.  Announcing an external wait and taking a free
resource leave the task where it stands. -/
def Request.subject? : Request V C → Option TaskId
  | .start t | .ready t | .yield t | .pause t _ | .move t _ | .waitFor t _ | .acquire _ t => some t
  | _ => none

/-- How a task ended, and who waits for that. -/
def Task.tidings (task : Task V) : Option (Outcome V) × List TaskId :=
  (task.outcome, task.joiners.toList)

/-- All that others than its own run know of a task. -/
def Task.bearing (task : Task V) :
    (Life × Bool × Option FrameId × Option (Error V)) × Option (Outcome V) × List TaskId :=
  (task.stance, task.tidings)

namespace State

variable {st st' st'' : State V C} {touched touched' : TaskId → Prop} {t u : TaskId} {task task' : Task V}

def stance (st : State V C) (t : TaskId) : Option (Life × Bool × Option FrameId × Option (Error V)) :=
  (st.tasks.get? t).map Task.stance

/-- How a task ended, if it did. -/
def outcome (st : State V C) (t : TaskId) : Option (Outcome V) := (st.tasks.get? t).bind Task.outcome

/-- Nothing happened to tasks that are not touched. -/
structure Touches (touched : TaskId → Prop) (st st' : State V C) : Prop where
  known : ∀ {u}, (st.tasks.get? u).isSome = true → (st'.tasks.get? u).isSome = true
  stance : ∀ {u}, (st.tasks.get? u).isSome = true → ¬ touched u → st'.stance u = st.stance u
  outcome : ∀ u, st'.outcome u = st.outcome u
  joiners : ∀ u, ∃ more, st'.joiners u = st.joiners u ++ more ∧ (∀ v ∈ more, touched v) ∧
    (st.outcome u ≠ none → more = [])
  ended : ∀ {u life}, st.life u = some life → life.isTerminal = true → st'.life u = some life
  waiters : ∀ {r u}, u ∈ st'.waiters r → u ∈ st.waiters r ∨ touched u
  joined : ∀ {f child}, st.code? f = some (.join child true) → st'.code? f = some (.join child true)

theorem outcome_of_get? (found : st.tasks.get? t = some task) : st.outcome t = task.outcome := by
  simp [outcome, found]

theorem stance_of_get? (found : st.tasks.get? t = some task) : st.stance t = some task.stance := by
  simp [stance, found]

theorem life_of_get? (found : st.tasks.get? t = some task) : st.life t = some task.life := by
  simp [life, found]

theorem life_of_stance {life : Life} {notified : Bool} {top : Option FrameId} {error : Option (Error V)}
    (stands : st.stance t = some (life, notified, top, error)) : st.life t = some life := by
  obtain ⟨task, found, same⟩ := Option.map_eq_some_iff.1 stands
  exact (life_of_get? found).trans (congrArg some (congrArg Prod.fst same))

theorem waiters_of_resources (same : st'.resources = st.resources) (r : ResourceId) :
    st'.waiters r = st.waiters r := by
  rw [State.waiters, same, State.waiters]

theorem code?_of_frames (same : st'.frames = st.frames) (f : FrameId) : st'.code? f = st.code? f := by
  rw [code?, same, code?]

theorem outcome_of_bearing (same : (st'.tasks.get? u).map Task.bearing = (st.tasks.get? u).map Task.bearing) :
    st'.outcome u = st.outcome u := by
  have ends := congrArg (Option.bind · fun bears => bears.2.1) same
  rw [Option.bind_map, Option.bind_map] at ends
  exact ends

theorem joiners_of_bearing (same : (st'.tasks.get? u).map Task.bearing = (st.tasks.get? u).map Task.bearing) :
    st'.joiners u = st.joiners u := by
  have waiting := congrArg (Option.elim · [] fun bears => bears.2.2) same
  rw [Option.elim_map, Option.elim_map] at waiting
  exact waiting

theorem stance_of_bearing (same : (st'.tasks.get? u).map Task.bearing = (st.tasks.get? u).map Task.bearing) :
    st'.stance u = st.stance u := by
  have stands := congrArg (Option.map Prod.fst) same
  rw [Option.map_map, Option.map_map] at stands
  exact stands

theorem joiners_of_becomes (found : st.tasks.get? t = some task) (becomes : Becomes st t task' st')
    (tidings : task'.tidings = task.tidings) : st'.joiners u = st.joiners u := by
  rw [State.joiners, becomes, State.joiners]
  split
  · next same =>
    rw [same, found]
    exact congrArg Prod.snd tidings
  · rfl

namespace Touches

@[refl] theorem refl (st : State V C) : Touches touched st st where
  known := id
  stance _ _ := rfl
  outcome _ := rfl
  joiners _ := ⟨[], (List.append_nil _).symm, by simp, fun _ => rfl⟩
  ended live _ := live
  waiters := .inl
  joined := id

theorem mono (touches : Touches touched st st') (more : ∀ u, touched u → touched' u) :
    Touches touched' st st' where
  known := touches.known
  stance known spared := touches.stance known fun hit => spared (more _ hit)
  outcome := touches.outcome
  joiners u := by
    obtain ⟨added, same, hit, closed⟩ := touches.joiners u
    exact ⟨added, same, fun v member => more v (hit v member), closed⟩
  ended := touches.ended
  waiters member := (touches.waiters member).imp_right (more _)
  joined := touches.joined

theorem trans (first : Touches touched st st') (second : Touches touched st' st'') :
    Touches touched st st'' where
  known known := second.known (first.known known)
  stance known spared := (second.stance (first.known known) spared).trans (first.stance known spared)
  outcome u := (second.outcome u).trans (first.outcome u)
  joiners u := by
    obtain ⟨more, same, hit, closed⟩ := first.joiners u
    obtain ⟨more', same', hit', closed'⟩ := second.joiners u
    refine ⟨more ++ more', by rw [same', same, List.append_assoc], fun v member => ?_, fun ends => ?_⟩
    · exact (List.mem_append.1 member).elim (hit v) (hit' v)
    · rw [closed ends, closed' (by rwa [first.outcome]), List.append_nil]
  ended live terminal := second.ended (first.ended live terminal) terminal
  waiters member := (second.waiters member).elim first.waiters .inr
  joined code := second.joined (first.joined code)

/-- Only one task changed, which keeps its outcome and its joiners. -/
theorem of_becomes (found : st.tasks.get? t = some task) (becomes : Becomes st t task' st')
    (tidings : task'.tidings = task.tidings)
    (ended : task.life.isTerminal = true → task'.life = task.life)
    (resources : st'.resources = st.resources) (frames : st'.frames = st.frames) :
    Touches (· = t) st st' where
  known {u} known := by
    rw [becomes]
    split
    · rfl
    · exact known
  stance {u} _ other := by
    rw [State.stance, becomes, if_neg other, State.stance]
  outcome u := by
    rw [State.outcome, becomes, State.outcome]
    split
    · next same =>
      rw [same, found]
      exact congrArg Prod.fst tidings
    · rfl
  joiners u := by
    refine ⟨[], ?_, by simp, fun _ => rfl⟩
    rw [joiners_of_becomes found becomes tidings, List.append_nil]
  ended {u life} live terminal := by
    rw [State.life, becomes]
    split
    · next same =>
      rw [same, life_of_get? found] at live
      obtain rfl := Option.some.inj live
      exact congrArg some (ended terminal)
    · exact live
  waiters member := .inl (waiters_of_resources resources _ ▸ member)
  joined code := (code?_of_frames frames _).trans code

/-- No task changed, as far as anybody is concerned. -/
theorem of_same (same : ∀ u, (st'.tasks.get? u).map Task.bearing =
      (st.tasks.get? u).map Task.bearing)
    (waiters : ∀ {r u}, u ∈ st'.waiters r → u ∈ st.waiters r ∨ touched u)
    (joined : ∀ {f child}, st.code? f = some (.join child true) → st'.code? f = some (.join child true)) :
    Touches touched st st' := by
  refine ⟨fun {u} known => ?_, fun {u} _ _ => stance_of_bearing (same u), fun u => outcome_of_bearing (same u),
    fun u => ⟨[], ?_, by simp, fun _ => rfl⟩, fun {u life} live _ => ?_, waiters, joined⟩
  · have present := congrArg Option.isSome (same u)
    rwa [Option.isSome_map, Option.isSome_map, known] at present
  · rw [joiners_of_bearing (same u), List.append_nil]
  · have stands := congrArg (Option.map Prod.fst) (stance_of_bearing (same u))
    rw [State.stance, State.stance, Option.map_map, Option.map_map] at stands
    exact stands.trans live

theorem of_tables (tasks : st'.tasks = st.tasks) (resources : st'.resources = st.resources)
    (frames : st'.frames = st.frames) : Touches touched st st' :=
  .of_same (fun _ => by rw [tasks]) (fun member => .inl (waiters_of_resources resources _ ▸ member))
    fun code => (code?_of_frames frames _).trans code

/-- A task changed in a way that concerns nobody. -/
theorem modifyTask (st : State V C) (t : TaskId) {f : Task V → Task V}
    (same : ∀ task, (f task).bearing = task.bearing) :
    Touches touched st (st.modifyTask t f) := by
  refine .of_same (fun u => ?_) .inl id
  rw [get?_modifyTask]
  split
  · next here =>
    rw [here, Option.map_map]
    exact congrArg (Option.map · _) (funext same)
  · rfl

theorem modifyFrame (st : State V C) (f : FrameId) {change : Frame V (Body V C) → Frame V (Body V C)}
    (keeps : ∀ frame, (change frame).code = frame.code) : Touches touched st (st.modifyFrame f change) := by
  refine .of_same (fun _ => rfl) .inl fun {g child} code => ?_
  rw [code?, get?_modifyFrame]
  split
  · next here =>
    rw [here] at code
    rw [Option.map_map, ← code]
    exact congrArg (Option.map · _) (funext keeps)
  · exact code

/-- A frame that is no join that waits got another code. -/
theorem setCode (st : State V C) (f : FrameId) (code : Frame.Code V (Body V C))
    (other : ∀ child, st.code? f ≠ some (.join child true)) : Touches touched st (st.setCode f code) := by
  refine .of_same (fun _ => rfl) .inl fun {g child} joins => ?_
  have apart : g ≠ f := by
    rintro rfl
    exact other child joins
  rw [code?, State.setCode, get?_modifyFrame, if_neg apart]
  exact joins

theorem addFrame (st : State V C) (frame : Frame V (Body V C)) :
    Touches touched st (st.addFrame frame).2 := by
  refine .of_same (fun _ => rfl) .inl fun {g child} joins => ?_
  obtain ⟨old, found, _⟩ := Option.map_eq_some_iff.1 joins
  rw [code?, State.addFrame, Table.get?_add_eq, if_neg (Table.ne_next_of_get? found)]
  exact joins

/-- There is a task more. -/
theorem of_new {new : Task V}
    (tasks : ∀ u, st'.tasks.get? u = if u = st.tasks.next then some new else st.tasks.get? u)
    (tidings : new.tidings = (none, [])) (resources : st'.resources = st.resources)
    (frames : st'.frames = st.frames) : Touches touched st st' := by
  have old : ∀ {u}, (st.tasks.get? u).isSome = true → st'.tasks.get? u = st.tasks.get? u := by
    intro u known
    obtain ⟨task, found⟩ := Option.isSome_iff_exists.1 known
    rw [tasks, if_neg (Table.ne_next_of_get? found)]
  refine ⟨fun known => by rwa [old known], fun known _ => by rw [State.stance, old known, State.stance],
    fun u => ?_, fun u => ⟨[], ?_, by simp, fun _ => rfl⟩, fun {u life} live _ => ?_,
    fun member => .inl (waiters_of_resources resources _ ▸ member),
    fun code => (code?_of_frames frames _).trans code⟩
  · rw [State.outcome, tasks, State.outcome]
    split
    · next fresh =>
      rw [fresh, Table.get?_next]
      exact congrArg Prod.fst tidings
    · rfl
  · rw [State.joiners, tasks, State.joiners, List.append_nil]
    split
    · next fresh =>
      rw [fresh, Table.get?_next]
      exact congrArg Prod.snd tidings
    · rfl
  · obtain ⟨task, found, _⟩ := Option.map_eq_some_iff.1 live
    rw [State.life, old (by simp [found])]
    exact live

end Touches

/-! ## Operations -/

theorem tidings_woken (task : Task V) : task.woken.tidings = task.tidings := by
  unfold Task.woken
  split <;> rfl

theorem touches_ready (found : st.tasks.get? t = some task) (done : st.ready t = .ok st') :
    Touches (· = t) st st' := by
  refine .of_becomes found (becomes_ready found done) (tidings_woken task) (fun terminal => ?_)
    (Quiet.ready done).resources (Quiet.ready done).frames
  rcases ready_ok found done with ⟨live, _⟩ | ⟨live, _⟩ <;> simp [live, Life.isTerminal] at terminal

theorem touches_start (found : st.tasks.get? t = some task) (done : st.start t = .ok st') :
    Touches (· = t) st st' := by
  refine .of_becomes found (becomes_start found done) rfl (fun terminal => ?_)
    (Quiet.start done).resources (Quiet.start done).frames
  simp [(start_ok found done).1, Life.isTerminal] at terminal

theorem touches_park (found : st.tasks.get? t = some task) (done : st.park t = .ok st') :
    Touches (· = t) st st' := by
  refine .of_becomes found (becomes_park found done) ?_ (fun terminal => ?_)
    (Stops.park done).1.resources (Stops.park done).1.frames
  · unfold Task.parked
    split <;> rfl
  · simp [(park_ok found done).1, Life.isTerminal] at terminal

theorem touches_beginRun {w : Worker} (found : st.tasks.get? t = some task)
    (done : st.beginRun t w = .ok st') : Touches (· = t) st st' := by
  refine .of_becomes found (becomes_beginRun found done) rfl (fun terminal => ?_)
    (Quiet.beginRun done).1.resources (Quiet.beginRun done).1.frames
  simp [(beginRun_ok found done).1, Life.isTerminal] at terminal

theorem touches_setOwner (st : State V C) (r : ResourceId) (owner : Option TaskId) :
    Touches touched st (st.setOwner r owner) :=
  .of_same (fun _ => rfl) (fun member => .inl (by rwa [waiters_setOwner] at member)) id

theorem touches_acquire {r : ResourceId} {granted : Except Deadlock Grant}
    (done : st.acquire r t = .ok (granted, st')) : Touches (· = t) st st' := by
  obtain ⟨known, _, ⟨_, _, rfl⟩ | ⟨_, ⟨_, _, _, rfl⟩ | ⟨_, _, _, rfl⟩⟩⟩ := acquire_ok done
  · exact touches_setOwner st r _
  · rfl
  · have announced : Touches (· = t) st (st.announceWait t (.resource r)) := by
      refine .modifyTask st t ?_
      exact fun _ => rfl
    have linked : Touches (· = t) (st.announceWait t (.resource r))
        ((st.announceWait t (.resource r)).modifyTask t fun task => { task with linked := true }) := by
      refine .modifyTask _ t ?_
      exact fun _ => rfl
    refine (announced.trans linked).trans (.of_same (fun _ => rfl) (fun {q u} member => ?_) id)
    have waits : u ∈ ((st.announceWait t (.resource r)).inLine t r).waiters q := member
    rw [waiters_inLine (show ((st.announceWait t (.resource r)).resources.get? r).isSome = true from known)] at waits
    split at waits
    · next here =>
      subst here
      exact (List.mem_append.1 waits).imp_right List.mem_singleton.1
    · exact .inl waits

/-- Whoever is next in line is touched. -/
theorem touches_release {r : ResourceId} (done : st.release r t = .ok st') :
    Touches (fun u => ∃ q, u ∈ st.waiters q) st st' := by
  obtain ⟨known, _, ⟨_, rfl⟩ | ⟨next, rest, line, woken⟩⟩ := release_ok done
  · exact touches_setOwner st r none
  · have moved : Touches (fun u => ∃ q, u ∈ st.waiters q) st
        (st.modifyResource r fun resource => { resource with owner := some next, waiters := rest }) := by
      refine .of_same (fun _ => rfl) (fun {q u} member => .inl ?_) id
      have waits : u ∈ (st.handed next r rest).waiters q := member
      rw [waiters_handed known] at waits
      split at waits
      · next here => exact here ▸ line ▸ List.mem_cons_of_mem next waits
      · exact waits
    have handed : Touches (fun u => ∃ q, u ∈ st.waiters q) st (st.handed next r rest) := by
      refine moved.trans (.modifyTask _ next ?_)
      exact fun _ => rfl
    obtain ⟨task, found⟩ := exists_of_task woken
    refine handed.trans ((touches_ready found woken).mono ?_)
    rintro u rfl
    exact ⟨r, line ▸ List.mem_cons_self⟩

/-- A task is entered among the joiners of another one. -/
theorem touches_push {child : TaskId} (found : st.tasks.get? child = some task)
    (unfinished : task.outcome = none) : Touches (· = t) st
      (st.modifyTask child fun task => { task with joiners := task.joiners.push t }) := by
  have becomes := becomes_modifyTask found fun task => { task with joiners := task.joiners.push t }
  constructor
  · intro u known
    rw [becomes]
    split
    · rfl
    · exact known
  · intro u _ _
    rw [State.stance, becomes, State.stance]
    split
    · next here => rw [here, found]; rfl
    · rfl
  · intro u
    rw [State.outcome, becomes, State.outcome]
    split
    · next here => rw [here, found]; rfl
    · rfl
  · intro u
    rw [State.joiners, becomes, State.joiners]
    split
    · next here =>
      refine ⟨[t], ?_, by simp, fun ends => absurd ?_ ends⟩
      · rw [here, found]
        exact Line.toList_push _ t
      · rw [here, outcome_of_get? found, unfinished]
    · exact ⟨[], (List.append_nil _).symm, by simp, fun _ => rfl⟩
  · intro u life live _
    exact (life_modifyTask_keep (f := fun task => { task with joiners := task.joiners.push t })
      (fun _ => rfl) u).trans live
  · exact .inl
  · exact id

theorem touches_waitFor {child : TaskId} {reply : Except Deadlock (Option (Outcome V))}
    (done : st.waitFor t child = .ok (reply, st')) : Touches (· = t) st st' := by
  obtain ⟨awaited, found, ⟨_, _, rfl⟩ | ⟨unfinished, ⟨_, _, _, rfl⟩ | ⟨_, _, rfl⟩⟩⟩ := waitFor_ok done
  · rfl
  · rfl
  · have announced : Touches (· = t) st (st.announceWait t (.task child)) := by
      refine .modifyTask st t ?_
      exact fun _ => rfl
    refine announced.trans ?_
    by_cases same : child = t
    · have self : (st.announceWait t (.task child)).tasks.get? child =
          some { awaited with waiting := some (.task child) } := by
        rw [announceWait, get?_modifyTask, if_pos same, ← same, found]
        rfl
      exact touches_push self unfinished
    · have other : (st.announceWait t (.task child)).tasks.get? child = some awaited := by
        rw [announceWait, get?_modifyTask, if_neg same, found]
      exact touches_push other unfinished

theorem touches_move {target : Life} {reply : Except IllegalMove Life}
    (done : st.move t target = .ok (reply, st')) : Touches (· = t) st st' := by
  simp only [State.move, bind_ok, task_ok] at done
  obtain ⟨task, found, done⟩ := done
  split at done
  · next may =>
    simp only [pure_ok, Prod.mk.injEq] at done
    refine done.2 ▸ .of_becomes found (becomes_modifyTask found _) rfl (fun terminal => ?_) rfl rfl
    simp [Life.canMove_of_isTerminal terminal] at may
  · simp only [pure_ok, Prod.mk.injEq] at done
    exact done.2 ▸ .refl st

theorem touches_dropLinks (st : State V C) (ts : List TaskId) : Touches touched st (st.dropLinks ts) := by
  induction ts generalizing st with
  | nil => exact .refl st
  | cons t ts inductionHypothesis =>
    have dropped : Touches touched st (st.dropLink t) := by
      refine .modifyTask st t ?_
      exact fun _ => rfl
    exact dropped.trans (inductionHypothesis _)

section

variable [Inhabited V]

theorem touches_addTask (st : State V C) (s : SchedulerId) (entry : FrameId) (bound : Option Nat) :
    Touches touched st (st.addTask s entry bound).2 :=
  .of_new (fun u => st.tasks.get?_add_eq _ u) rfl rfl rfl

omit [Inhabited V] in
theorem touches_enlist (st : State V C) (s : SchedulerId) (t : TaskId) :
    Touches touched st (st.enlist s t) := by
  have listed : Touches touched st (st.modifyTask t fun task => { task with listed := true }) := by
    refine .modifyTask st t ?_
    exact fun _ => rfl
  exact listed.trans (.of_tables rfl rfl rfl)

theorem touches_spawn {s : SchedulerId} {entry : FrameId} {reply : Except HostError TaskId}
    (done : st.spawn s entry = .ok (reply, st')) : Touches touched st st' := by
  simp only [State.spawn, bind_ok] at done
  obtain ⟨scheduler, _, done⟩ := done
  split at done
  · simp only [pure_ok, Prod.mk.injEq] at done
    exact done.2 ▸ .refl st
  · simp only [pure_ok, Prod.mk.injEq] at done
    exact done.2 ▸ (touches_addTask st s entry none).trans (touches_enlist _ s _)

/-- A task with a thread of its own is started at once. -/
theorem touches_spawnBound {s : SchedulerId} {entry : FrameId} {reply : Except HostError TaskId}
    (done : st.spawnBound s entry = .ok (reply, st')) : Touches (fun u => st.tasks.get? u = none) st st' := by
  simp only [State.spawnBound, bind_ok] at done
  obtain ⟨scheduler, _, done⟩ := done
  split at done
  · simp only [pure_ok, Prod.mk.injEq] at done
    exact done.2 ▸ .refl st
  · have numbered : Touches (fun u => st.tasks.get? u = none) st
        (st.modifyScheduler s fun other => { other with nextThread := scheduler.nextThread + 1 }) :=
      .of_tables rfl rfl rfl
    split at done
    · simp only [pure_ok, Prod.mk.injEq] at done
      exact done.2 ▸ numbered.trans (touches_addTask _ s entry (some scheduler.nextThread))
    · simp at done
    · simp only [bind_ok, pure_ok, Prod.mk.injEq] at done
      obtain ⟨st₁, begun, _, rfl⟩ := done
      have noted : Touches (fun u => st.tasks.get? u = none) st
          ((st.modifyScheduler s fun other => { other with nextThread := scheduler.nextThread + 1 }).modifyScheduler s
            fun other => { other with bound := other.bound ++ [st.tasks.next] }) :=
        numbered.trans (.of_tables rfl rfl rfl)
      have added := noted.trans (touches_addTask _ s entry (some scheduler.nextThread))
      obtain ⟨task, found⟩ := exists_of_task begun
      refine (added.trans (touches_enlist _ s st.tasks.next)).trans ((touches_start found begun).mono ?_)
      rintro u rfl
      exact st.tasks.get?_next

theorem touches_serve {request : Request V C} {reply : request.Reply}
    (done : st.serve request = .ok (reply, st')) :
    Touches (fun u => request.subject? = some u ∨ (∃ r, u ∈ st.waiters r) ∨ st.tasks.get? u = none)
      st st' := by
  have subject {t : TaskId} (same : request.subject? = some t) (touches : Touches (· = t) st st') :
      Touches (fun u => request.subject? = some u ∨ (∃ r, u ∈ st.waiters r) ∨ st.tasks.get? u = none)
        st st' :=
    touches.mono fun u here => .inl (here ▸ same)
  cases request with
  | spawn s entry => exact touches_spawn done
  | spawnBound s entry => exact (touches_spawnBound done).mono fun _ fresh => .inr (.inr fresh)
  | start t =>
    simp only [serve, bind_ok, pure_ok, Prod.mk.injEq] at done
    obtain ⟨_, started, _, rfl⟩ := done
    obtain ⟨task, found⟩ := exists_of_task started
    exact subject rfl (touches_start found started)
  | ready t =>
    simp only [serve, bind_ok, pure_ok, Prod.mk.injEq] at done
    obtain ⟨_, woken, _, rfl⟩ := done
    obtain ⟨task, found⟩ := exists_of_task woken
    exact subject rfl (touches_ready found woken)
  | yield t =>
    simp only [serve, State.yield, bind_ok, task_ok, check_ok, pure_ok, Prod.mk.injEq] at done
    obtain ⟨_, ⟨task, found, live, rfl⟩, _, rfl⟩ := done
    exact subject rfl (.of_becomes found (becomes_modifyTask found _) rfl (fun _ => rfl) rfl rfl)
  | waitExternal t =>
    simp only [serve, bind_ok, pure_ok, Prod.mk.injEq] at done
    obtain ⟨_, announced, _, rfl⟩ := done
    obtain ⟨task, found⟩ := exists_of_task announced
    have quiet := Quiet.waitExternal announced
    refine .of_same (fun u => ?_) (fun member => .inl (waiters_of_resources quiet.resources _ ▸ member))
      fun code => (code?_of_frames quiet.frames _).trans code
    rw [becomes_waitExternal found announced u]
    split
    · next here => rw [here, found]; rfl
    · rfl
  | pause t f =>
    simp only [serve, bind_ok, pure_ok, Prod.mk.injEq] at done
    obtain ⟨_, paused, _, rfl⟩ := done
    obtain ⟨known, rfl⟩ := pause_ok paused
    obtain ⟨task, found⟩ := Option.isSome_iff_exists.1 known
    exact subject rfl (.of_becomes found (becomes_modifyTask found _) rfl (fun _ => rfl) rfl rfl)
  | move t target => exact subject rfl (touches_move done)
  | waitFor t child => exact subject rfl (touches_waitFor done)
  | tryAcquire r t =>
    obtain ⟨_, _, ⟨_, _, rfl⟩ | ⟨_, _, rfl⟩⟩ := tryAcquire_ok done
    · exact touches_setOwner st r _
    · exact .refl _
  | acquire r t => exact subject rfl (touches_acquire done)
  | release r t =>
    simp only [serve, bind_ok, pure_ok, Prod.mk.injEq] at done
    obtain ⟨_, released, _, rfl⟩ := done
    exact (touches_release released).mono fun _ waits => .inr (.inl waits)
  | newScheduler settings g =>
    obtain rfl | ⟨workers, rfl⟩ := addScheduler_ok done
    · exact .refl _
    · exact .of_tables rfl rfl rfl
  | stop s =>
    simp only [serve, State.stop, bind_ok, pure_ok, Prod.mk.injEq] at done
    obtain ⟨_, ⟨scheduler, _, rfl⟩, _, rfl⟩ := done
    refine .trans ?_ (touches_dropLinks _ _)
    exact .of_tables rfl rfl rfl
  | newGuard r body =>
    obtain rfl : _ = st' := congrArg Prod.snd (pure_ok.1 done)
    exact .addFrame st _
  | newJoin child =>
    obtain rfl : _ = st' := congrArg Prod.snd (pure_ok.1 done)
    exact .addFrame st _
  | newMessage a message =>
    simp only [serve, addMessage, bind_ok, pure_ok] at done
    obtain ⟨_, _, _, _, same⟩ := done
    obtain rfl : _ = st' := congrArg Prod.snd same
    exact (Touches.addFrame st _).trans (.addFrame _ _)
  | attach f caller =>
    simp only [serve, bind_ok, pure_ok, Prod.mk.injEq] at done
    obtain ⟨_, attached, _, rfl⟩ := done
    obtain ⟨_, _, rfl⟩ := attach_ok attached
    exact .modifyFrame st f fun _ => rfl
  | newResource name =>
    obtain rfl : _ = st' := congrArg Prod.snd (pure_ok.1 done)
    exact .of_same (fun _ => rfl) (fun member => .inl (waiters_addResource name _ ▸ member)) id
  | intern g name =>
    simp only [serve, State.intern, bind_ok] at done
    obtain ⟨registry, _, done⟩ := done
    split at done
    · simp only [pure_ok, Prod.mk.injEq] at done
      exact done.2 ▸ .of_tables rfl rfl rfl
    · simp only [pure_ok, Prod.mk.injEq] at done
      exact done.2 ▸ .refl st
  | newExclusive | setPayload | newRegistry | closeRegistry | newCell | write | update | findCycle | thread =>
    obtain rfl : _ = st' := congrArg Prod.snd (pure_ok.1 done)
    exact .of_tables rfl rfl rfl
  | task | frame | resource | exclusive | actorState | lookup | nameOf | findNative | registry | scheduler
    | stats | read =>
    simp only [serve, bind_ok, pure_ok, Prod.mk.injEq] at done
    obtain ⟨_, _, _, rfl⟩ := done
    exact .refl _

end

/-! ## Resuming frames -/

theorem touches_callFrame {f callee : FrameId} {value : V} {answer : Answer V}
    (done : st.callFrame t f callee value = .ok (answer, st')) : Touches (· = t) st st' := by
  simp only [State.callFrame, bind_ok, pure_ok, Prod.mk.injEq] at done
  obtain ⟨st₁, attached, st₂, paused, _, rfl⟩ := done
  obtain ⟨_, _, rfl⟩ := attach_ok attached
  obtain ⟨known, rfl⟩ := pause_ok paused
  obtain ⟨task, found⟩ := Option.isSome_iff_exists.1 known
  have attached : Touches (· = t) st (st.modifyFrame callee fun frame => { frame with caller := some f }) :=
    .modifyFrame st callee fun _ => rfl
  exact attached.trans (.of_becomes found (becomes_modifyTask found _) rfl (fun _ => rfl) rfl rfl)

theorem code?_setCode {f : FrameId} (known : (st.frames.get? f).isSome = true)
    (code : Frame.Code V (Body V C)) : (st.setCode f code).code? f = some code := by
  obtain ⟨frame, found⟩ := Option.isSome_iff_exists.1 known
  rw [code?, State.setCode, get?_modifyFrame, if_pos rfl, found]
  rfl

theorem frames_acquire {r : ResourceId} {granted : Except Deadlock Grant}
    (done : st.acquire r t = .ok (granted, st')) : st'.frames = st.frames := by
  obtain ⟨_, _, ⟨_, _, rfl⟩ | ⟨_, ⟨_, _, _, rfl⟩ | ⟨_, _, _, rfl⟩⟩⟩ := acquire_ok done <;> rfl

theorem touches_resumeGuard {f : FrameId} {r : ResourceId} {phase : Phase V} {value : V}
    {error : Option (Error V)} {answer : Answer V} (code : st.code? f = some (.guard r phase))
    (done : st.resumeGuard t f r phase value error = .ok (answer, st')) :
    Touches (fun u => u = t ∨ ∃ q, u ∈ st.waiters q) st st' := by
  have known : (st.frames.get? f).isSome = true := by
    obtain ⟨frame, found, _⟩ := Option.map_eq_some_iff.1 code
    simp [found]
  -- A guard gets no code but that of a guard, so it is no join at any time.
  have recode {st₁ : State V C} {phase' : Phase V} (same : st₁.frames = (st.setCode f (.guard r .released)).frames) :
      Touches (· = t) st₁ (st₁.setCode f (.guard r phase')) :=
    .setCode _ f _ fun child joins => by
      rw [code?_of_frames same, code?_setCode known] at joins
      simp at joins
  have released : Touches (· = t) st (st.setCode f (.guard r .released)) :=
    .setCode st f _ fun child joins => by simp [code] at joins
  have own {st₁ : State V C} (touches : Touches (· = t) st st₁) :
      Touches (fun u => u = t ∨ ∃ q, u ∈ st.waiters q) st st₁ := touches.mono fun _ => .inl
  cases phase with
  | start body =>
    simp only [State.resumeGuard] at done
    split at done
    · simp only [pure_ok, Prod.mk.injEq] at done
      exact done.2 ▸ own released
    · simp only [bind_ok] at done
      obtain ⟨⟨granted, st₁⟩, acquired, done⟩ := done
      have asked := released.trans (touches_acquire acquired)
      have frames : st₁.frames = (st.setCode f (.guard r .released)).frames := frames_acquire acquired
      dsimp only at done
      split at done
      · exact own ((asked.trans (recode frames)).trans (touches_callFrame done))
      · simp only [pure_ok, Prod.mk.injEq] at done
        exact done.2 ▸ own (asked.trans (recode frames))
      · simp only [pure_ok, Prod.mk.injEq] at done
        exact done.2 ▸ own asked
  | waiting body kept =>
    simp only [State.resumeGuard, check_ok] at done
    obtain ⟨_, _, done⟩ := done
    exact own ((released.trans (recode rfl)).trans (touches_callFrame done))
  | held =>
    simp only [State.resumeGuard, bind_ok, pure_ok, Prod.mk.injEq] at done
    obtain ⟨st₁, gives, _, rfl⟩ := done
    exact (own released).trans ((touches_release gives).mono fun u waits => .inr waits)
  | released => simp [State.resumeGuard] at done

theorem touches_resumeJoin {f : FrameId} {child : TaskId} {parked : Bool} {error : Option (Error V)}
    {answer : Answer V} (code : st.code? f = some (.join child parked))
    (done : st.resumeJoin t f child parked error = .ok (answer, st')) : Touches (· = t) st st' := by
  unfold State.resumeJoin at done
  split at done
  · simp only [pure_ok, Prod.mk.injEq] at done
    exact done.2 ▸ .refl st
  · split at done
    · simp only [bind_ok] at done
      obtain ⟨awaited, _, done⟩ := done
      split at done
      · simp only [pure_ok, Prod.mk.injEq] at done
        exact done.2 ▸ .refl st
      · simp at done
    · next first =>
      simp only [bind_ok] at done
      obtain ⟨⟨reply, st₁⟩, waited, done⟩ := done
      have asked := touches_waitFor waited
      split at done
      · simp only [pure_ok, Prod.mk.injEq] at done
        exact done.2 ▸ asked
      · simp only [pure_ok, Prod.mk.injEq] at done
        refine done.2 ▸ asked.trans (.setCode st₁ f _ fun other joins => ?_)
        rw [code?_of_frames (Quiet.waitFor waited).frames, code] at joins
        simp [first] at joins
      · simp only [pure_ok, Prod.mk.injEq] at done
        exact done.2 ▸ asked

theorem touches_resumeMessage {f : FrameId} {a : ActorId} {message : V} {delivered : Bool} {value : V}
    {error : Option (Error V)} {resumption : Resumption V C}
    (code : st.code? f = some (.message a message delivered))
    (done : st.resumeMessage t f a message delivered value error = .ok (resumption, st')) :
    Touches touched st st' := by
  have recoded : Touches touched st (st.setCode f (.message a message true)) :=
    .setCode st f _ fun child joins => by simp [code] at joins
  unfold State.resumeMessage at done
  split at done
  · simp only [pure_ok, Prod.mk.injEq] at done
    exact done.2 ▸ .refl st
  · split at done
    · simp only [pure_ok, Prod.mk.injEq] at done
      exact done.2 ▸ recoded
    · simp only [bind_ok] at done
      obtain ⟨actor, _, may, _, done⟩ := done
      split at done
      · simp only [pure_ok, Prod.mk.injEq] at done
        refine done.2 ▸ recoded.trans ?_
        exact .of_tables rfl rfl rfl
      · simp at done

/-- Resuming a frame of a task touches the task, and the one that is next in line for what it gives up. -/
theorem touches_resume {f : FrameId} {value : V} {error : Option (Error V)} {resumption : Resumption V C}
    (done : st.resume t f value error = .ok (resumption, st')) :
    Touches (fun u => u = t ∨ ∃ r, u ∈ st.waiters r) st st' := by
  simp only [State.resume, bind_ok, frame_ok] at done
  obtain ⟨frame, found, done⟩ := done
  have code : st.code? f = some frame.code := by rw [code?, found]; rfl
  split at done
  · simp only [pure_ok, Prod.mk.injEq] at done
    exact done.2 ▸ .refl st
  · next r phase same =>
    simp only [bind_ok, pure_ok, Prod.mk.injEq] at done
    obtain ⟨⟨answer, st₁⟩, resumed, _, rfl⟩ := done
    exact touches_resumeGuard (same ▸ code) resumed
  · next child parked same =>
    simp only [bind_ok, pure_ok, Prod.mk.injEq] at done
    obtain ⟨⟨answer, st₁⟩, resumed, _, rfl⟩ := done
    exact (touches_resumeJoin (same ▸ code) resumed).mono fun _ => .inl
  · next a message delivered same => exact touches_resumeMessage (same ▸ code) done

/-! ## The end of a task -/

/-- A task is parked, and its scheduler will run it when it is woken. -/
def queues (st : State V C) (s : SchedulerId) (u : TaskId) : Bool :=
  (st.tasks.get? u).any fun task => task.life = .waiting && task.bound.isNone && task.scheduler = s

/-- A task ended: it has an outcome, and everybody who joined it was woken, in the order in which they
joined. -/
structure Ends (st : State V C) (c : TaskId) (result : Except (Error V) V) (st' : State V C) : Prop where
  live : st.life c = some .running
  terminal : ∃ life, st'.life c = some life ∧ life.isTerminal = true
  outcome : ∀ u, st'.outcome u = if u = c then some (outcomeOf c result) else st.outcome u
  joiners : ∀ u, st'.joiners u = if u = c then [] else st.joiners u
  others : ∀ {u}, u ≠ c → st'.tasks.get? u = (st.tasks.get? u).map (Task.woken^[(st.joiners c).count u])
  awake : ∀ {u}, u ∈ st.joiners c → u ≠ c ∧ (st.life u = some .waiting ∨ st.life u = some .running)
  queue : ∀ s, st'.queue s = st.queue s ++ (st.joiners c).filter (st.queues s)
  resources : st'.resources = st.resources
  frames : st'.frames = st.frames

theorem tidings_iterate_woken (task : Task V) (n : Nat) : (Task.woken^[n] task).tidings = task.tidings := by
  induction n generalizing task with
  | zero => rfl
  | succ n inductionHypothesis => exact (inductionHypothesis _).trans (tidings_woken task)

theorem get?_readyAll {ts : List TaskId} (done : st.readyAll ts = .ok st') (u : TaskId) :
    st'.tasks.get? u = (st.tasks.get? u).map (Task.woken^[ts.count u]) := by
  induction ts generalizing st with
  | nil =>
    obtain rfl := pure_ok.1 done
    simp
  | cons t ts inductionHypothesis =>
    simp only [readyAll, bind_ok] at done
    obtain ⟨st₁, woken, done⟩ := done
    obtain ⟨task, found⟩ := exists_of_task woken
    rw [inductionHypothesis done, becomes_ready found woken]
    by_cases same : u = t
    · rw [if_pos same, same, found, List.count_cons_self]
      rfl
    · rw [if_neg same, List.count_cons_of_ne (Ne.symm same)]

theorem awake_of_ready (done : st.ready t = .ok st') :
    st.life t = some .waiting ∨ st.life t = some .running := by
  obtain ⟨task, found⟩ := exists_of_task done
  rw [life_of_get? found]
  rcases ready_ok found done with ⟨live, _⟩ | ⟨live, _⟩
  · exact .inl (congrArg some live)
  · exact .inr (congrArg some live)

/-- Only tasks that are parked or about to park are woken. -/
theorem awake_of_readyAll {ts : List TaskId} (done : st.readyAll ts = .ok st') (member : u ∈ ts) :
    st.life u = some .waiting ∨ st.life u = some .running := by
  induction ts generalizing st with
  | nil => simp at member
  | cons t ts inductionHypothesis =>
    simp only [readyAll, bind_ok] at done
    obtain ⟨st₁, woken, done⟩ := done
    by_cases same : u = t
    · exact same ▸ awake_of_ready woken
    · obtain ⟨task, found⟩ := exists_of_task woken
      have later := inductionHypothesis done ((List.mem_cons.1 member).resolve_left same)
      rwa [State.life, (becomes_ready found woken).other same] at later

theorem queue_ready (found : st.tasks.get? t = some task) (done : st.ready t = .ok st') (s : SchedulerId) :
    st'.queue s = st.queue s ++ if st.queues s t then [t] else [] := by
  have reads : st.queues s t = (decide (task.life = .waiting) && task.bound.isNone && decide (task.scheduler = s)) := by
    rw [queues, found]
    rfl
  rcases ready_ok found done with ⟨parked, st₁, st₂, counted, finished, scheduled⟩ | ⟨live, finished⟩
  · have before : st₂.queue s = st.queue s :=
      (sitters_finishWait finished (.queue s)).trans ((sitters_adjust counted (.queue s)).trans rfl)
    have becomes : Becomes st t { task with life := .ready, notified := false, waiting := none, external := false } st₂ := by
      have first : Becomes st t { task with life := .ready, notified := false } st₁ :=
        (becomes_modifyTask found fun task => { task with life := .ready, notified := false }).of_tasks
          (tasks_adjust counted)
      exact first.trans (becomes_finishWait first.self finished)
    obtain ⟨task', found', ⟨bound, rfl⟩ | ⟨unbound, _, rfl⟩⟩ := schedule_ok scheduled
    · obtain rfl := Option.some.inj (becomes.self.symm.trans found')
      have taken : task.bound.isNone = false := by simpa using bound
      rw [before, reads, taken]
      simp
    · obtain rfl := Option.some.inj (becomes.self.symm.trans found')
      have free : task.bound.isNone = true := by simpa using unbound
      have known : (st₂.schedulers.get? task.scheduler).isSome = true := by
        obtain ⟨scheduler, known, _, rfl⟩ := adjust_ok.1 counted
        refine (Remembers.finishWait finished).known ?_
        rw [isSome_modifyScheduler]
        exact Option.isSome_of_eq_some known
      rw [reads, parked, free, queue_enqueued known]
      split
      · next here =>
        subst here
        rw [before]
        simp
      · next other =>
        rw [before]
        simp [Ne.symm other]
  · have same : st'.queue s = st.queue s := (sitters_finishWait finished (.queue s)).trans rfl
    rw [same, reads, live]
    simp

theorem queue_readyAll {ts : List TaskId} (done : st.readyAll ts = .ok st') (s : SchedulerId) :
    st'.queue s = st.queue s ++ ts.filter (st.queues s) := by
  induction ts generalizing st with
  | nil =>
    obtain rfl := pure_ok.1 done
    simp
  | cons t ts inductionHypothesis =>
    simp only [readyAll, bind_ok] at done
    obtain ⟨st₁, woken, done⟩ := done
    obtain ⟨task, found⟩ := exists_of_task woken
    have becomes := becomes_ready found woken
    -- Whoever joined twice was not parked, or its second wake would have failed.
    have same : ∀ u ∈ ts, st₁.queues s u = st.queues s u := by
      intro u member
      by_cases here : u = t
      · subst here
        have awake := awake_of_readyAll done member
        rw [life_of_get? becomes.self] at awake
        rw [queues, becomes.self, queues, found]
        unfold Task.woken at awake ⊢
        split
        · next parked => simp [parked, Task.scheduled] at awake
        · next busy => simp [busy]
      · rw [queues, becomes.other here, queues]
    rw [inductionHypothesis done, queue_ready found woken, List.append_assoc, List.filter_congr same,
      List.filter_cons]
    split <;> rfl

theorem queue_retire (done : st.retire t = .ok st') (s : SchedulerId) : st'.queue s = st.queue s := by
  simp only [State.retire, bind_ok] at done
  obtain ⟨_, _, st₁, first, second⟩ := done
  exact (sitters_adjust second (.queue s)).trans ((sitters_adjust first (.queue s)).trans rfl)

/-- The run of a task comes to its end, after what the run alone knows of the task has changed. -/
theorem ends_of_finish [Inhabited V] {st₀ : State V C} {result : Except (Error V) V}
    (found : st.tasks.get? t = some task) (becomes : Becomes st t task' st₀)
    (stays : (task'.life, task'.tidings) = (task.life, task.tidings))
    (schedulers : st₀.schedulers = st.schedulers) (resources : st₀.resources = st.resources)
    (frames : st₀.frames = st.frames) (done : st₀.finish t result = .ok st') : Ends st t result st' := by
  have found' := becomes.self
  obtain ⟨live, st₁, woken, retired⟩ := finish_ok found' done
  have keeps : task'.life = task.life := congrArg Prod.fst stays
  have line : task'.joiners.toList = st.joiners t := by
    rw [joiners_of_get? found]
    exact congrArg (fun pair => pair.2.2) stays
  rw [line] at woken
  have closes : Becomes st t (task'.closed t result) (st₀.closed t result) :=
    becomes.trans (becomes_closed found')
  obtain ⟨last, found₁, retires⟩ := becomes_retire retired
  -- A task that ended cannot be woken, so nobody joined itself.
  have apart : ∀ {u}, u ∈ st.joiners t → u ≠ t := by
    rintro u joins rfl
    have awake := awake_of_readyAll woken joins
    rw [life_of_get? closes.self] at awake
    have settled := isTerminal_finalLife result
    rcases awake with same | same <;>
      rw [show finalLife result = _ from Option.some.inj same] at settled <;> simp [Life.isTerminal] at settled
  have closed₁ : st₁.tasks.get? t = some (task'.closed t result) := by
    rw [get?_readyAll woken, List.count_eq_zero_of_not_mem fun joins => apart joins rfl, closes.self]
    rfl
  obtain rfl := Option.some.inj (closed₁.symm.trans found₁)
  have others : ∀ {u}, u ≠ t → st'.tasks.get? u = (st.tasks.get? u).map (Task.woken^[(st.joiners t).count u]) := by
    intro u other
    rw [retires.other other, get?_readyAll woken, closes.other other]
  have quiet := (Quiet.readyAll woken).trans (Quiet.retire retired)
  refine ⟨?_, ⟨finalLife result, ?_, isTerminal_finalLife result⟩, fun u => ?_, fun u => ?_, others,
    fun joins => ⟨apart joins, ?_⟩, fun s => ?_, quiet.resources.trans resources, quiet.frames.trans frames⟩
  · rw [life_of_get? found, ← keeps, live]
  · rw [life_of_get? retires.self]
    rfl
  · split
    · next here => rw [here, outcome_of_get? retires.self]; rfl
    · next other =>
      rw [State.outcome, others other, State.outcome]
      cases st.tasks.get? u with
      | none => rfl
      | some task => exact congrArg Prod.fst (tidings_iterate_woken task _)
  · split
    · next here => rw [here, joiners_of_get? retires.self]; rfl
    · next other =>
      change (st'.tasks.get? u).elim [] _ = (st.tasks.get? u).elim [] _
      rw [others other]
      cases st.tasks.get? u with
      | none => rfl
      | some task => exact congrArg Prod.snd (tidings_iterate_woken task _)
  · have awake := awake_of_readyAll woken joins
    rwa [State.life, closes.other (apart joins)] at awake
  · rw [queue_retire retired, queue_readyAll woken]
    have line : (st₀.closed t result).queue s = st.queue s := by
      change (st₀.schedulers.get? s).elim [] _ = (st.schedulers.get? s).elim [] _
      rw [schedulers]
    rw [line]
    refine congrArg (st.queue s ++ ·) (List.filter_congr fun u joins => ?_)
    rw [queues, closes.other (apart joins), queues]

end State

/-! ## Steps -/

/-- The task that the next step of a thread is about, if it is about one: the one that a request names, or
the one whose run the thread goes on with. -/
def Agent.subject? (a : Agent V C) : Option TaskId :=
  match a.focus, a.stack with
  | .code (.ask request _), _ => request.subject?
  | .code (.unwind t _ _ _), _ => some t
  | .code (.answer _), .frame t _ _ :: _ => some t
  | .code (.answer _), .cancel t _ _ _ _ :: _ => some t
  | .trampoline t _, _ => some t
  | _, _ => none

theorem Focus.inHand_of_idle {focus : Focus V C} (idle : focus.run? = none) :
    focus.inHand = [] := by
  cases focus with
  | trampoline => simp [Focus.run?] at idle
  | _ => rfl

theorem Activation.inHand_calls {extra : List (Activation V C)} (calls : ∀ x ∈ extra, x.IsCall) :
    extra.flatMap Activation.inHand = [] := by
  refine List.flatMap_eq_nil_iff.2 fun x member => ?_
  have call := calls x member
  cases x with
  | call => rfl
  | _ => exact call.elim

theorem Activation.inHand_opened (opened : Option ExclusiveId) (stack : List (Activation V C)) :
    ((opened.map Activation.opened).toList ++ stack).flatMap Activation.inHand =
      stack.flatMap Activation.inHand := by
  cases opened <;> rfl

namespace Config

open State

variable [Inhabited V] {c config : Config V C} {st : State V C} {t : TaskId} {focus : Focus V C}
  {stack : List (Activation V C)}

/-- A task may be touched by a step. -/
def Near (c : Config V C) (u : TaskId) : Prop :=
  c.agent.subject? = some u ∨ (∃ r, u ∈ c.state.waiters r) ∨ c.state.tasks.get? u = none

/-- What a step means to tasks. -/
inductive Affects (c config : Config V C) : Prop where
  | touches (touches : Touches c.Near c.state config.state)
      (inHand : ∀ u, u ∈ config.agent.inHand → u ∈ c.agent.inHand)
  /-- A ready task is taken up. -/
  | begins {t : TaskId} {after : Focus V C} (ready : c.state.life t = some .ready)
      (touches : Touches (· = t) c.state config.state)
      (begun : ∀ {task}, c.state.tasks.get? t = some task →
        config.state.stance t = some (.running, false, task.top, task.error))
      (joiners : ∀ u, config.state.joiners u = c.state.joiners u)
      (resources : config.state.resources = c.state.resources)
      (focus : config.focus = .trampoline t after) (stack : config.stack = c.stack) (idle : after.inHand = [])
  | ends {t : TaskId} {result : Except (Error V) V} (subject : c.agent.subject? = some t)
      (ends : Ends c.state t result config.state)
      (inHand : ∀ u, u ∈ config.agent.inHand → u ∈ c.agent.inHand)

omit [Inhabited V] in
/-- Resuming a frame of the task in question. -/
theorem near_of_resume (subject : (⟨st, focus, stack⟩ : Config V C).agent.subject? = some t)
    (u : TaskId) (hit : u = t ∨ ∃ r, u ∈ st.waiters r) : (⟨st, focus, stack⟩ : Config V C).Near u := by
  rcases hit with rfl | waits
  · exact .inl subject
  · exact .inr (.inl waits)

omit [Inhabited V] in
theorem touches_landAt (st : State V C) (t : TaskId) (target : FrameId) (value : V) :
    Touches (· = t) st (landAt st t target value) := by
  cases found : st.tasks.get? t with
  | some task => exact .of_becomes found (becomes_modifyTask found _) rfl (fun _ => rfl) rfl rfl
  | none =>
    refine .of_same (fun u => ?_) .inl id
    rw [landAt, get?_modifyTask]
    split
    · next here => rw [here, found]; rfl
    · rfl

omit [Inhabited V] in
theorem bearing_takeReady {st st' : State V C} {s : SchedulerId} {next : Option TaskId}
    (done : st.takeReady s = .ok (next, st')) (u : TaskId) :
    (st'.tasks.get? u).map Task.bearing = (st.tasks.get? u).map Task.bearing := by
  obtain ⟨_, rfl⟩ | ⟨t, rest, _, _, _, rfl⟩ := takeReady_ok done
  · rfl
  · rw [dequeued, dropLink, get?_modifyTask]
    split
    · next here =>
      rw [here, Option.map_map]
      rfl
    · rfl

omit [Inhabited V] in
/-- A ready task is taken up. -/
theorem affects_of_beginRun {st₁ st₂ : State V C} {after : Focus V C} {w : Worker}
    (settled : after.run? = none)
    (same : ∀ u, (st₁.tasks.get? u).map Task.bearing = (st.tasks.get? u).map Task.bearing)
    (resources : st₁.resources = st.resources) (frames : st₁.frames = st.frames)
    (begun : st₁.beginRun t w = .ok st₂) :
    Affects ⟨st, focus, stack⟩ ⟨st₂, .trampoline t after, stack⟩ := by
  have taken : Touches (· = t) st st₁ :=
    .of_same same (fun member => .inl (waiters_of_resources resources _ ▸ member))
      fun code => (code?_of_frames frames _).trans code
  obtain ⟨quiet, ready, _⟩ := Quiet.beginRun begun
  obtain ⟨task₁, found₁, live⟩ := Option.map_eq_some_iff.1 ready
  have here := same t
  rw [found₁] at here
  obtain ⟨task, found, bears⟩ := Option.map_eq_some_iff.1 here.symm
  simp only [Task.bearing, Task.stance, Prod.mk.injEq] at bears
  obtain ⟨⟨life, _, top, error⟩, _⟩ := bears
  have becomes := becomes_beginRun found₁ begun
  refine .begins ?_ (taken.trans (touches_beginRun found₁ begun)) (fun {task'} found' => ?_) (fun u => ?_)
    (quiet.resources.trans resources) rfl rfl (Focus.inHand_of_idle settled)
  · exact (life_of_get? found).trans (congrArg some (life.trans live))
  · obtain rfl := Option.some.inj (found.symm.trans found')
    rw [stance_of_get? becomes.self, top, error]
    rfl
  · rw [joiners_of_becomes found₁ becomes rfl, joiners_of_bearing (same u)]

theorem affects_of_does (does : Does c config) : c.Affects config := by
  cases does with
  | serves served => exact .touches (touches_serve served) fun _ => id
  | newFrame => exact .touches (.addFrame _ _) fun _ => id
  | newActor =>
    refine .touches (.of_same (fun _ => rfl) (fun {r u} member => .inl ?_) id) fun _ => id
    rwa [← waiters_addResource none]
  | registers => exact .touches (.of_tables rfl rfl rfl) fun _ => id
  | passes detours idle calls =>
    refine .touches (.refl _) fun u member => ?_
    simpa [Config.agent, Agent.inHand, Focus.inHand_of_idle detours.1, Focus.inHand_of_idle idle,
      Activation.inHand_calls calls] using member
  | rests => exact .touches (.refl _) fun _ => id
  | hands => exact .touches (.refl _) fun _ => id
  | opens may => exact .touches (.of_tables rfl rfl rfl) fun _ => id
  | closes => exact .touches (.of_tables rfl rfl rfl) fun _ => id
  | begins detours busy settled taken begun =>
    obtain ⟨s, taken⟩ | ⟨_, rfl⟩ := taken
    · have quiet := Quiet.takeReady taken
      exact affects_of_beginRun settled (bearing_takeReady taken) quiet.resources quiet.frames begun
    · exact affects_of_beginRun settled (fun _ => rfl) rfl rfl begun
  | @resumes st st' t f task after resumption stack found top resumed =>
    have readied : Touches (fun u => u = t ∨ ∃ r, u ∈ st.waiters r) st
        (st.modifyTask t fun task => { task with value := default, error := none }) :=
      .mono (.of_becomes found (becomes_modifyTask found _) rfl (fun _ => rfl) rfl rfl) fun _ => .inl
    refine .touches ((readied.trans (touches_resume resumed)).mono (near_of_resume rfl)) fun u member => ?_
    simpa [Config.agent, Agent.inHand, Activation.inHand_opened, Focus.inHand, Activation.inHand] using member
  | @suspends st st' t f after stack parked =>
    obtain ⟨task, found⟩ := exists_of_task parked
    have left : Touches (· = t) st (st.endRun t) := by
      refine .modifyTask st t ?_
      exact fun _ => rfl
    refine .touches ((left.trans (touches_park found parked)).mono fun u here => .inl ?_) fun u member => ?_
    · exact here ▸ rfl
    · exact List.mem_append_right [] (List.mem_cons_of_mem t member)
  | @returns st t f caller answer result task after stack ends found top link =>
    refine .touches (.mono (.of_becomes found (becomes_modifyTask found _) ?_ (fun _ => ?_) rfl rfl)
      fun u here => .inl (here ▸ rfl)) fun u member => ?_
    · cases result <;> rfl
    · cases result <;> rfl
    · simpa [Config.agent, Agent.inHand, Focus.inHand, Activation.inHand] using member
  | @finishes st st' t f answer result task after stack ends found top link finished =>
    have left := becomes_modifyTask found fun task => { task with top := none }
    refine .ends rfl (ends_of_finish found (left.trans (becomes_modifyTask left.self _)) rfl rfl rfl rfl finished)
      fun u member => ?_
    exact List.mem_append_right [] (List.mem_cons_of_mem t member)
  | @lands st t f target value task after stack found top =>
    have moved : Touches (· = t) st (st.modifyTask t fun task => { task with top := some target }) :=
      .of_becomes found (becomes_modifyTask found _) rfl (fun _ => rfl) rfl rfl
    refine .touches ((moved.trans (touches_landAt _ t target value)).mono fun u here => .inl ?_)
      fun u member => ?_
    · exact here ▸ rfl
    · simpa [Config.agent, Agent.inHand, Focus.inHand, Activation.inHand] using member
  | @leaps st st' t f g target value task rest after resumption stack found top path resumed =>
    have moved : Touches (fun u => u = t ∨ ∃ r, u ∈ st.waiters r) st
        (st.modifyTask t fun task => { task with top := some g }) :=
      .mono (.of_becomes found (becomes_modifyTask found _) rfl (fun _ => rfl) rfl rfl) fun _ => .inl
    refine .touches ((moved.trans (touches_resume resumed)).mono (near_of_resume rfl)) fun u member => ?_
    simpa [Config.agent, Agent.inHand, Activation.inHand_opened, Focus.inHand, Activation.inHand] using member
  | @cancels st st' t g target answer value rest after resumption stack resumed =>
    refine .touches ((touches_resume resumed).mono (near_of_resume rfl)) fun u member => ?_
    simpa [Config.agent, Agent.inHand, Activation.inHand_opened, Focus.inHand, Activation.inHand] using member
  | @unwinds st t target answer value after stack =>
    refine .touches ((touches_landAt st t target value).mono fun u here => .inl ?_) fun u member => ?_
    · exact here ▸ rfl
    · simpa [Config.agent, Agent.inHand, Focus.inHand, Activation.inHand] using member

/-- Code that unwinds a task by hand resumes the first of the frames in between, if there is one. -/
theorem affects_of_unwind {target : FrameId} {value : V} {next : Program V C}
    (step : (⟨st, .code (.unwind t target value next), stack⟩ : Config V C).step = .ok config) :
    Affects ⟨st, .code (.unwind t target value next), stack⟩ config := by
  simp only [Config.step, stepCode, unwind, bind_ok, task_ok, check_ok] at step
  obtain ⟨task, found, _, step⟩ := step
  split at step
  · next doomed walk =>
    cases doomed with
    | nil =>
      obtain rfl := pure_ok.1 step
      exact .touches ((touches_landAt st t target value).mono fun u here => .inl (here ▸ rfl)) fun _ => id
    | cons g rest =>
      obtain ⟨resumption, st', resumed, rfl⟩ := Crew.Sound.resumeFrame_ok
        (show (⟨st, .code (.unwind t target value next), stack⟩ : Config V C).resumeFrame t g default
          (some .cancelled) (.cancel t rest target value (.code next)) = .ok config from step)
      refine .touches ((touches_resume resumed).mono (near_of_resume rfl)) fun u member => ?_
      simpa [Config.agent, Agent.inHand, Activation.inHand_opened, Focus.inHand, Activation.inHand] using member
  · simp at step

/-- What any step of any code means to tasks. -/
theorem affects_of_step (step : c.step = .ok config) : c.Affects config := by
  by_cases wild : ∃ t target value next, c.focus = .code (.unwind t target value next)
  · obtain ⟨st, focus, stack⟩ := c
    obtain ⟨t, target, value, next, rfl⟩ := wild
    exact affects_of_unwind step
  · refine affects_of_does (does_of_step (fun t target value next same => ?_) step)
    exact wild ⟨t, target, value, next, same⟩

end Config

end Tasking
