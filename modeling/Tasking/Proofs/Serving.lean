import Tasking.Proofs.Crew
import Tasking.Proofs.Resuming

/-! # What serving a request does to a picture

Most requests change no picture at all.  The others make a chain longer, begin one, or create a
frame; none of those that guarded programs may make concerns a guard or a resource.
-/

namespace Tasking

open Picture

variable {V C : Type}

namespace State

/-- A change while the runs of all tasks stay where they are. -/
structure Serves (runner : Option TaskId) (stage : TaskId → Option Stage) (st st' : State V C) :
    Prop where
  neutral : Neutral runner (st.picture stage) (st'.picture stage)
  keeps : Keeps st st'
  ended : st.Ended → st'.Ended

variable {st st' st'' : State V C} {runner : Option TaskId} {stage : TaskId → Option Stage}

theorem Serves.refl (st : State V C) : Serves runner stage st st := ⟨.refl _, .refl _, id⟩

theorem Serves.trans (first : Serves runner stage st st') (second : Serves runner stage st' st'') :
    Serves runner stage st st'' :=
  ⟨first.neutral.trans second.neutral, first.keeps.trans second.keeps,
    fun ended => second.ended (first.ended ended)⟩

theorem Quiet.serves (quiet : Quiet st st') : Serves runner stage st st' where
  neutral := .of_eq (quiet.picture stage)
  keeps := quiet.toKeeps
  ended := quiet.keepsEnded

/-- Changes of tables that hold neither tasks nor frames nor resources nor schedulers. -/
theorem Quiet.of_rest (tasks : st'.tasks = st.tasks) (frames : st'.frames = st.frames)
    (resources : st'.resources = st.resources) (schedulers : st'.schedulers = st.schedulers) :
    Quiet st st' := by
  refine .of_tasks frames resources ?_ ?_ fun lined => lined.of_same ?_ ?_ ?_ ?_
  · exact fun t => by rw [State.top, tasks, State.top]
  · exact fun t => by rw [State.life, tasks, State.life]
  · exact fun r => by rw [State.waiters, resources, State.waiters]
  · exact fun s => by rw [State.queue, schedulers, State.queue]
  · exact fun s known => by rwa [schedulers]
  · exact fun t => by rw [State.link, tasks, State.link]

/-! ## New things -/

theorem serves_addFrame {label : String} {code : Frame.Code V (Body V C)}
    (start : ∀ r phase, code.guard? = some (r, phase) → ∃ body, phase = .start body) :
    Serves runner stage st (st.addFrame ⟨label, none, code⟩).2 := by
  have fresh : st.frames.get? st.frames.next = none := st.frames.get?_next
  have known : ∀ g, (((st.addFrame ⟨label, none, code⟩).2.frames.get? g).isSome = true) =
      ((st.frames.get? g).isSome = true ∨ g = st.frames.next) := fun g => by
    simp only [addFrame, Table.get?_add_eq]
    split <;> simp_all
  have caller : (st.addFrame ⟨label, none, code⟩).2.caller = st.caller := by
    funext g
    simp only [State.caller, addFrame, Table.get?_add_eq]
    split <;> simp_all
  have guard : (st.addFrame ⟨label, none, code⟩).2.guard? =
      Function.update st.guard? st.frames.next code.guard? := by
    funext g
    simp only [guard?, addFrame, Table.get?_add_eq, Function.update_apply]
    split <;> simp_all
  have picture : (st.addFrame ⟨label, none, code⟩).2.picture stage =
      (st.picture stage).addFrame st.frames.next code.guard? := by
    simp only [State.picture, Picture.addFrame, known, caller, guard]
    rfl
  refine ⟨?_, .of_tasks (fun _ => rfl) fun lined =>
    lined.of_same (fun _ => rfl) (fun _ => rfl) (fun _ => id) fun _ => rfl, id⟩
  rw [picture]
  refine ⟨fun warded => warded.addFrame ?_ ?_ start, rfl, rfl, .inl, fun {g} found => ?_, fun _ => id,
    fun _ => rfl⟩
  · simp [State.picture, fresh]
  · simp [State.picture, guard?, fresh]
  · have other : g ≠ st.frames.next := by
      rintro rfl
      simp [State.picture, fresh] at found
    simp [Picture.addFrame, other]

theorem serves_addGuard (r : ResourceId) (body : FrameId) :
    Serves runner stage st (st.addGuard r body).2 :=
  serves_addFrame fun r' phase same => ⟨body, by simp_all [Frame.Code.guard?]⟩

theorem serves_addJoin (child : TaskId) : Serves runner stage st (st.addJoin child).2 :=
  serves_addFrame (by simp [Frame.Code.guard?])

theorem serves_addMessage {a : ActorId} {message : V} {f : FrameId}
    (done : st.addMessage a message = .ok (f, st')) : Serves runner stage st st' := by
  simp only [addMessage, bind_ok, actor_ok, exclusive_ok, pure_ok] at done
  obtain ⟨actor, _, state, _, done⟩ := done
  have added : Serves runner stage st
      (st.addFrame ⟨"actor-message", none, .message a message false⟩).2 :=
    serves_addFrame (by simp [Frame.Code.guard?])
  obtain rfl : _ = st' := congrArg Prod.snd done
  exact added.trans (serves_addGuard _ _)

theorem serves_addResource (name : Option String) :
    Serves runner stage st (st.addResource name).2 := by
  have owner : (st.addResource name).2.owner = st.owner := by
    funext r
    simp only [State.owner, addResource, Table.get?_add_eq]
    split
    · next fresh => simp [fresh, Resource.new]
    · rfl
  have waiters : (st.addResource name).2.waiters = st.waiters := by
    funext r
    simp only [State.waiters, addResource, Table.get?_add_eq]
    split
    · next fresh => simp [fresh, Resource.new]
    · rfl
  refine ⟨.of_eq ?_, .of_tasks (fun _ => rfl) fun lined =>
    lined.of_same (congrFun waiters) (fun _ => rfl) (fun _ => id) fun _ => rfl, id⟩
  simp only [State.picture, owner, waiters]
  rfl

theorem Quiet.addExclusive (st : State V C) (r : ResourceId) (payload : V) :
    Quiet st (st.addExclusive r payload).2 := .of_rest rfl rfl rfl rfl

theorem serves_addActor (first : V) (handler : Handler V C) :
    Serves runner stage st (st.addActor first handler).2 :=
  (serves_addResource none).trans (Quiet.serves (.of_rest rfl rfl rfl rfl))

theorem serves_addScheduler {settings : Settings} {g : RegistryId}
    {reply : Except HostError SchedulerId} (done : st.addScheduler settings g = .ok (reply, st')) :
    Serves runner stage st st' := by
  unfold addScheduler at done
  split at done
  · simp only [pure_ok, Prod.mk.injEq] at done
    exact done.2 ▸ .refl st
  · simp at done
  · simp only [pure_ok, Prod.mk.injEq] at done
    obtain ⟨_, rfl⟩ := done
    refine Quiet.serves (.of_tasks rfl rfl (fun _ => rfl) (fun _ => rfl) fun lined =>
      lined.of_same (fun _ => rfl) (fun s => ?_) (fun s known => ?_) fun _ => rfl)
    · simp only [State.queue, Table.get?_add_eq]
      split
      · next fresh => simp [fresh, Scheduler.new]
      · rfl
    · simp only [Table.get?_add_eq]
      split <;> simp_all

/-! ## New tasks -/

theorem Quiet.startBound {s : SchedulerId} {t : TaskId} (done : st.startBound s t = .ok st') :
    Quiet st st' := by
  unfold State.startBound at done
  refine .trans ?_ ((Quiet.enlist _ s t).trans (Quiet.start done))
  exact Quiet.modifyScheduler st s
    (f := fun scheduler => { scheduler with bound := scheduler.bound ++ [t] }) fun _ => rfl

section

variable [Inhabited V]

theorem top_addTask (st : State V C) (s : SchedulerId) (entry : FrameId) (bound : Option Nat) :
    (st.addTask s entry bound).2.top = Function.update st.top st.tasks.next (some entry) := by
  funext t
  simp only [top, addTask, Table.get?_add_eq, Function.update_apply]
  split
  · rfl
  · rfl

theorem life_addTask (st : State V C) (s : SchedulerId) (entry : FrameId) (bound : Option Nat)
    (t : TaskId) : (st.addTask s entry bound).2.life t =
      if t = st.tasks.next then some .init else st.life t := by
  simp only [life, addTask, Table.get?_add_eq]
  split
  · rfl
  · rfl

theorem link_addTask (st : State V C) (s : SchedulerId) (entry : FrameId) (bound : Option Nat)
    (t : TaskId) : (st.addTask s entry bound).2.link t =
      if t = st.tasks.next then some (s, false) else st.link t := by
  simp only [link, addTask, Table.get?_add_eq]
  split
  · rfl
  · rfl

theorem Lined.addTask (lined : st.Lined) {s : SchedulerId} {entry : FrameId} {bound : Option Nat}
    (known : (st.schedulers.get? s).isSome = true) : (st.addTask s entry bound).2.Lined := by
  have link := link_addTask st s entry bound
  have old : ∀ {t link}, st.link t = some link → t ≠ st.tasks.next := by
    rintro t link linked rfl
    simp [State.link] at linked
  constructor
  · intro t u member
    have linked := lined.ready_linked (s := u) member
    rw [link, if_neg (old linked), linked]
  · exact lined.ready_nodup
  · intro t r member
    obtain ⟨u, linked⟩ := lined.waiter_linked (r := r) member
    exact ⟨u, by rw [link, if_neg (old linked), linked]⟩
  · intro t u r member
    exact lined.ready_not_waiting (s := u) member
  · intro t u linked
    rw [link] at linked
    split at linked
    · simp at linked
    · exact lined.linked_queued linked
  · intro t u b linked
    rw [link] at linked
    split at linked
    · obtain rfl : s = u := congrArg Prod.fst (Option.some.inj linked)
      exact known
    · exact lined.scheduler_known linked

/-- A new task concerns no task that exists. -/
theorem serves_addTask {s : SchedulerId} {entry : FrameId} {bound : Option Nat}
    (known : (st.schedulers.get? s).isSome = true) (unborn : stage st.tasks.next = none)
    (idle : ∀ f, Reaches st.caller entry f → (st.picture stage).Idle f) :
    Serves runner stage st (st.addTask s entry bound).2 := by
  have fresh : st.top st.tasks.next = none := by simp [top]
  have picture : (st.addTask s entry bound).2.picture stage =
      (st.picture stage).move st.tasks.next (some entry) none := by
    have same : Function.update stage st.tasks.next none = stage :=
      Function.update_eq_self_iff.2 unborn.symm
    simp only [State.picture, Picture.move, top_addTask, same]
    rfl
  refine ⟨?_, ⟨fun {t} run => ?_, fun {t stage} terminal done => ?_, fun lined => lined.addTask known⟩,
    fun ended {t stage} done terminal => ?_⟩
  · rw [picture]
    refine ⟨fun warded => warded.addTask fresh unborn idle, rfl, rfl, id, fun _ => rfl,
      fun {t f} _ found => ?_, fun {t} _ => congrFun (Function.update_eq_self_iff.2 unborn.symm) t⟩
    have other : t ≠ st.tasks.next := by
      rintro rfl
      simp [State.picture, fresh] at found
    simpa [Picture.move, other] using found
  · rw [life_addTask, if_neg, run]
    rintro rfl
    simp [life] at run
  · rw [life_addTask] at done
    split at done
    · obtain rfl := Option.some.inj done
      simp [Life.isTerminal] at terminal
    · exact done
  · rw [life_addTask] at done
    split at done
    · obtain rfl := Option.some.inj done
      simp [Life.isTerminal] at terminal
    · next other =>
      rw [top_addTask, Function.update_of_ne other]
      exact ended done terminal

theorem serves_spawn {s : SchedulerId} {entry : FrameId} {reply : Except HostError TaskId}
    (unborn : stage st.tasks.next = none)
    (idle : ∀ f, Reaches st.caller entry f → (st.picture stage).Idle f)
    (done : st.spawn s entry = .ok (reply, st')) : Serves runner stage st st' := by
  simp only [spawn, bind_ok, scheduler_ok] at done
  obtain ⟨scheduler, found, done⟩ := done
  split at done
  · simp only [pure_ok, Prod.mk.injEq] at done
    exact done.2 ▸ .refl st
  · simp only [pure_ok, Prod.mk.injEq] at done
    obtain ⟨_, rfl⟩ := done
    have added : Serves runner stage st (st.addTask s entry none).2 :=
      serves_addTask (by simp [found]) unborn idle
    exact added.trans (Quiet.enlist _ s _).serves

theorem serves_spawnBound {s : SchedulerId} {entry : FrameId} {reply : Except HostError TaskId}
    (unborn : stage st.tasks.next = none)
    (idle : ∀ f, Reaches st.caller entry f → (st.picture stage).Idle f)
    (done : st.spawnBound s entry = .ok (reply, st')) : Serves runner stage st st' := by
  simp only [spawnBound, bind_ok, scheduler_ok] at done
  obtain ⟨scheduler, found, done⟩ := done
  split at done
  · simp only [pure_ok, Prod.mk.injEq] at done
    exact done.2 ▸ .refl st
  · have numbered := Quiet.modifyScheduler st s
      (f := fun scheduler' => { scheduler' with nextThread := scheduler.nextThread + 1 }) fun _ => rfl
    have known : (((st.modifyScheduler s fun scheduler' =>
        { scheduler' with nextThread := scheduler.nextThread + 1 }).schedulers.get? s)).isSome =
        true := by
      rw [isSome_modifyScheduler, found]
      rfl
    have added : Serves runner stage st ((st.modifyScheduler s fun scheduler' =>
        { scheduler' with nextThread := scheduler.nextThread + 1 }).addTask s entry
          (some scheduler.nextThread)).2 :=
      numbered.serves.trans (serves_addTask known unborn (by rw [numbered.picture]; exact idle))
    split at done
    · simp only [pure_ok, Prod.mk.injEq] at done
      exact done.2 ▸ added
    · simp at done
    · simp only [bind_ok, pure_ok, Prod.mk.injEq] at done
      obtain ⟨_, started, _, rfl⟩ := done
      exact added.trans (Quiet.startBound started).serves

end

/-! ## Chains -/

theorem serves_attach {f : FrameId} {c : Option FrameId} (warded : (st.picture stage).Warded)
    (permitted : st.caller f = c ∨
      (∀ k, c = some k → (st.picture stage).known k ∧
        ∀ r phase, st.guard? k = some (r, phase) → phase = .held ∨ phase = .released) ∧
      ((st.picture stage).Idle f ∨ ∃ t g, stage t = some (.inside g) ∧ st.guard? g = none ∧
        st.top t = some f ∧ f ≠ g ∧ (c = some g ∨ c = st.caller g)))
    (done : st.attach f c = .ok st') : Serves runner stage st st' := by
  have picture : st'.picture stage = _ := picture_attach done
  obtain ⟨known, apart, rfl⟩ := attach_ok done
  refine ⟨?_, .modifyFrame st f _, id⟩
  rw [picture]
  rcases permitted with same | ⟨allowed, place⟩
  · refine .of_eq ?_
    have still : Function.update st.caller f c = st.caller :=
      Function.update_eq_self_iff.2 same.symm
    simp [Picture.attach, State.picture, still]
  · have may : (st.picture stage).MayCall c f :=
      { known := fun {k} same => (allowed k same).1
        apart := fun {k} same way => by
          rw [same, isOnChain_of_reaches warded.acyclic known way] at apart
          simp at apart
        called := fun {k r phase} same => (allowed k same).2 r phase }
    refine .attach fun warded => ?_
    rcases place with idle | ⟨t, g, inside, plain, top, different, place⟩
    · exact warded.attach idle may
    · exact warded.attach_top inside top different plain may place

theorem serves_pause {t : TaskId} {f : FrameId} (run : st.life t = some .running)
    (warded : (st.picture stage).Warded → ((st.picture stage).move t (some f) (stage t)).Warded)
    (done : st.pause t f = .ok st') : Serves (some t) stage st st' := by
  have picture : st'.picture stage = _ := picture_pause done
  obtain ⟨known, rfl⟩ := pause_ok done
  have within := Within.modifyTask st t (f := fun task => { task with top := some f })
    (fun _ => rfl) fun _ => rfl
  exact ⟨picture ▸ .move warded, within.toKeeps, within.ended_of_running run⟩

/-- The run that code belongs to. -/
structure Runs (st : State V C) (stage : TaskId → Option Stage) (t : TaskId) (s : Stage) : Prop where
  stage : stage t = some s
  life : st.life t = some .running
  started : s ≠ .next
  plain : ∀ {g}, s = .inside g → st.guard? g = none

/-- Serving a request that guarded programs may make. -/
theorem serve_effect [Inhabited V] {request : Request V C} {reply : request.Reply}
    {runner : Option (TaskId × Stage)} (warded : (st.picture stage).Warded)
    (unborn : stage st.tasks.next = none)
    (mine : ∀ {t s}, runner = some (t, s) → st.Runs stage t s)
    (permitted : (st.picture stage).Permits runner request)
    (done : st.serve request = .ok (reply, st')) :
    Serves (runner.map Prod.fst) stage st st' := by
  cases request with
  | tryAcquire | acquire | release | move => exact permitted.elim
  | spawn s entry => exact serves_spawn unborn permitted done
  | spawnBound s entry => exact serves_spawnBound unborn permitted done
  | start t =>
    simp only [serve, bind_ok, pure_ok, Prod.mk.injEq] at done
    obtain ⟨_, started, _, rfl⟩ := done
    exact (Quiet.start started).serves
  | ready t =>
    simp only [serve, bind_ok, pure_ok, Prod.mk.injEq] at done
    obtain ⟨_, woken, _, rfl⟩ := done
    exact (Quiet.ready woken).serves
  | yield t =>
    simp only [serve, bind_ok, pure_ok, Prod.mk.injEq] at done
    obtain ⟨_, yielded, _, rfl⟩ := done
    exact (Quiet.yield yielded).serves
  | waitExternal t =>
    simp only [serve, bind_ok, pure_ok, Prod.mk.injEq] at done
    obtain ⟨_, announced, _, rfl⟩ := done
    exact (Quiet.waitExternal announced).serves
  | waitFor t child => exact (Quiet.waitFor done).serves
  | stop s =>
    simp only [serve, bind_ok, pure_ok, Prod.mk.injEq] at done
    obtain ⟨_, stopped, _, rfl⟩ := done
    exact (Quiet.stop stopped).serves
  | attach f c =>
    simp only [serve, bind_ok, pure_ok, Prod.mk.injEq] at done
    obtain ⟨_, attached, _, rfl⟩ := done
    rcases permitted with same | ⟨allowed, idle | ⟨t, g, same, top, different, place⟩⟩
    · exact serves_attach warded (.inl same) attached
    · exact serves_attach warded (.inr ⟨allowed, .inl idle⟩) attached
    · have run := mine same
      exact serves_attach warded
        (.inr ⟨allowed, .inr ⟨t, g, run.stage, run.plain rfl, top, different, place⟩⟩) attached
  | pause t f =>
    simp only [serve, bind_ok, pure_ok, Prod.mk.injEq] at done
    obtain ⟨_, paused, _, rfl⟩ := done
    obtain ⟨s, rfl, fresh, place⟩ := permitted
    have run := mine rfl
    refine serves_pause run.life (fun warded => ?_) paused
    by_cases still : st.top t = some f
    · have same : (st.picture stage).move t (some f) (stage t) = st.picture stage := by
        simp [Picture.move, State.picture, ← still]
      rwa [same]
    · cases s with
      | next => exact absurd rfl run.started
      | inside g =>
        refine warded.push run.stage ?_ (place g rfl) ?_
        · rcases fresh with idle | top | same
          · exact .inl idle
          · exact absurd top still
          · exact .inr (by simpa using same.symm)
        · intro r phase guard
          exact absurd (guard.symm.trans (run.plain rfl)) (by simp)
      | unwinding doomed target =>
        refine warded.redirect run.stage ?_
        rcases fresh with idle | top | same
        · exact idle.known
        · exact absurd top still
        · simp at same
  | newGuard r body =>
    rw [serve, pure_ok] at done
    obtain rfl : _ = st' := congrArg Prod.snd done
    exact serves_addGuard r body
  | newJoin child =>
    rw [serve, pure_ok] at done
    obtain rfl : _ = st' := congrArg Prod.snd done
    exact serves_addJoin child
  | newMessage a message => exact serves_addMessage done
  | newResource name =>
    rw [serve, pure_ok] at done
    obtain rfl : _ = st' := congrArg Prod.snd done
    exact serves_addResource name
  | newExclusive r payload =>
    rw [serve, pure_ok] at done
    obtain rfl : _ = st' := congrArg Prod.snd done
    exact (Quiet.addExclusive st r payload).serves
  | newScheduler settings g => exact serves_addScheduler done
  | setPayload | newRegistry | closeRegistry | newCell | write | update =>
    simp only [serve, addRegistry, pure_ok, Prod.mk.injEq] at done
    exact done.2 ▸ Quiet.serves (.of_rest rfl rfl rfl rfl)
  | findCycle | thread =>
    simp only [serve, pure_ok, Prod.mk.injEq] at done
    exact done.2 ▸ .refl st
  | intern g name =>
    simp only [serve, intern, bind_ok] at done
    obtain ⟨registry, _, done⟩ := done
    split at done
    · simp only [pure_ok, Prod.mk.injEq] at done
      exact done.2 ▸ Quiet.serves (.of_rest rfl rfl rfl rfl)
    · simp only [pure_ok, Prod.mk.injEq] at done
      exact done.2 ▸ .refl st
  | task | frame | resource | exclusive | actorState | lookup | nameOf | findNative | registry
    | scheduler | stats | read =>
    simp only [serve, bind_ok, pure_ok, Prod.mk.injEq] at done
    obtain ⟨_, _, _, rfl⟩ := done
    exact .refl _

end State

end Tasking
