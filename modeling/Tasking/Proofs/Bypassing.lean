import Tasking.Proofs.Parked.Respect

/-! # What nothing that happens to tasks touches

Starting, waking, parking, running and ending tasks, and handing resources over, leaves payloads, actors and registries
alone, and every scheduler goes on with the registry that it was given (`State.Bypasses`).  Besides code that asks for it,
only the delivery of a message does something to any of these: it opens a payload.
-/

namespace Tasking

variable {V C : Type}

namespace State

variable {st st' st'' : State V C} {t : TaskId} {f : FrameId} {s : SchedulerId} {r : ResourceId}

/-- The payloads and the actors. -/
def store (st : State V C) : Table .exclusive (Exclusive V) × Table .actor (Actor (Handler V C)) :=
  (st.exclusives, st.actors)

/-- The registry that a scheduler was given. -/
def registryOf? (st : State V C) (s : SchedulerId) : Option RegistryId :=
  (st.schedulers.get? s).map Scheduler.registry

/-- Payloads, actors and registries are as they were, and every scheduler has the registry that it had. -/
structure Bypasses (st st' : State V C) : Prop where
  store : st'.store = st.store
  registries : st'.registries = st.registries
  registryOf? : ∀ s, st'.registryOf? s = st.registryOf? s

namespace Bypasses

@[refl] theorem refl (st : State V C) : Bypasses st st := ⟨rfl, rfl, fun _ => rfl⟩

theorem trans (first : Bypasses st st') (second : Bypasses st' st'') : Bypasses st st'' :=
  ⟨second.store.trans first.store, second.registries.trans first.registries,
    fun s => (second.registryOf? s).trans (first.registryOf? s)⟩

theorem modifyTask (st : State V C) (t : TaskId) (change : Task V → Task V) : Bypasses st (st.modifyTask t change) :=
  ⟨rfl, rfl, fun _ => rfl⟩

theorem modifyFrame (st : State V C) (f : FrameId) (change : Frame V (Body V C) → Frame V (Body V C)) :
    Bypasses st (st.modifyFrame f change) := ⟨rfl, rfl, fun _ => rfl⟩

theorem modifyResource (st : State V C) (r : ResourceId) (change : Resource → Resource) :
    Bypasses st (st.modifyResource r change) := ⟨rfl, rfl, fun _ => rfl⟩

theorem modifyScheduler (st : State V C) (s : SchedulerId) {change : Scheduler → Scheduler}
    (same : ∀ scheduler, (change scheduler).registry = scheduler.registry) :
    Bypasses st (st.modifyScheduler s change) where
  store := rfl
  registries := rfl
  registryOf? u := by
    rw [State.registryOf?, State.modifyScheduler, Table.get?_modify]
    split
    · next here =>
      rw [here, Option.map_map]
      exact congrArg (fun f => Option.map f (st.schedulers.get? s)) (funext same)
    · rfl

theorem adjust {c : Counter} {change : Int} (done : st.adjust s c change = .ok st') : Bypasses st st' := by
  obtain ⟨scheduler, _, _, rfl⟩ := adjust_ok.1 done
  exact modifyScheduler st s fun _ => by cases c <;> rfl

theorem schedule (done : st.schedule t = .ok st') : Bypasses st st' := by
  obtain ⟨task, _, ⟨_, rfl⟩ | ⟨_, _, rfl⟩⟩ := schedule_ok done
  · exact .refl _
  · exact (modifyTask st t _).trans (modifyScheduler _ task.scheduler fun _ => rfl)

theorem finishWait (done : st.finishWait t = .ok st') : Bypasses st st' := by
  obtain ⟨task, _, done⟩ := finishWait_ok done
  have forgets := modifyTask st t fun task => { task with waiting := none, external := false }
  split at done
  · exact forgets.trans (adjust done)
  · exact done ▸ forgets

theorem start (done : st.start t = .ok st') : Bypasses st st' := by
  obtain ⟨task, found⟩ := exists_of_task done
  obtain ⟨_, st₁, counted, scheduled⟩ := start_ok found done
  exact ((modifyTask st t _).trans (adjust counted)).trans (schedule scheduled)

theorem ready (done : st.ready t = .ok st') : Bypasses st st' := by
  simp only [State.ready, bind_ok, task_ok] at done
  obtain ⟨task, found, done⟩ := done
  split at done
  · simp only [bind_ok] at done
    obtain ⟨_, counted, _, finished, scheduled⟩ := done
    exact (((modifyTask st t _).trans (adjust counted)).trans (finishWait finished)).trans (schedule scheduled)
  · exact (modifyTask st t _).trans (finishWait done)
  · simp at done

theorem readyAll {ts : List TaskId} (done : st.readyAll ts = .ok st') : Bypasses st st' := by
  induction ts generalizing st with
  | nil => exact pure_ok.1 done ▸ .refl st
  | cons t ts inductionHypothesis =>
    obtain ⟨st₁, woken, rest⟩ := bind_ok.1 done
    exact (ready woken).trans (inductionHypothesis rest)

theorem retire (done : st.retire t = .ok st') : Bypasses st st' := by
  simp only [State.retire, bind_ok] at done
  obtain ⟨_, _, _, tasks, runnable⟩ := done
  exact ((modifyTask st t _).trans (adjust tasks)).trans (adjust runnable)

theorem finish [Inhabited V] {result : Except (Error V) V} (done : st.finish t result = .ok st') : Bypasses st st' := by
  obtain ⟨task, found⟩ := exists_of_task done
  obtain ⟨_, st₁, woken, retired⟩ := finish_ok found done
  have closes : Bypasses st (st.closed t result) := (modifyTask st t _).trans (modifyTask _ t _)
  exact (closes.trans (readyAll woken)).trans (retire retired)

theorem waitExternal (done : st.waitExternal t = .ok st') : Bypasses st st' := by
  obtain ⟨task, found⟩ := exists_of_task done
  obtain ⟨_, done⟩ := waitExternal_ok found done
  split at done
  · exact done ▸ modifyTask st t _
  · exact (modifyTask st t _).trans (adjust done)

theorem park (done : st.park t = .ok st') : Bypasses st st' := by
  obtain ⟨task, found⟩ := exists_of_task done
  obtain ⟨_, ⟨_, scheduled⟩ | ⟨_, _, counted⟩⟩ := park_ok found done
  · exact (modifyTask st t _).trans (schedule scheduled)
  · exact (modifyTask st t _).trans (adjust counted)

theorem beginRun {w : Worker} (done : st.beginRun t w = .ok st') : Bypasses st st' := by
  obtain ⟨task, found, _⟩ := Option.map_eq_some_iff.1 (Quiet.beginRun done).2.1
  exact (beginRun_ok found done).2 ▸ (modifyTask st t _).trans (modifyTask _ t _)

theorem takeReady {next : Option TaskId} (done : st.takeReady s = .ok (next, st')) : Bypasses st st' := by
  obtain ⟨_, rfl⟩ | ⟨t, rest, _, _, _, rfl⟩ := takeReady_ok done
  · exact .refl _
  · have takes : Bypasses st (st.modifyScheduler s fun scheduler => { scheduler with ready := rest }) :=
      modifyScheduler st s fun _ => rfl
    exact takes.trans (modifyTask _ t _)

theorem acquire {granted : Except Deadlock Grant} (done : st.acquire r t = .ok (granted, st')) : Bypasses st st' := by
  obtain ⟨_, _, ⟨_, _, rfl⟩ | ⟨_, ⟨_, _, _, rfl⟩ | ⟨_, _, _, rfl⟩⟩⟩ := acquire_ok done
  · exact modifyResource st r _
  · exact .refl _
  · exact ⟨rfl, rfl, fun _ => rfl⟩

theorem release (done : st.release r t = .ok st') : Bypasses st st' := by
  obtain ⟨_, _, ⟨_, rfl⟩ | ⟨next, rest, _, woken⟩⟩ := release_ok done
  · exact modifyResource st r _
  · have hands : Bypasses st (st.handed next r rest) := ⟨rfl, rfl, fun _ => rfl⟩
    exact hands.trans (ready woken)

theorem waitFor {child : TaskId} {reply : Except Deadlock (Option (Outcome V))}
    (done : st.waitFor t child = .ok (reply, st')) : Bypasses st st' := by
  obtain ⟨awaited, _, ⟨_, _, rfl⟩ | ⟨_, ⟨_, _, _, rfl⟩ | ⟨_, _, rfl⟩⟩⟩ := waitFor_ok done
  · exact .refl _
  · exact .refl _
  · exact ⟨rfl, rfl, fun _ => rfl⟩

theorem pause (done : st.pause t f = .ok st') : Bypasses st st' := by
  obtain ⟨_, rfl⟩ := pause_ok done
  exact modifyTask st t _

theorem attach {caller : Option FrameId} (done : st.attach f caller = .ok st') : Bypasses st st' := by
  obtain ⟨_, _, rfl⟩ := attach_ok done
  exact modifyFrame st f _

theorem callFrame {callee : FrameId} {value : V} {answer : Answer V}
    (done : st.callFrame t f callee value = .ok (answer, st')) : Bypasses st st' := by
  simp only [State.callFrame, bind_ok, pure_ok, Prod.mk.injEq] at done
  obtain ⟨st₁, attached, st₂, paused, _, rfl⟩ := done
  exact (attach attached).trans (pause paused)

theorem dropLinks (st : State V C) (ts : List TaskId) : Bypasses st (st.dropLinks ts) := by
  induction ts generalizing st with
  | nil => exact .refl st
  | cons t ts inductionHypothesis => exact (modifyTask st t _).trans (inductionHypothesis (st.dropLink t))

theorem enlist (st : State V C) (s : SchedulerId) (t : TaskId) : Bypasses st (st.enlist s t) :=
  (modifyTask st t _).trans (modifyScheduler _ s fun _ => rfl)

theorem startBound (done : st.startBound s t = .ok st') : Bypasses st st' := by
  have threads : Bypasses st (st.modifyScheduler s fun scheduler =>
      { scheduler with bound := scheduler.bound ++ [t] }) := modifyScheduler st s fun _ => rfl
  exact (threads.trans (enlist _ s t)).trans (start done)

variable [Inhabited V]

theorem addTask (st : State V C) (s : SchedulerId) (entry : FrameId) (own : Option Nat) :
    Bypasses st (st.addTask s entry own).2 := ⟨rfl, rfl, fun _ => rfl⟩

theorem spawn {entry : FrameId} {reply : Except HostError TaskId} (done : st.spawn s entry = .ok (reply, st')) :
    Bypasses st st' := by
  simp only [State.spawn, bind_ok] at done
  obtain ⟨scheduler, _, done⟩ := done
  split at done
  · simp only [pure_ok, Prod.mk.injEq] at done
    exact done.2 ▸ .refl st
  · simp only [pure_ok, Prod.mk.injEq] at done
    exact done.2 ▸ (addTask st s entry none).trans (enlist _ s _)

theorem spawnBound {entry : FrameId} {reply : Except HostError TaskId}
    (done : st.spawnBound s entry = .ok (reply, st')) : Bypasses st st' := by
  simp only [State.spawnBound, bind_ok] at done
  obtain ⟨scheduler, _, done⟩ := done
  split at done
  · simp only [pure_ok, Prod.mk.injEq] at done
    exact done.2 ▸ .refl st
  have numbers : Bypasses st (st.modifyScheduler s fun other =>
      { other with nextThread := scheduler.nextThread + 1 }) := modifyScheduler st s fun _ => rfl
  have creates := numbers.trans (addTask _ s entry (some scheduler.nextThread))
  split at done
  · simp only [pure_ok, Prod.mk.injEq] at done
    exact done.2 ▸ creates
  · simp at done
  · simp only [bind_ok, pure_ok, Prod.mk.injEq] at done
    obtain ⟨st₁, started, _, rfl⟩ := done
    exact creates.trans (startBound started)

/-- A request that is not for a payload, a registry or another scheduler. -/
theorem serve {request : Request V C} {reply : request.Reply}
    (other : match request with
      | .newExclusive _ _ | .setPayload _ _ | .newRegistry | .intern _ _ | .closeRegistry _ | .newScheduler _ _ => False
      | _ => True)
    (done : st.serve request = .ok (reply, st')) : Bypasses st st' := by
  cases request with
  | newExclusive | setPayload | newRegistry | intern | closeRegistry | newScheduler => exact other.elim
  | spawn s entry => exact spawn done
  | spawnBound s entry => exact spawnBound done
  | start t =>
    simp only [State.serve, bind_ok, pure_ok, Prod.mk.injEq] at done
    obtain ⟨_, started, _, rfl⟩ := done
    exact start started
  | ready t =>
    simp only [State.serve, bind_ok, pure_ok, Prod.mk.injEq] at done
    obtain ⟨_, woken, _, rfl⟩ := done
    exact ready woken
  | yield t =>
    simp only [State.serve, State.yield, bind_ok, task_ok, check_ok, pure_ok, Prod.mk.injEq] at done
    obtain ⟨_, ⟨_, _, _, rfl⟩, _, rfl⟩ := done
    exact modifyTask st t _
  | waitExternal t =>
    simp only [State.serve, bind_ok, pure_ok, Prod.mk.injEq] at done
    obtain ⟨_, announced, _, rfl⟩ := done
    exact waitExternal announced
  | pause t f =>
    simp only [State.serve, bind_ok, pure_ok, Prod.mk.injEq] at done
    obtain ⟨_, paused, _, rfl⟩ := done
    exact pause paused
  | attach f caller =>
    simp only [State.serve, bind_ok, pure_ok, Prod.mk.injEq] at done
    obtain ⟨_, attached, _, rfl⟩ := done
    exact attach attached
  | move t target =>
    simp only [State.serve, State.move, bind_ok] at done
    obtain ⟨task, _, done⟩ := done
    split at done <;> obtain rfl : _ = st' := congrArg Prod.snd (pure_ok.1 done)
    · exact modifyTask _ t _
    · exact .refl _
  | waitFor t child => exact waitFor done
  | newMessage a message =>
    simp only [State.serve, addMessage, bind_ok, pure_ok] at done
    obtain ⟨_, _, _, _, _, rfl⟩ := done
    exact ⟨rfl, rfl, fun _ => rfl⟩
  | tryAcquire r t =>
    obtain ⟨_, _, ⟨_, _, rfl⟩ | ⟨_, _, rfl⟩⟩ := tryAcquire_ok done
    · exact modifyResource st r _
    · exact .refl _
  | acquire r t => exact acquire done
  | release r t =>
    simp only [State.serve, bind_ok, pure_ok, Prod.mk.injEq] at done
    obtain ⟨_, released, _, rfl⟩ := done
    exact release released
  | stop s =>
    simp only [State.serve, State.stop, bind_ok, pure_ok, Prod.mk.injEq] at done
    obtain ⟨_, ⟨scheduler, _, rfl⟩, _, rfl⟩ := done
    have empties : Bypasses st (st.modifyScheduler s fun s => { s with isShutDown := true, ready := .empty }) :=
      modifyScheduler st s fun _ => rfl
    exact empties.trans (dropLinks _ _)
  | newGuard | newJoin | newResource | newCell | write | update | findCycle | thread =>
    obtain rfl : _ = st' := congrArg Prod.snd (pure_ok.1 done)
    exact ⟨rfl, rfl, fun _ => rfl⟩
  | task | frame | resource | exclusive | actorState | lookup | nameOf | findNative | registry | scheduler
    | stats | read =>
    simp only [State.serve, bind_ok, pure_ok, Prod.mk.injEq] at done
    obtain ⟨_, _, _, rfl⟩ := done
    exact .refl st

/-! ## Resuming frames -/

omit [Inhabited V]

theorem resumeGuard {phase : Phase V} {value : V} {error : Option (Error V)} {answer : Answer V}
    (done : st.resumeGuard t f r phase value error = .ok (answer, st')) : Bypasses st st' := by
  have recodes (st : State V C) (phase : Phase V) : Bypasses st (st.setCode f (.guard r phase)) := modifyFrame st f _
  cases phase with
  | start body =>
    simp only [State.resumeGuard] at done
    split at done
    · simp only [pure_ok, Prod.mk.injEq] at done
      exact done.2 ▸ recodes st .released
    · simp only [bind_ok] at done
      obtain ⟨⟨granted, st₁⟩, acquired, done⟩ := done
      have asks : Bypasses st st₁ := (recodes st .released).trans (acquire acquired)
      dsimp only at done
      split at done
      · exact (asks.trans (recodes st₁ .held)).trans (callFrame done)
      · simp only [pure_ok, Prod.mk.injEq] at done
        exact done.2 ▸ asks.trans (recodes st₁ _)
      · simp only [pure_ok, Prod.mk.injEq] at done
        exact done.2 ▸ asks
  | waiting body kept =>
    simp only [State.resumeGuard, check_ok] at done
    obtain ⟨_, _, done⟩ := done
    exact ((recodes st .released).trans (recodes _ .held)).trans (callFrame done)
  | held =>
    simp only [State.resumeGuard, bind_ok, pure_ok, Prod.mk.injEq] at done
    obtain ⟨st₁, gives, _, rfl⟩ := done
    exact (recodes st .released).trans (release gives)
  | released => simp [State.resumeGuard] at done

theorem resumeJoin {child : TaskId} {parked : Bool} {error : Option (Error V)} {answer : Answer V}
    (done : st.resumeJoin t f child parked error = .ok (answer, st')) : Bypasses st st' := by
  unfold State.resumeJoin at done
  split at done
  · simp only [pure_ok, Prod.mk.injEq] at done
    exact done.2 ▸ .refl st
  · split at done
    · simp only [bind_ok] at done
      obtain ⟨awaited, _, done⟩ := done
      split at done
      · simp only [pure_ok, Prod.mk.injEq] at done
        exact done.2 ▸ .refl st
      · simp at done
    · simp only [bind_ok] at done
      obtain ⟨⟨reply, st₁⟩, waited, done⟩ := done
      have asks := waitFor waited
      split at done <;> simp only [pure_ok, Prod.mk.injEq] at done
      · exact done.2 ▸ asks
      · exact done.2 ▸ asks.trans (modifyFrame st₁ f _)
      · exact done.2 ▸ asks

end Bypasses

end State

end Tasking
