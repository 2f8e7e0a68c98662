import Tasking.Proofs.Bystanding
import Tasking.Proofs.Ledger

/-! # A task runs once at a time

If nobody forces a task from one stage to another, then a task is in hand at most once
(`Crew.Run.unshared`): no two threads go on with its run, and no thread goes on with it inside of itself.
-/

namespace Tasking

variable {V C : Type}

namespace State

variable {st st' : State V C} {t u : TaskId}

/-- What code may ask for that forces no task from one stage to another. -/
def Unmoving (_ : State V C) (request : Request V C) : Prop := ∀ u target, request ≠ .move u target

/-- Tasks that run keep running. -/
def Continues (st st' : State V C) : Prop := ∀ u, st.life u = some .running → st'.life u = some .running

theorem Continues.of_life (same : ∀ u, st'.life u = st.life u) : Continues st st' :=
  fun u live => (same u).trans live

theorem Continues.of_tasks (same : st'.tasks = st.tasks) : Continues st st' :=
  .of_life fun u => by rw [State.life, same, State.life]

theorem Continues.of_touches (touches : Touches (fun u => st.tasks.get? u = none) st st') :
    Continues st st' := by
  intro u live
  obtain ⟨task, found, same⟩ := Option.map_eq_some_iff.1 live
  have stands := touches.stance (Option.isSome_of_eq_some found) (by simp [found])
  rw [stance_of_get? found] at stands
  exact (life_of_stance (stands : st'.stance u = some (task.life, _, _, _))).trans (congrArg some same)

theorem Continues.of_aside (aside : Aside st st') : Continues st st' := by
  refine .of_life fun u => ?_
  rcases aside.rel u with ⟨gone, gone'⟩ | ⟨task, task', found, found', same⟩
  · rw [State.life, gone', State.life, gone]
  · rw [life_of_get? found, life_of_get? found', same]

theorem continues_of_acquire {r : ResourceId} {granted : Except Deadlock Grant}
    (done : st.acquire r t = .ok (granted, st')) : Continues st st' := by
  obtain ⟨_, _, ⟨_, _, rfl⟩ | ⟨_, ⟨_, _, _, rfl⟩ | ⟨_, _, _, rfl⟩⟩⟩ := acquire_ok done
  · exact .of_tasks rfl
  · exact fun _ => id
  · intro u live
    have announced : Continues st (st.announceWait t (.resource r)) :=
      .of_life fun u => life_modifyTask_keep (f := fun task => { task with waiting := some (.resource r) })
        (fun _ => rfl) u
    have linked : Continues (st.announceWait t (.resource r)) ((st.announceWait t (.resource r)).inLine t r) :=
      .of_life fun u => life_modifyTask_keep (f := fun task => { task with linked := true }) (fun _ => rfl) u
    exact linked u (announced u live)

theorem continues_of_release {r : ResourceId} (done : st.release r t = .ok st') : Continues st st' := by
  obtain ⟨_, _, ⟨_, rfl⟩ | ⟨next, rest, _, woken⟩⟩ := release_ok done
  · exact .of_tasks rfl
  · intro u live
    have handed : Continues st (st.handed next r rest) :=
      .of_life fun u => life_modifyTask_keep (f := fun task => { task with linked := false }) (fun _ => rfl) u
    exact (Quiet.ready woken).running (handed u live)

section

variable [Inhabited V]

/-- Only a forced move takes a task out of its run while code runs. -/
theorem continues_of_serve {request : Request V C} {reply : request.Reply}
    (unforced : st.Unmoving request) (done : st.serve request = .ok (reply, st')) :
    Continues st st' := by
  by_cases bookless : request.bookless = true
  · exact .of_tasks (serve_bookless bookless done).1
  · cases request with
    | spawn s entry => exact .of_touches (touches_spawn done)
    | spawnBound s entry => exact .of_touches (touches_spawnBound done)
    | start t =>
      simp only [serve, bind_ok, pure_ok, Prod.mk.injEq] at done
      obtain ⟨_, started, _, rfl⟩ := done
      exact fun _ => (Quiet.start started).running
    | ready t =>
      simp only [serve, bind_ok, pure_ok, Prod.mk.injEq] at done
      obtain ⟨_, woken, _, rfl⟩ := done
      exact fun _ => (Quiet.ready woken).running
    | yield t =>
      simp only [serve, bind_ok, pure_ok, Prod.mk.injEq] at done
      obtain ⟨_, yielded, _, rfl⟩ := done
      exact fun _ => (Quiet.yield yielded).running
    | waitExternal t =>
      simp only [serve, bind_ok, pure_ok, Prod.mk.injEq] at done
      obtain ⟨_, announced, _, rfl⟩ := done
      exact fun _ => (Quiet.waitExternal announced).running
    | waitFor t child => exact fun _ => (Quiet.waitFor done).running
    | stop s =>
      simp only [serve, bind_ok, pure_ok, Prod.mk.injEq] at done
      obtain ⟨_, stopped, _, rfl⟩ := done
      exact fun _ => (Quiet.stop stopped).running
    | pause t f =>
      simp only [serve, bind_ok, pure_ok, Prod.mk.injEq] at done
      obtain ⟨_, paused, _, rfl⟩ := done
      exact .of_aside (.of_pause paused)
    | tryAcquire r t =>
      obtain ⟨_, _, ⟨_, _, rfl⟩ | ⟨_, _, rfl⟩⟩ := tryAcquire_ok done
      · exact .of_tasks rfl
      · exact fun _ => id
    | acquire r t => exact continues_of_acquire done
    | release r t =>
      simp only [serve, bind_ok, pure_ok, Prod.mk.injEq] at done
      obtain ⟨_, released, _, rfl⟩ := done
      exact continues_of_release released
    | newScheduler settings g =>
      obtain rfl | ⟨workers, rfl⟩ := addScheduler_ok done
      · exact fun _ => id
      · exact .of_tasks rfl
    | move t target => exact absurd rfl (unforced t target)
    | _ => simp [Request.bookless] at bookless

theorem continues_of_deeds (deeds : Deeds Unmoving st st') :
    Continues st st' := by
  obtain ⟨st₁, st₂, earlier, deed, later⟩ := deeds
  have during : Continues st₁ st₂ := by
    cases deed with
    | aside aside => exact .of_aside aside
    | serve permitted served => exact continues_of_serve permitted served
    | acquire acquired => exact continues_of_acquire acquired
    | release released => exact continues_of_release released
    | waitFor waited => exact fun _ => (Quiet.waitFor waited).running
  exact fun u live => Continues.of_aside later u (during u (Continues.of_aside earlier u live))

theorem continues_of_finish {result : Except (Error V) V} (done : st.finish t result = .ok st')
    (other : u ≠ t) (live : st.life u = some .running) : st'.life u = some .running := by
  obtain ⟨task, found⟩ := exists_of_task done
  obtain ⟨_, st₁, woken, retired⟩ := finish_ok found done
  refine (Quiet.retire retired).running ((Quiet.readyAll woken).running ?_)
  rw [State.life, (becomes_closed found).other other]
  exact live

end

end State

namespace Crew

variable {c c' : Crew V C} {t : TaskId} {label : Option (TaskId × FrameId)}

/-- What code keeps to that does not force a task from one stage to another. -/
def Unmoved (_ : Crew V C) (a : Agent V C) : Prop :=
  match a.focus with
  | .code (.ask (.move _ _) _) => False
  | _ => True

/-- A task that is in hand is so once, and is in its running stage. -/
structure Unshared (c : Crew V C) : Prop where
  once : c.inHand.Nodup
  live : ∀ {t}, t ∈ c.inHand → c.state.life t = some .running

theorem inHand_perm (st : State V C) (before after : List (Agent V C)) (a : Agent V C) :
    (inHand ⟨st, before ++ a :: after⟩).Perm (a.inHand ++ (before ++ after).flatMap Agent.inHand) := by
  simp only [inHand, List.flatMap_append, List.flatMap_cons]
  exact List.perm_append_comm_assoc _ _ _

variable [Inhabited V]

theorem Unshared.act {st : State V C} {before after : List (Agent V C)} {a : Agent V C} {config : Config V C}
    (unshared : Unshared ⟨st, before ++ a :: after⟩) (unmoved : Unmoved ⟨st, before ++ a :: after⟩ a)
    (step : (a.config st).step = .ok config) :
    Unshared ⟨config.state, before ++ ⟨config.focus, config.stack⟩ :: after⟩ := by
  have split := inHand_perm st before after a
  have split' := inHand_perm config.state before after ⟨config.focus, config.stack⟩
  have once := split.nodup_iff.1 unshared.once
  have live : ∀ {u}, u ∈ a.inHand ++ (before ++ after).flatMap Agent.inHand → st.life u = some .running :=
    fun member => unshared.live (split.mem_iff.2 member)
  -- It is enough to look at the tasks in hand of this thread first, and of the others behind them.
  suffices whole : (config.agent.inHand ++ (before ++ after).flatMap Agent.inHand).Nodup ∧
      ∀ u ∈ config.agent.inHand ++ (before ++ after).flatMap Agent.inHand, config.state.life u = some .running from
    ⟨split'.nodup_iff.2 whole.1, fun {u} member => whole.2 u (split'.mem_iff.1 member)⟩
  have permitted : ∀ request next, (a.config st).focus = .code (.ask request next) →
      State.Unmoving (a.config st).state request := by
    rintro request next focus u target rfl
    simp only [Unmoved, show a.focus = .code (.ask (.move u target) next) from focus] at unmoved
  cases Config.course_of_step permitted step with
  | deeds deeds inHand =>
    rw [inHand]
    exact ⟨once, fun u member => State.continues_of_deeds deeds u (live member)⟩
  | @begins t w st₁ taken begun inHand =>
    obtain ⟨quiet, ready, running⟩ := State.Quiet.beginRun begun
    have earlier : State.Continues st st₁ ∧ st.life t = some .ready := by
      obtain ⟨s, _, taken⟩ | ⟨_, rfl⟩ := taken
      · refine ⟨fun _ => (State.Quiet.takeReady taken).running, ?_⟩
        have same := congrArg (Option.map fun bears => bears.1.1) (Config.bearing_takeReady taken t)
        rw [Option.map_map, Option.map_map] at same
        exact same.symm.trans ready
      · exact ⟨fun _ => id, ready⟩
    rw [inHand, List.cons_append, List.nodup_cons]
    refine ⟨⟨fun member => ?_, once⟩, fun u member => ?_⟩
    · simp [live member] at earlier
    · rcases List.mem_cons.1 member with rfl | member
      · exact running
      · exact quiet.running (earlier.1 u (live member))
  | @parks t st₁ aside parked inHand =>
    rw [show a.inHand = t :: config.agent.inHand from inHand, List.cons_append, List.nodup_cons] at once
    refine ⟨once.2, fun u member => ?_⟩
    refine (State.Stops.park parked).1.live (fun same => once.1 (same ▸ member)) ?_
    exact State.Continues.of_aside aside u (live (by rw [show a.inHand = _ from inHand]; exact .tail t member))
  | @finishes t result st₁ aside finished inHand =>
    rw [show a.inHand = t :: config.agent.inHand from inHand, List.cons_append, List.nodup_cons] at once
    refine ⟨once.2, fun u member => ?_⟩
    refine State.continues_of_finish finished (fun same => once.1 (same ▸ member)) ?_
    exact State.Continues.of_aside aside u (live (by rw [show a.inHand = _ from inHand]; exact .tail t member))

theorem Unshared.step (unshared : c.Unshared) (step : Step Unmoved c label c') : c'.Unshared := by
  cases step with
  | act unmoved step => exact unshared.act unmoved step
  | @join st agents a new =>
    have nothing : a.inHand = [] := by cases new <;> rfl
    have same : inHand ⟨st, agents ++ [a]⟩ = inHand ⟨st, agents⟩ := by simp [inHand, nothing]
    exact ⟨same ▸ unshared.once, fun member => unshared.live (same ▸ member)⟩
  | @lapse st before after condition limit next stack =>
    have same : inHand ⟨st, before ++ ⟨.code next, stack⟩ :: after⟩ =
        inHand ⟨st, before ++ ⟨.waiting condition limit next, stack⟩ :: after⟩ := by
      simp [inHand, Agent.inHand, Focus.inHand]
    exact ⟨same ▸ unshared.once, fun member => unshared.live (same ▸ member)⟩
  | switch thread => exact ⟨unshared.once, unshared.live⟩

/-- At every moment of a run a task is in hand once at most, and only while it is in its running stage. -/
theorem Run.unshared (run : Run V C Unmoved) : ∀ i ≤ run.length, (run.crew i).Unshared := by
  intro i
  induction i with
  | zero =>
    intro _
    obtain ⟨parallelism, starts⟩ := run.starts
    rw [starts]
    exact ⟨List.nodup_nil, fun member => absurd member (List.not_mem_nil)⟩
  | succ i inductionHypothesis =>
    intro bound
    exact (inductionHypothesis (by omega)).step (run.steps i bound)

omit [Inhabited V] in
/-- The thread that goes on with the run of a task is the only one that has it in hand. -/
theorem Unshared.takenUp (unshared : c.Unshared) {after : Focus V C} {rest : List (Activation V C)}
    (member : ⟨.trampoline t after, rest⟩ ∈ c.agents) :
    c.hands t = [⟨.trampoline t after, rest⟩] ∧ t ∉ after.inHand ∧ t ∉ rest.flatMap Activation.inHand := by
  obtain ⟨st, agents⟩ := c
  obtain ⟨before, behind, rfl⟩ := List.append_of_mem member
  have once := (inHand_perm st before behind _).nodup_iff.1 unshared.once
  rw [show (⟨.trampoline t after, rest⟩ : Agent V C).inHand =
    t :: (after.inHand ++ rest.flatMap Activation.inHand) from rfl, List.cons_append, List.nodup_cons] at once
  simp only [List.mem_append, List.flatMap_append, List.mem_flatMap, not_or, not_exists, not_and] at once
  obtain ⟨⟨⟨out, out'⟩, front, back⟩, _⟩ := once
  refine ⟨?_, out, by simpa using out'⟩
  rw [hands_split, if_pos (by simp [Agent.inHand, Focus.inHand]),
    List.filter_eq_nil_iff.2 fun a inside => by simpa using front a inside,
    List.filter_eq_nil_iff.2 fun a inside => by simpa using back a inside]
  rfl

end Crew

end Tasking
