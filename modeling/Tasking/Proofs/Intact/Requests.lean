import Tasking.Proofs.Intact.Payloads

/-! # Requests that break nothing

Whatever a careful program asks for is served, unless it names something that does not exist.
-/

namespace Tasking

open Picture

variable {V C : Type}

namespace State

variable {st : State V C} {t : TaskId}

/-- The only fault with a thread is its name. -/
theorem threadObstacle_foreign {settings : Settings} {index : Nat} {fault : Fault}
    (met : settings.threadObstacle? index = some (.fault fault)) : fault.isForeign = true := by
  unfold Settings.threadObstacle? at met
  dsimp only at met
  split at met
  · cases met
    rfl
  · obtain ⟨_, _, same⟩ := Option.map_eq_some_iff.1 met
    cases same

theorem addScheduler_safe (settings : Settings) (g : RegistryId) : Safe (st.addScheduler settings g) := by
  unfold State.addScheduler
  split
  · exact .pure _
  · next fault met =>
    intro crash failed
    obtain rfl := Except.error.inj failed
    unfold Settings.obstacle? at met
    split at met
    · cases met
    · split at met
      · exact threadObstacle_foreign met
      · cases met
  · exact .pure _

/-- A frame may return to another one if it is not on the other one's chain. -/
theorem attach_safe (acyclic : Acyclic st.caller) {f : FrameId} {caller : Option FrameId}
    (apart : ∀ k, caller = some k → ¬ Reaches st.caller k f) : Safe (st.attach f caller) := by
  unfold State.attach
  refine .bind (.frame f) fun frame found => .check (fun on => ?_) (.pure _)
  cases caller with
  | none => cases on
  | some k =>
    have known : (st.frames.get? f).isSome = true := by simp [frame_ok.1 found]
    rw [isOnChain_iff] at on
    exact apart k rfl ((mem_chain_iff acyclic known).1 on)

theorem pause_safe (t : TaskId) (f : FrameId) : Safe (st.pause t f) := .bind (.task t) fun _ _ => .pure _

end State

namespace Crew

open State

variable [Inhabited V] {c : Crew V C}

/-- Serving a careful thread. -/
theorem Careful.serve_safe {request : Request V C} {next : request.Reply → Program V C}
    {stack : List (Activation V C)} (careful : c.Careful ⟨.code (.ask request next), stack⟩)
    (sound : c.Sound) (orderly : c.Orderly) (member : ⟨.code (.ask request next), stack⟩ ∈ c.agents) :
    Safe (c.state.serve request) := by
  have guarded : c.picture.Permits (stack.filterMap Activation.run?).head? request := careful.guarded
  have regular : c.Allows stack request next := careful.proper.2
  have consents := careful.consents
  -- A frame that arranges to wait runs for its task.
  have running {t : TaskId} {program : Program V C} (parks : Agent.Parks ⟨.code program, stack⟩ t) :
      ∃ task, c.state.tasks.get? t = some task ∧ task.life = .running := by
    obtain ⟨f, head⟩ := parks.1
    exact Orderly.get?_of_run sound member (List.mem_of_mem_head? head)
  cases request with
  | tryAcquire | acquire | release | move => exact guarded.elim
  | waitFor => exact regular.elim
  | spawn s entry => exact spawn_safe s entry
  | spawnBound s entry => exact orderly.balanced.spawnBound_safe entry regular
  | start t =>
    obtain ⟨task, found, new⟩ := Option.map_eq_some_iff.1 consents
    exact .bind (orderly.balanced.start_safe found new) fun _ _ => .pure _
  | ready t =>
    obtain ⟨task, found, external⟩ := regular
    have waits := (orderly.balanced.sane found).external.1 external
    refine .bind (Booked.ready_safe orderly.balanced (fun _ _ => le_rfl) found (by simp [waits]) (.inr ?_)) fun _ _ =>
      .pure _
    simp [Task.place?, waits]
  | yield t =>
    obtain ⟨task, found, live⟩ := running regular
    exact .bind (yield_safe found live) fun _ _ => .pure _
  | waitExternal t =>
    obtain ⟨task, found, live⟩ := running regular
    exact .bind (orderly.balanced.waitExternal_safe found live) fun _ _ => .pure _
  | pause t f => exact .bind (pause_safe t f) fun _ _ => .pure _
  | attach f caller =>
    -- Nothing returns to a fresh frame.
    refine .bind (attach_safe sound.warded.acyclic fun k same way => ?_) fun _ _ => .pure _
    obtain rfl | ⟨h, _, link⟩ := way.cases_last
    · exact consents.2 same
    · exact consents.1.uncalled h link
  | task t => exact .bind (.task t) fun _ _ => .pure _
  | frame f => exact .bind (.bind (.frame f) fun _ _ => .pure _) fun _ _ => .pure _
  | newMessage a message => exact .bind (.actor a) fun _ _ => .bind (.exclusive _) fun _ _ => .pure _
  | resource r => exact .bind (.resource r) fun _ _ => .pure _
  | exclusive x => exact .bind (.exclusive x) fun _ _ => .pure _
  | actorState a => exact .bind (.actor a) fun _ _ => .pure _
  | intern g name =>
    refine .bind (.registry g) fun registry _ => ?_
    split
    · exact .pure _
    · exact .pure _
  | lookup g | nameOf g | findNative g | registry g => exact .bind (.registry g) fun _ _ => .pure _
  | newScheduler settings g => exact addScheduler_safe settings g
  | scheduler s | stats s => exact .bind (.scheduler s) fun _ _ => .pure _
  | stop s => exact .bind (.bind (.scheduler s) fun _ _ => .pure _) fun _ _ => .pure _
  | read i => exact .bind (.cell i) fun _ _ => .pure _
  | _ => exact .pure _

end Crew

end Tasking
