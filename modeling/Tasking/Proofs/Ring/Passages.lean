import Tasking.Proofs.Joins
import Tasking.Proofs.Ring.Operations
import Tasking.Proofs.Traces

/-! # Passages from scene to scene

`Leads` says that a thread comes from one scene to another, whatever else the state may hold.  Passages are
put together with `Leads.trans`; there is one for each thing that happens in the run of a task of a ring.
-/

namespace Tasking.Scenario.Ring

open State

variable {n : Nat}

/-- A thread comes from one scene to another, and these requests are made on the way. -/
def Leads (ring : Layout n) (a : Scene n) (thread : Agent Unit Nat) (requests : List (TaskId × ResourceId))
    (b : Scene n) (thread' : Agent Unit Nat) : Prop :=
  ∀ st, Shows ring a st → ∃ st', Shows ring b st' ∧
    (thread.config st).Traces requests (thread'.config st')

namespace Leads

variable {ring : Layout n} {a b c : Scene n} {thread thread' thread'' : Agent Unit Nat}
  {requests requests' : List (TaskId × ResourceId)}

theorem refl : Leads ring a thread [] a thread := fun st shows => ⟨st, shows, .refl _⟩

theorem trans (first : Leads ring a thread requests b thread')
    (second : Leads ring b thread' requests' c thread'') :
    Leads ring a thread (requests ++ requests') c thread'' := by
  intro st shows
  obtain ⟨st₁, shows₁, traces₁⟩ := first st shows
  obtain ⟨st₂, shows₂, traces₂⟩ := second st₁ shows₁
  exact ⟨st₂, shows₂, traces₁.trans traces₂⟩

/-- Nothing is asked for before the passage goes on. -/
theorem silent (first : Leads ring a thread [] b thread') (second : Leads ring b thread' requests c thread'') :
    Leads ring a thread requests c thread'' :=
  first.trans second

/-- Nothing more is asked for as the passage goes on. -/
theorem quiet (first : Leads ring a thread requests b thread') (second : Leads ring b thread' [] c thread'') :
    Leads ring a thread requests c thread'' := by
  simpa using first.trans second

/-- A single step. -/
theorem of_step (request : Option (TaskId × ResourceId))
    (step : ∀ st, Shows ring a st → ∃ st', Shows ring b st' ∧
      (thread.config st).step = .ok (thread'.config st') ∧ (thread.config st).asks? = request) :
    Leads ring a thread request.toList b thread' := by
  intro st shows
  obtain ⟨st', shows', stepped, rfl⟩ := step st shows
  exact ⟨st', shows', .one stepped⟩

end Leads

variable {ring : Layout n} {scene b : Scene n} {p q x : Fin (n + 1)} {seat other : Seat}
  {role callee below : Role} {sheet : Sheet} {rest : List (Fin (n + 1))} {after : Focus Unit Nat}
  {stack : List (Activation Unit Nat)} {next : Nat → Program Unit Nat} {runs : Nat} {label : String}
  {caller : Option FrameId}

/-! ## From one run to the next -/

/-- The oldest ready task is taken up. -/
theorem leads_take (queue : scene.queue = p :: rest) (life : seat.task.life = .ready) :
    Leads ring (scene.set p seat) ⟨.drain ring.scheduler runs next, stack⟩ []
      ({ scene with queue := rest }.set p { seat with task := { seat.task with
        linked := false, life := .running, notified := false, worker := some .embedded } })
      ⟨.trampoline (ring.task p) (.drain ring.scheduler (runs + 1) next), stack⟩ := by
  refine Leads.of_step none fun st shows => ?_
  obtain ⟨st₁, taken, shows₁⟩ := shows.takeReady queue
  obtain ⟨st₂, begun, shows₂⟩ := shows₁.beginRun life .embedded
  refine ⟨st₂, shows₂, bind_ok.2 ⟨_, taken, ?_⟩, rfl⟩
  exact bind_ok.2 ⟨_, bind_ok.2 ⟨st₂, begun, rfl⟩, rfl⟩

/-- No task is ready any more. -/
theorem leads_drained (queue : scene.queue = []) :
    Leads ring scene ⟨.drain ring.scheduler runs next, stack⟩ [] scene ⟨.code (next runs), stack⟩ := by
  refine Leads.of_step none fun st shows => ⟨st, shows, ?_, rfl⟩
  obtain ⟨scheduler, found, runs'⟩ := shows.scheduler
  refine bind_ok.2 ⟨(none, st), bind_ok.2 ⟨scheduler, scheduler_ok.2 found, ?_⟩, rfl⟩
  rw [(Line.pop?_eq_none_iff _).2 (runs'.queue.trans (by simp [queue]))]
  rfl

/-- A frame suspends whose task has yielded. -/
theorem leads_yielded (live : seat.task.life = .running) (notified : seat.task.notified = true)
    (bound : seat.task.bound = none) (free : seat.task.linked = false)
    (home : seat.task.scheduler = ring.scheduler) :
    Leads ring (scene.set p seat)
      ⟨.code (.answer .suspended), .frame (ring.task p) (ring.frame role p) after :: stack⟩ []
      ({ scene with queue := scene.queue ++ [p] }.set p { seat with task := { seat.task with
        life := .ready, notified := false, worker := none, linked := true } }) ⟨after, stack⟩ := by
  refine Leads.of_step none fun st shows => ?_
  obtain ⟨st', parked, shows'⟩ := shows.parkYielded live notified bound free home
  exact ⟨st', shows', bind_ok.2 ⟨_, bind_ok.2 ⟨st', parked, rfl⟩, rfl⟩, Config.asks?_answer⟩

/-- A frame suspends whose task waits. -/
theorem leads_parked (live : seat.task.life = .running) (quiet : seat.task.notified = false)
    (waits : seat.task.waiting.isSome = true) (home : seat.task.scheduler = ring.scheduler)
    (count : 1 ≤ scene.runnable) :
    Leads ring (scene.set p seat)
      ⟨.code (.answer .suspended), .frame (ring.task p) (ring.frame role p) after :: stack⟩ []
      ({ scene with runnable := scene.runnable - 1 }.set p { seat with task := { seat.task with
        life := .waiting, notified := false, worker := none } }) ⟨after, stack⟩ := by
  refine Leads.of_step none fun st shows => ?_
  obtain ⟨st', parked, shows'⟩ := shows.parkWaiting live quiet waits home count
  exact ⟨st', shows', bind_ok.2 ⟨_, bind_ok.2 ⟨st', parked, rfl⟩, rfl⟩, Config.asks?_answer⟩

/-! ## Answers -/

/-- A frame jumps to the one that it has put on top of the chain. -/
theorem leads_jump (role callee : Role) (top : seat.task.top = some (ring.frame callee p)) (differs : role ≠ callee)
    (present : (seat.frame role).isSome = true) :
    Leads ring (scene.set p seat)
      ⟨.code (.answer (.jump (ring.frame callee p) ())), .frame (ring.task p) (ring.frame role p) after :: stack⟩
      [] (scene.set p { seat with task := { seat.task with error := none } })
      ⟨.trampoline (ring.task p) after, stack⟩ := by
  refine Leads.of_step none fun st shows => ?_
  obtain ⟨sheet, found⟩ := Option.isSome_iff_exists.1 present
  have found' := shows.task p
  have known := shows.frame role p
  rw [Scene.seat_set_self] at found' known
  have moved := shows.modifyTask fun task => { task with top := some (ring.frame callee p) }
  have landed := moved.modifyTask fun task =>
    { task with top := some (ring.frame callee p), value := (), error := none }
  have apart : ring.frame callee p ≠ ring.frame role p := fun same => differs (ring.frame_inj same).1.symm
  refine ⟨_, by simpa [top] using landed, ?_, Config.asks?_answer⟩
  refine bind_ok.2 ⟨_, task_ok.2 found', bind_ok.2 ⟨sheet, frame_ok.2 (known.trans found), ?_⟩⟩
  simp only [top, Option.some.injEq, apart, false_and, ↓reduceIte]
  rfl

/-- A frame finishes that was called. -/
theorem leads_return (role below : Role) (top : seat.task.top = some (ring.frame role p)) (found : seat.frame role = some sheet)
    (caller : sheet.caller = some (ring.frame below p)) (result : Except (Error Unit) Unit) :
    Leads ring (scene.set p seat)
      ⟨.code (.answer (.ofResult result)), .frame (ring.task p) (ring.frame role p) after :: stack⟩ []
      (scene.set p { seat with task := Config.returnTo seat.task (ring.frame below p) result })
      ⟨.trampoline (ring.task p) after, stack⟩ := by
  refine Leads.of_step none fun st shows => ?_
  have found' := shows.task p
  have known := shows.frame role p
  rw [Scene.seat_set_self] at found' known
  refine ⟨_, shows.modifyTask fun task => Config.returnTo task (ring.frame below p) result, ?_,
    Config.asks?_answer⟩
  have finishes : (⟨st, .code (.answer (.ofResult result)), stack⟩ : Config Unit Nat).finishFrame (ring.task p)
      (ring.frame role p) result after = .ok ⟨st.modifyTask (ring.task p)
        fun task => Config.returnTo task (ring.frame below p) result, .trampoline (ring.task p) after, stack⟩ := by
    refine bind_ok.2 ⟨_, task_ok.2 found', check_ok.2 ⟨by simp [top], ?_⟩⟩
    refine bind_ok.2 ⟨sheet, frame_ok.2 (known.trans found), ?_⟩
    rw [caller]
    rfl
  cases result <;> exact finishes

/-- The last frame of a task finishes. -/
theorem leads_finish (role : Role) (top : seat.task.top = some (ring.frame role p)) (found : seat.frame role = some sheet)
    (caller : sheet.caller = none) (live : seat.task.life = .running) (alone : seat.task.joiners = .empty)
    (home : seat.task.scheduler = ring.scheduler) (tasks : 1 ≤ scene.tasks) (runnable : 1 ≤ scene.runnable)
    (result : Except (Error Unit) Unit) :
    Leads ring (scene.set p seat)
      ⟨.code (.answer (.ofResult result)), .frame (ring.task p) (ring.frame role p) after :: stack⟩ []
      ({ scene with tasks := scene.tasks - 1, runnable := scene.runnable - 1 }.set p
        { seat with task := { seat.task with
            life := finalLife result, notified := false, top := none, value := default, error := none,
            outcome := some (outcomeOf (ring.task p) result), joiners := .empty, worker := none,
            listed := false } }) ⟨after, stack⟩ := by
  refine Leads.of_step none fun st shows => ?_
  have found' := shows.task p
  have known := shows.frame role p
  rw [Scene.seat_set_self] at found' known
  have emptied := shows.modifyTask fun task => { task with top := none }
  obtain ⟨st', finished, shows'⟩ := emptied.finish live alone home tasks runnable result
  refine ⟨st', shows', ?_, Config.asks?_answer⟩
  have finishes : (⟨st, .code (.answer (.ofResult result)), stack⟩ : Config Unit Nat).finishFrame (ring.task p)
      (ring.frame role p) result after = .ok ⟨st', after, stack⟩ := by
    refine bind_ok.2 ⟨_, task_ok.2 found', check_ok.2 ⟨by simp [top], ?_⟩⟩
    refine bind_ok.2 ⟨sheet, frame_ok.2 (known.trans found), ?_⟩
    rw [caller]
    exact bind_ok.2 ⟨_, bind_ok.2 ⟨st', finished, rfl⟩, rfl⟩
  cases result <;> exact finishes

/-! ## Code -/

/-- The code of a frame that the host wrote is run. -/
theorem leads_host (role : Role) (error : Option (Error Unit)) {body : Body Unit Nat}
    (top : seat.task.top = some (ring.frame role p)) (here : seat.task.error = error)
    (found : seat.frame role = some ⟨label, caller, .host body⟩) :
    Leads ring (scene.set p seat) ⟨.trampoline (ring.task p) after, stack⟩ []
      (scene.set p { seat with task := { seat.task with error := none } })
      ⟨.code (body ⟨ring.task p, ring.frame role p⟩ () error),
        .frame (ring.task p) (ring.frame role p) after :: stack⟩ := by
  refine Leads.of_step none fun st shows => ?_
  have found' := shows.task p
  have known := shows.frame role p
  rw [Scene.seat_set_self] at found' known
  refine ⟨_, shows.modifyTask fun task => { task with value := (), error := none }, ?_, ?_⟩
  · rw [← here]
    exact Config.step_host found' top (by rw [State.code?, known, found]; rfl)
  · refine (Config.asks?_trampoline found' top).trans ?_
    simp [State.guard?, known, found, Frame.Code.guard?]

/-- A request is served. -/
theorem leads_ask (request : Request Unit Nat) (reply : request.Reply) {next : request.Reply → Program Unit Nat}
    (other : request.dealing? = none)
    (serves : ∀ st, Shows ring scene st → ∃ st', st.serve request = .ok (reply, st') ∧ Shows ring b st') :
    Leads ring scene ⟨.code (.ask request next), stack⟩ [] b ⟨.code (next reply), stack⟩ := by
  refine Leads.of_step none fun st shows => ?_
  obtain ⟨st', served, shows'⟩ := serves st shows
  refine ⟨st', shows', bind_ok.2 ⟨_, served, rfl⟩, ?_⟩
  simp [Config.asks?, Agent.config, Config.agent, Agent.dealing?, other]

theorem leads_read (y : Note n) {k : Nat} (here : scene.note y = k) {next : Nat → Program Unit Nat} :
    Leads ring scene ⟨.code (.ask (.read (ring.cell y)) next), stack⟩ [] scene ⟨.code (next k), stack⟩ := by
  refine leads_ask (.read (ring.cell y)) k rfl fun st shows => ⟨st, ?_, shows⟩
  exact bind_ok.2 ⟨_, find_ok.2 (here ▸ shows.note y), rfl⟩

theorem leads_write (y : Note n) (k : Nat) {next : Unit → Program Unit Nat} :
    Leads ring scene ⟨.code (.ask (.write (ring.cell y) k) next), stack⟩ [] (scene.setNote y k)
      ⟨.code (next ()), stack⟩ :=
  leads_ask (.write (ring.cell y) k) () rfl fun _ shows => ⟨_, rfl, shows.write y fun _ => k⟩

theorem leads_update (y : Note n) (f : Nat → Nat) {next : Unit → Program Unit Nat} :
    Leads ring scene ⟨.code (.ask (.update (ring.cell y) f) next), stack⟩ []
      (scene.setNote y (f (scene.note y))) ⟨.code (next ()), stack⟩ :=
  leads_ask (.update (ring.cell y) f) () rfl fun _ shows => ⟨_, rfl, shows.write y f⟩

theorem leads_yield (live : seat.task.life = .running) {next : Unit → Program Unit Nat} :
    Leads ring (scene.set p seat) ⟨.code (.ask (.yield (ring.task p)) next), stack⟩ []
      (scene.set p { seat with task := { seat.task with notified := true } }) ⟨.code (next ()), stack⟩ := by
  refine leads_ask (.yield (ring.task p)) () rfl fun st shows => ⟨_, ?_, shows.modifyTask fun task =>
    { task with notified := true }⟩
  have found := shows.task p
  rw [Scene.seat_set_self] at found
  exact bind_ok.2 ⟨_, bind_ok.2 ⟨_, task_ok.2 found, check_ok.2 ⟨by simp [live], rfl⟩⟩, rfl⟩

theorem leads_attach (role callee : Role) (found : seat.frame callee = some sheet) (apart : Apart ring p seat callee role)
    {next : Unit → Program Unit Nat} :
    Leads ring (scene.set p seat)
      ⟨.code (.ask (.attach (ring.frame callee p) (some (ring.frame role p))) next), stack⟩ []
      (scene.set p (seat.setFrame callee (some { sheet with caller := some (ring.frame role p) })))
      ⟨.code (next ()), stack⟩ := by
  refine leads_ask (.attach (ring.frame callee p) (some (ring.frame role p))) () rfl fun st shows => ?_
  obtain ⟨st', attached, shows'⟩ := shows.attach found apart
  exact ⟨st', bind_ok.2 ⟨st', attached, rfl⟩, shows'⟩

theorem leads_pause (f : FrameId) {next : Unit → Program Unit Nat} :
    Leads ring (scene.set p seat) ⟨.code (.ask (.pause (ring.task p) f) next), stack⟩ []
      (scene.set p { seat with task := { seat.task with top := some f } }) ⟨.code (next ()), stack⟩ := by
  refine leads_ask (.pause (ring.task p) f) () rfl fun st shows => ?_
  obtain ⟨st', paused, shows'⟩ := shows.pause f
  exact ⟨st', bind_ok.2 ⟨st', paused, rfl⟩, shows'⟩

/-- A frame is created with code of its own. -/
theorem leads_newFrame (role : Role) {body : Body Unit Nat} {next : FrameId → Program Unit Nat}
    (number : ring.frame role p = ⟨scene.frames + 1⟩) :
    Leads ring (scene.set p seat) ⟨.code (.newFrame label body next), stack⟩ []
      ({ scene with frames := scene.frames + 1 }.set p (seat.setFrame role (some ⟨label, none, .host body⟩)))
      ⟨.code (next (ring.frame role p)), stack⟩ := by
  refine Leads.of_step none fun st shows => ⟨_, shows.addFrame role _ number, ?_, rfl⟩
  rw [number, ← Scene.frames_set scene p seat, ← shows.frames]
  rfl

/-- A guard is created. -/
theorem leads_newGuard (role : Role) {r : ResourceId} {inside : FrameId} {next : FrameId → Program Unit Nat}
    (number : ring.frame role p = ⟨scene.frames + 1⟩) :
    Leads ring (scene.set p seat) ⟨.code (.ask (.newGuard r inside) next), stack⟩ []
      ({ scene with frames := scene.frames + 1 }.set p
        (seat.setFrame role (some ⟨"scoped-acquire", none, .guard r (.start inside)⟩)))
      ⟨.code (next (ring.frame role p)), stack⟩ := by
  refine leads_ask (.newGuard r inside) (ring.frame role p) rfl fun st shows => ⟨_, ?_, shows.addFrame role _ number⟩
  rw [number, ← Scene.frames_set scene p seat, ← shows.frames]
  rfl

/-- A frame calls another one of its place. -/
theorem leads_call (role callee : Role) (known : (seat.frame role).isSome = true)
    (found : seat.frame callee = some sheet) (apart : Apart ring p seat callee role) (differs : role ≠ callee) :
    Leads ring (scene.set p seat)
      ⟨.code (Code.call ⟨ring.task p, ring.frame role p⟩ (ring.frame callee p) () .answer),
        .frame (ring.task p) (ring.frame role p) after :: stack⟩ []
      (scene.set p { seat.setFrame callee (some { sheet with caller := some (ring.frame role p) }) with
        task := { seat.task with top := some (ring.frame callee p), error := none } })
      ⟨.trampoline (ring.task p) after, stack⟩ := by
  refine .silent (leads_attach role callee found apart) (.silent (leads_pause _) ?_)
  have jumps := @leads_jump n ring scene p { seat.setFrame callee
    (some { sheet with caller := some (ring.frame role p) }) with
      task := { seat.task with top := some (ring.frame callee p) } } after stack role callee rfl differs
      (by rwa [Seat.frame_withTask, Seat.frame_setFrame, if_neg differs])
  simp only [Seat.task_setFrame]
  exact jumps

/-! ## Guards -/

/-- What a guard asks for when it is resumed. -/
def request? (t : TaskId) (r : ResourceId) (error : Option (Error Unit)) :
    Phase Unit → Option (TaskId × ResourceId)
  | .start _ => if error.isNone then some (t, r) else none
  | _ => none

/-- A guard is resumed. -/
theorem leads_guard (role : Role) (error : Option (Error Unit)) (phase : Phase Unit) {r : ResourceId}
    {answer : Answer Unit} (top : seat.task.top = some (ring.frame role p)) (here : seat.task.error = error)
    (found : seat.frame role = some ⟨label, caller, .guard r phase⟩)
    (resumes : ∀ st, Shows ring (scene.set p { seat with task := { seat.task with error := none } }) st →
      ∃ st', st.resumeGuard (ring.task p) (ring.frame role p) r phase () error = .ok (answer, st') ∧
        Shows ring b st') :
    Leads ring (scene.set p seat) ⟨.trampoline (ring.task p) after, stack⟩
      (request? (ring.task p) r error phase).toList b
      ⟨.code (.answer answer), .frame (ring.task p) (ring.frame role p) after :: stack⟩ := by
  refine Leads.of_step _ fun st shows => ?_
  have found' := shows.task p
  have known := shows.frame role p
  rw [Scene.seat_set_self] at found' known
  have unloaded := shows.modifyTask fun task => { task with value := (), error := none }
  obtain ⟨st', resumed, shows'⟩ := resumes _ unloaded
  refine ⟨st', shows', bind_ok.2 ⟨_, task_ok.2 found', ?_⟩, ?_⟩
  · rw [top, here]
    refine bind_ok.2 ⟨(⟨.answer answer, none⟩, st'), ?_, rfl⟩
    refine bind_ok.2 ⟨_, frame_ok.2 (known.trans found), ?_⟩
    exact bind_ok.2 ⟨(answer, st'), resumed, rfl⟩
  · refine (Config.asks?_trampoline found' top).trans ?_
    rw [State.guard?, known, found, here]
    cases phase <;> rfl

/-- A guard takes its resource, which is free, and calls its body. -/
theorem leads_enter (role callee : Role) (top : seat.task.top = some (ring.frame role p))
    (well : seat.task.error = none)
    (found : seat.frame role = some ⟨label, caller, .guard (ring.resource q) (.start (ring.frame callee p))⟩)
    (found' : seat.frame callee = some sheet) (differs : callee ≠ role)
    (apart : Apart ring p (seat.setFrame role (some ⟨label, caller, .guard (ring.resource q) .held⟩)) callee role)
    (free : scene.owner q = none) :
    Leads ring (scene.set p seat) ⟨.trampoline (ring.task p) after, stack⟩ [(ring.task p, ring.resource q)]
      ({ scene with owner := Function.update scene.owner q (some p) }.set p
        { (seat.setFrame role (some ⟨label, caller, .guard (ring.resource q) .held⟩)).setFrame callee
            (some { sheet with caller := some (ring.frame role p) }) with
          task := { seat.task with top := some (ring.frame callee p), error := none } })
      ⟨.trampoline (ring.task p) after, stack⟩ := by
  have guards := @leads_guard n ring scene _ p seat after stack label caller role none _ _ _ top well found
    fun st shows => by
      rw [Seat.unloaded_eq well] at shows
      exact shows.guardTakes found found' differs apart free
  refine guards.trans (leads_jump role callee rfl differs.symm ?_)
  rw [Seat.frame_withTask, Seat.frame_setFrame, if_neg differs.symm, Seat.frame_setFrame, if_pos rfl]
  rfl

/-- A guard was woken as the owner, and calls its body. -/
theorem leads_goOn (role callee : Role) (top : seat.task.top = some (ring.frame role p))
    (well : seat.task.error = none)
    (found : seat.frame role =
      some ⟨label, caller, .guard (ring.resource q) (.waiting (ring.frame callee p) ())⟩)
    (found' : seat.frame callee = some sheet) (differs : callee ≠ role)
    (apart : Apart ring p (seat.setFrame role (some ⟨label, caller, .guard (ring.resource q) .held⟩)) callee role)
    (owns : scene.owner q = some p) :
    Leads ring (scene.set p seat) ⟨.trampoline (ring.task p) after, stack⟩ []
      (scene.set p
        { (seat.setFrame role (some ⟨label, caller, .guard (ring.resource q) .held⟩)).setFrame callee
            (some { sheet with caller := some (ring.frame role p) }) with
          task := { seat.task with top := some (ring.frame callee p), error := none } })
      ⟨.trampoline (ring.task p) after, stack⟩ := by
  have guards := @leads_guard n ring scene _ p seat after stack label caller role none _ _ _ top well found
    fun st shows => by
      rw [Seat.unloaded_eq well] at shows
      exact shows.guardGoesOn found found' differs apart owns
  refine guards.silent (leads_jump role callee rfl differs.symm ?_)
  rw [Seat.frame_withTask, Seat.frame_setFrame, if_neg differs.symm, Seat.frame_setFrame, if_pos rfl]
  rfl

end Tasking.Scenario.Ring
