import Tasking.Proofs.Dealing
import Tasking.Proofs.Ring.Scene

/-! # Operations on a scene

What the runtime does within the run of a task of a ring succeeds in the scenes in which the task does it,
and each operation has one lemma that gives the scene behind it.
-/

namespace Tasking.Scenario.Ring

open State

variable {n : Nat} {ring : Layout n} {scene : Scene n} {st : State Unit Nat} {p q x : Fin (n + 1)}
  {seat other : Seat} {role callee : Role} {sheet : Sheet} {rest : List (Fin (n + 1))}

/-- On the way down from a frame of a place one does not meet the target. -/
inductive Apart (ring : Layout n) (p : Fin (n + 1)) (seat : Seat) (target : Role) : Role → Prop where
  | root (role : Role) {sheet : Sheet} (found : seat.frame role = some sheet) (caller : sheet.caller = none)
      (other : role ≠ target) : Apart ring p seat target role
  | above (role below : Role) {sheet : Sheet} (found : seat.frame role = some sheet)
      (caller : sheet.caller = some (ring.frame below p)) (other : role ≠ target)
      (rest : Apart ring p seat target below) : Apart ring p seat target role

namespace Shows

/-! ## Frames -/

theorem isOnChain (shows : Shows ring (scene.set p seat) st) {target : Role}
    (apart : Apart ring p seat target role) :
    st.isOnChain (ring.frame target p) (some (ring.frame role p)) = false := by
  unfold State.isOnChain
  generalize st.frames.size = bound
  induction bound generalizing role with
  | zero => rfl
  | succ bound inductionHypothesis =>
    cases apart with
    | root _ found caller other =>
      have differs : ring.frame role p ≠ ring.frame target p := fun same => other (ring.frame_inj same).1
      simp [State.isOnChainUpTo, differs, shows.frame, found, caller]
    | above _ _ found caller other rest =>
      have differs : ring.frame role p ≠ ring.frame target p := fun same => other (ring.frame_inj same).1
      simp [State.isOnChainUpTo, differs, shows.frame, found, caller, inductionHypothesis rest]

theorem attach (shows : Shows ring (scene.set p seat) st) (found : seat.frame callee = some sheet)
    (apart : Apart ring p seat callee role) : ∃ st',
      st.attach (ring.frame callee p) (some (ring.frame role p)) = .ok st' ∧
      Shows ring (scene.set p (seat.setFrame callee
        (some { sheet with caller := some (ring.frame role p) }))) st' := by
  have attached := shows.modifyFrame callee fun sheet => { sheet with caller := some (ring.frame role p) }
  rw [found] at attached
  refine ⟨_, bind_ok.2 ⟨sheet, ?_, check_ok.2 ⟨?_, rfl⟩⟩, attached⟩
  · exact frame_ok.2 ((shows.frame callee p).trans (by simpa using found))
  · simp [shows.isOnChain apart]

theorem pause (shows : Shows ring (scene.set p seat) st) (f : FrameId) :
    ∃ st', st.pause (ring.task p) f = .ok st' ∧
      Shows ring (scene.set p { seat with task := { seat.task with top := some f } }) st' :=
  ⟨_, bind_ok.2 ⟨_, task_ok.2 (shows.task p), rfl⟩, shows.modifyTask fun task => { task with top := some f }⟩

/-- A frame calls another one of its place. -/
theorem callFrame (shows : Shows ring (scene.set p seat) st) (found : seat.frame callee = some sheet)
    (apart : Apart ring p seat callee role) : ∃ st',
      st.callFrame (ring.task p) (ring.frame role p) (ring.frame callee p) () =
        .ok (.jump (ring.frame callee p) (), st') ∧
      Shows ring (scene.set p { seat.setFrame callee
        (some { sheet with caller := some (ring.frame role p) }) with
          task := { seat.task with top := some (ring.frame callee p) } }) st' := by
  obtain ⟨st₁, attached, shows₁⟩ := shows.attach found apart
  obtain ⟨st₂, paused, shows₂⟩ := shows₁.pause (ring.frame callee p)
  exact ⟨st₂, bind_ok.2 ⟨st₁, attached, bind_ok.2 ⟨st₂, paused, rfl⟩⟩, by simpa using shows₂⟩

/-! ## Counters and queues -/

theorem adjustRunnable (shows : Shows ring scene st) (change : Int) (enough : 0 ≤ scene.runnable + change) :
    ∃ st', st.adjust ring.scheduler .runnable change = .ok st' ∧
      Shows ring { scene with runnable := scene.runnable + change } st' := by
  obtain ⟨scheduler, found, runs⟩ := shows.scheduler
  refine ⟨_, adjust_ok.2 ⟨scheduler, found, ?_, rfl⟩,
    shows.modifyScheduler fun scheduler' found' runs' => ?_⟩
  · simpa [Scheduler.count, runs.runnable] using enough
  · exact ⟨runs'.detection, runs'.tasks, by simp [Scheduler.withCount, Scheduler.count, runs.runnable],
      runs'.external, runs'.queue⟩

theorem adjustTasks (shows : Shows ring scene st) (change : Int) (enough : 0 ≤ scene.tasks + change) :
    ∃ st', st.adjust ring.scheduler .tasks change = .ok st' ∧
      Shows ring { scene with tasks := scene.tasks + change } st' := by
  obtain ⟨scheduler, found, runs⟩ := shows.scheduler
  refine ⟨_, adjust_ok.2 ⟨scheduler, found, ?_, rfl⟩,
    shows.modifyScheduler fun scheduler' found' runs' => ?_⟩
  · simpa [Scheduler.count, runs.tasks] using enough
  · exact ⟨runs'.detection, by simp [Scheduler.withCount, Scheduler.count, runs.tasks], runs'.runnable,
      runs'.external, runs'.queue⟩

/-- A task goes to the end of the ready queue. -/
theorem schedule (shows : Shows ring (scene.set p seat) st) (bound : seat.task.bound = none)
    (free : seat.task.linked = false) (home : seat.task.scheduler = ring.scheduler) :
    ∃ st', st.schedule (ring.task p) = .ok st' ∧
      Shows ring ({ scene with queue := scene.queue ++ [p] }.set p
        { seat with task := { seat.task with linked := true } }) st' := by
  have found := shows.task p
  rw [Scene.seat_set_self] at found
  have claimed := shows.modifyTask fun task => { task with linked := true }
  refine ⟨st.enqueued (ring.task p) ring.scheduler, bind_ok.2 ⟨_, task_ok.2 found, ?_⟩,
    claimed.modifyScheduler fun scheduler _ runs => ?_⟩
  · rw [bound, home]
    exact bind_ok.2 ⟨_, bind_ok.2 ⟨_, task_ok.2 found, check_ok.2 ⟨by simp [free], rfl⟩⟩, rfl⟩
  · exact ⟨runs.detection, runs.tasks, runs.runnable, runs.external, by simp [runs.queue]⟩

/-- The oldest ready task is taken out of the queue. -/
theorem takeReady (shows : Shows ring (scene.set p seat) st) (queue : scene.queue = p :: rest) :
    ∃ st', st.takeReady ring.scheduler = .ok (some (ring.task p), st') ∧
      Shows ring ({ scene with queue := rest }.set p
        { seat with task := { seat.task with linked := false } }) st' := by
  obtain ⟨scheduler, found, runs⟩ := shows.scheduler
  have queued : scheduler.ready.toList = ring.task p :: rest.map ring.task := by simp [runs.queue, queue]
  obtain ⟨others, popped, line⟩ := Line.exists_pop? queued
  refine ⟨st.dequeued (ring.task p) ring.scheduler others, bind_ok.2 ⟨scheduler, scheduler_ok.2 found, ?_⟩, ?_⟩
  · rw [popped]
    rfl
  · have taken : Shows ring ({ scene with queue := rest }.set p seat)
        (st.modifyScheduler ring.scheduler fun scheduler => { scheduler with ready := others }) :=
      shows.modifyScheduler fun _ _ runs => ⟨runs.detection, runs.tasks, runs.runnable, runs.external, line⟩
    exact taken.modifyTask fun task => { task with linked := false }

/-! ## The life of a task -/

/-- A parked task is woken. -/
theorem ready (shows : Shows ring (scene.set p seat) st) (parked : seat.task.life = .waiting)
    (inside : seat.task.external = false) (bound : seat.task.bound = none) (free : seat.task.linked = false)
    (home : seat.task.scheduler = ring.scheduler) (count : 0 ≤ scene.runnable) :
    ∃ st', st.ready (ring.task p) = .ok st' ∧
      Shows ring ({ scene with queue := scene.queue ++ [p], runnable := scene.runnable + 1 }.set p
        { seat with task := { seat.task with
            life := .ready, notified := false, waiting := none, linked := true } }) st' := by
  have found := shows.task p
  rw [Scene.seat_set_self] at found
  have woken := shows.modifyTask fun task => { task with life := .ready, notified := false }
  obtain ⟨st₁, counted, shows₁⟩ := woken.adjustRunnable 1 (by simp; omega)
  replace shows₁ : Shows ring ({ scene with runnable := scene.runnable + 1 }.set p { seat with
      task := { seat.task with life := .ready, notified := false } }) st₁ := shows₁
  have found₁ := shows₁.task p
  rw [Scene.seat_set_self] at found₁
  have finished := shows₁.modifyTask fun task => { task with waiting := none, external := false }
  obtain ⟨st₂, scheduled, shows₂⟩ := finished.schedule bound free home
  refine ⟨st₂, bind_ok.2 ⟨_, task_ok.2 found, ?_⟩, ?_⟩
  · rw [parked, home]
    refine bind_ok.2 ⟨st₁, counted, bind_ok.2 ⟨_, bind_ok.2 ⟨_, task_ok.2 found₁, ?_⟩, scheduled⟩⟩
    simp only [inside]
    rfl
  · simpa [inside] using shows₂

/-- A worker takes up a ready task. -/
theorem beginRun (shows : Shows ring (scene.set p seat) st) (life : seat.task.life = .ready) (w : Worker) :
    ∃ st', st.beginRun (ring.task p) w = .ok st' ∧
      Shows ring (scene.set p { seat with task := { seat.task with
        life := .running, notified := false, worker := some w } }) st' := by
  have found := shows.task p
  rw [Scene.seat_set_self] at found
  have moved := shows.modifyTask fun task => { task with life := .running, notified := false }
  refine ⟨_, bind_ok.2 ⟨_, bind_ok.2 ⟨_, task_ok.2 found, check_ok.2 ⟨?_, rfl⟩⟩, rfl⟩,
    moved.modifyTask fun task => { task with worker := some w }⟩
  simp [life, Life.canMove]

/-- A task that yielded is queued again. -/
theorem parkYielded (shows : Shows ring (scene.set p seat) st) (live : seat.task.life = .running)
    (notified : seat.task.notified = true) (bound : seat.task.bound = none)
    (free : seat.task.linked = false) (home : seat.task.scheduler = ring.scheduler) :
    ∃ st', (st.endRun (ring.task p)).park (ring.task p) = .ok st' ∧
      Shows ring ({ scene with queue := scene.queue ++ [p] }.set p { seat with task := { seat.task with
        life := .ready, notified := false, worker := none, linked := true } }) st' := by
  have ended := shows.modifyTask fun task => { task with worker := none }
  have found := ended.task p
  rw [Scene.seat_set_self] at found
  have moved := ended.modifyTask fun task => { task with life := .ready, notified := false }
  obtain ⟨st', scheduled, shows'⟩ := moved.schedule bound free home
  refine ⟨st', bind_ok.2 ⟨_, task_ok.2 found, ?_⟩, shows'⟩
  simp only [live, notified]
  exact scheduled

/-- A task that waits is parked. -/
theorem parkWaiting (shows : Shows ring (scene.set p seat) st) (live : seat.task.life = .running)
    (quiet : seat.task.notified = false) (waits : seat.task.waiting.isSome = true)
    (home : seat.task.scheduler = ring.scheduler) (count : 1 ≤ scene.runnable) :
    ∃ st', (st.endRun (ring.task p)).park (ring.task p) = .ok st' ∧
      Shows ring ({ scene with runnable := scene.runnable - 1 }.set p { seat with task := { seat.task with
        life := .waiting, notified := false, worker := none } }) st' := by
  have ended := shows.modifyTask fun task => { task with worker := none }
  have found := ended.task p
  rw [Scene.seat_set_self] at found
  have moved := ended.modifyTask fun task => { task with life := .waiting, notified := false }
  obtain ⟨st', counted, shows'⟩ := moved.adjustRunnable (-1) (by simp; omega)
  refine ⟨st', bind_ok.2 ⟨_, task_ok.2 found, ?_⟩, shows'⟩
  have waits' : seat.task.waiting.isNone = false := by simpa using waits
  simp only [live, quiet, waits', home]
  exact counted

/-- A task is at its end. -/
theorem finish (shows : Shows ring (scene.set p seat) st) (live : seat.task.life = .running)
    (alone : seat.task.joiners = .empty) (home : seat.task.scheduler = ring.scheduler)
    (tasks : 1 ≤ scene.tasks) (runnable : 1 ≤ scene.runnable) (result : Except (Error Unit) Unit) :
    ∃ st', (st.endRun (ring.task p)).finish (ring.task p) result = .ok st' ∧
      Shows ring ({ scene with tasks := scene.tasks - 1, runnable := scene.runnable - 1 }.set p
        { seat with task := { seat.task with
            life := finalLife result, notified := false, top := none, value := default, error := none,
            outcome := some (outcomeOf (ring.task p) result), joiners := .empty, worker := none,
            listed := false } }) st' := by
  have ended := shows.modifyTask fun task => { task with worker := none }
  have found := ended.task p
  rw [Scene.seat_set_self] at found
  have moved := ended.modifyTask fun task => { task with life := finalLife result, notified := false }
  have closed := moved.modifyTask fun task =>
    { task with
        top := none, value := default, error := none,
        outcome := some (outcomeOf (ring.task p) result), joiners := .empty }
  have found' := closed.task p
  rw [Scene.seat_set_self] at found'
  have unlisted := closed.modifyTask fun task => { task with listed := false }
  obtain ⟨st₁, counted, shows₁⟩ := unlisted.adjustTasks (-1) (by simp; omega)
  obtain ⟨st₂, counted', shows₂⟩ := shows₁.adjustRunnable (-1) (by simp; omega)
  refine ⟨st₂, bind_ok.2 ⟨_, task_ok.2 found, check_ok.2 ⟨by simp [live], ?_⟩⟩, shows₂⟩
  simp only [alone]
  refine bind_ok.2 ⟨_, rfl, bind_ok.2 ⟨_, task_ok.2 found', ?_⟩⟩
  simp only [home]
  exact bind_ok.2 ⟨st₁, counted, counted'⟩

/-! ## Resources -/

theorem setOwner (shows : Shows ring scene st) (q : Fin (n + 1)) (owner : Option (Fin (n + 1))) :
    Shows ring { scene with owner := Function.update scene.owner q owner }
      (st.setOwner (ring.resource q) (owner.map ring.task)) := by
  have changed := shows.modifyResource q (fun resource => { resource with owner := owner.map ring.task }) owner
    (scene.line q) fun resource found => ⟨rfl, (waiters_of_get? found).symm.trans (shows.line q)⟩
  rwa [Function.update_eq_self] at changed

/-- A task gets in line for a resource. -/
theorem inLine (shows : Shows ring (scene.set p seat) st) (q : Fin (n + 1)) :
    Shows ring ({ scene with line := Function.update scene.line q (scene.line q ++ [p]) }.set p
        { seat with task := { seat.task with waiting := some (.resource (ring.resource q)), linked := true } })
      ((st.announceWait (ring.task p) (.resource (ring.resource q))).inLine (ring.task p)
        (ring.resource q)) := by
  have announced := shows.modifyTask fun task =>
    { task with waiting := some (.resource (ring.resource q)) }
  have claimed := announced.modifyTask fun task => { task with linked := true }
  have changed := claimed.modifyResource q
    (fun resource => { resource with waiters := resource.waiters.push (ring.task p) })
    (scene.owner q) (scene.line q ++ [p])
    fun resource found => ⟨(owner_of_get? found).symm.trans (claimed.owner q), by
      simpa using (waiters_of_get? found).symm.trans (claimed.line q)⟩
  simp only [Scene.owner_set, Function.update_eq_self] at changed
  exact changed

/-- A resource that nobody waits for is given up. -/
theorem releaseLast (shows : Shows ring scene st) (owns : scene.owner q = some p) (last : scene.line q = []) :
    ∃ st', st.release (ring.resource q) (ring.task p) = .ok st' ∧
      Shows ring { scene with owner := Function.update scene.owner q none } st' := by
  obtain ⟨resource, found⟩ := Option.isSome_iff_exists.1 (shows.known q)
  have owner := (owner_of_get? found).symm.trans (shows.owner q)
  have line := (waiters_of_get? found).symm.trans (shows.line q)
  rw [owns] at owner
  rw [last] at line
  refine ⟨_, bind_ok.2 ⟨resource, resource_ok.2 found, check_ok.2 ⟨by simp [owner], ?_⟩⟩,
    shows.setOwner q none⟩
  rw [(Line.pop?_eq_none_iff _).2 line]
  rfl

/-- A resource goes to the task that has waited longest, which is woken. -/
theorem releaseTo (shows : Shows ring (scene.set x other) st) (owns : scene.owner q = some p)
    (line : scene.line q = x :: rest) (parked : other.task.life = .waiting)
    (inside : other.task.external = false) (bound : other.task.bound = none)
    (home : other.task.scheduler = ring.scheduler) (count : 0 ≤ scene.runnable) :
    ∃ st', st.release (ring.resource q) (ring.task p) = .ok st' ∧
      Shows ring ({ scene with
          owner := Function.update scene.owner q (some x), line := Function.update scene.line q rest,
          queue := scene.queue ++ [x], runnable := scene.runnable + 1 }.set x
        { other with task := { other.task with
            life := .ready, notified := false, waiting := none, linked := true } }) st' := by
  obtain ⟨resource, found⟩ := Option.isSome_iff_exists.1 (shows.known q)
  have owner := (owner_of_get? found).symm.trans (shows.owner q)
  have waits := (waiters_of_get? found).symm.trans (shows.line q)
  rw [Scene.owner_set, owns] at owner
  rw [Scene.line_set, line] at waits
  obtain ⟨others, popped, left⟩ := Line.exists_pop? waits
  have changed : Shows ring ({ scene with
      owner := Function.update scene.owner q (some x), line := Function.update scene.line q rest }.set x other)
        (st.modifyResource (ring.resource q) fun resource =>
          { resource with owner := some (ring.task x), waiters := others }) :=
    shows.modifyResource q _ (some x) rest fun _ _ => ⟨rfl, left⟩
  have dropped : Shows ring ({ scene with
      owner := Function.update scene.owner q (some x), line := Function.update scene.line q rest }.set x
        { other with task := { other.task with linked := false } })
      (st.handed (ring.task x) (ring.resource q) others) :=
    changed.modifyTask fun task => { task with linked := false }
  obtain ⟨st', woken, shows'⟩ := dropped.ready parked inside bound rfl home count
  refine ⟨st', bind_ok.2 ⟨resource, resource_ok.2 found, check_ok.2 ⟨by simp [owner], ?_⟩⟩, shows'⟩
  rw [popped]
  exact woken

/-! ## Guards -/

/-- A frame gets other code. -/
theorem setCode (shows : Shows ring (scene.set p seat) st) (found : seat.frame role = some sheet)
    (code : Frame.Code Unit (Body Unit Nat)) :
    Shows ring (scene.set p (seat.setFrame role (some { sheet with code := code })))
      (st.setCode (ring.frame role p) code) := by
  have changed := shows.modifyFrame role fun sheet => { sheet with code := code }
  rw [found] at changed
  exact changed

variable {label : String} {caller : Option FrameId} {phase : Phase Unit}

/-- A guard takes its resource, which is free, and calls its body. -/
theorem guardTakes (shows : Shows ring (scene.set p seat) st)
    (found : seat.frame role = some ⟨label, caller, .guard (ring.resource q) phase⟩)
    (found' : seat.frame callee = some sheet) (differs : callee ≠ role)
    (apart : Apart ring p (seat.setFrame role (some ⟨label, caller, .guard (ring.resource q) .held⟩)) callee role)
    (free : scene.owner q = none) : ∃ st',
      st.resumeGuard (ring.task p) (ring.frame role p) (ring.resource q) (.start (ring.frame callee p)) () none =
        .ok (.jump (ring.frame callee p) (), st') ∧
      Shows ring ({ scene with owner := Function.update scene.owner q (some p) }.set p
        { (seat.setFrame role (some ⟨label, caller, .guard (ring.resource q) .held⟩)).setFrame callee
            (some { sheet with caller := some (ring.frame role p) }) with
          task := { seat.task with top := some (ring.frame callee p) } }) st' := by
  have released := shows.setCode found (.guard (ring.resource q) .released)
  have owned := released.setOwner q (some p)
  have held := @setCode n ring { scene with owner := Function.update scene.owner q (some p) } _ p _ role _
    owned (by rw [Seat.frame_setFrame, if_pos rfl]) (.guard (ring.resource q) .held)
  rw [Seat.setFrame_setFrame] at held
  obtain ⟨st', called, shows'⟩ := held.callFrame (by rwa [Seat.frame_setFrame, if_neg differs]) apart
  have nobody : (st.setCode (ring.frame role p) (.guard (ring.resource q) .released)).owner (ring.resource q) =
      none := by
    rw [released.owner]
    simp [free]
  have acquired := acquire_free (released.known q)
    (by rw [released.task p]; rfl : ((st.setCode (ring.frame role p) _).tasks.get? (ring.task p)).isSome = true)
    nobody
  exact ⟨st', bind_ok.2 ⟨_, acquired, called⟩, by simpa using shows'⟩

/-- A guard was woken as the owner, and calls its body. -/
theorem guardGoesOn (shows : Shows ring (scene.set p seat) st)
    (found : seat.frame role = some ⟨label, caller, .guard (ring.resource q) phase⟩)
    (found' : seat.frame callee = some sheet) (differs : callee ≠ role)
    (apart : Apart ring p (seat.setFrame role (some ⟨label, caller, .guard (ring.resource q) .held⟩)) callee role)
    (owns : scene.owner q = some p) : ∃ st',
      st.resumeGuard (ring.task p) (ring.frame role p) (ring.resource q)
          (.waiting (ring.frame callee p) ()) () none =
        .ok (.jump (ring.frame callee p) (), st') ∧
      Shows ring (scene.set p
        { (seat.setFrame role (some ⟨label, caller, .guard (ring.resource q) .held⟩)).setFrame callee
            (some { sheet with caller := some (ring.frame role p) }) with
          task := { seat.task with top := some (ring.frame callee p) } }) st' := by
  have released := shows.setCode found (.guard (ring.resource q) .released)
  have held := released.setCode (by rw [Seat.frame_setFrame, if_pos rfl]) (.guard (ring.resource q) .held)
  rw [Seat.setFrame_setFrame] at held
  obtain ⟨st', called, shows'⟩ := held.callFrame (by rwa [Seat.frame_setFrame, if_neg differs]) apart
  have owner : (st.setCode (ring.frame role p) (.guard (ring.resource q) .released)).owns (ring.task p)
      (ring.resource q) = true := by
    rw [owns_iff, released.owner]
    simp [owns]
  exact ⟨st', check_ok.2 ⟨by simp [owner], called⟩, by simpa using shows'⟩

/-- A guard asks for a resource in use, and waits for it. -/
theorem guardWaits (role : Role) (shows : Shows ring (scene.set p seat) st)
    (found : seat.frame role = some ⟨label, caller, .guard (ring.resource q) phase⟩) (body : FrameId)
    (owned : scene.owner q ≠ none) (free : seat.task.linked = false)
    (allowed : ∀ st', Shows ring
      (scene.set p (seat.setFrame role (some ⟨label, caller, .guard (ring.resource q) .released⟩))) st' →
        st'.refusal? (ring.task p) (.resource (ring.resource q)) = none) : ∃ st',
      st.resumeGuard (ring.task p) (ring.frame role p) (ring.resource q) (.start body) () none =
        .ok (.suspended, st') ∧
      Shows ring ({ scene with line := Function.update scene.line q (scene.line q ++ [p]) }.set p
        { seat.setFrame role (some ⟨label, caller, .guard (ring.resource q) (.waiting body ())⟩) with
          task := { seat.task with waiting := some (.resource (ring.resource q)), linked := true } }) st' := by
  have released := shows.setCode found (.guard (ring.resource q) .released)
  have lined := released.inLine q
  have waiting := @setCode n ring { scene with line := Function.update scene.line q (scene.line q ++ [p]) } _ p _
    role _ lined (by rw [Seat.frame_withTask, Seat.frame_setFrame, if_pos rfl])
    (.guard (ring.resource q) (.waiting body ()))
  rw [Seat.setFrame_withTask, Seat.setFrame_setFrame] at waiting
  have found' := released.task p
  rw [Scene.seat_set_self, Seat.task_setFrame] at found'
  have owned' : (st.setCode (ring.frame role p) (.guard (ring.resource q) .released)).owner (ring.resource q) ≠
      none := by
    rw [released.owner]
    simpa using owned
  have link' : (st.setCode (ring.frame role p) (.guard (ring.resource q) .released)).link (ring.task p) =
      some (seat.task.scheduler, false) := by
    simp [link, found', free]
  have blocked := acquire_blocked (released.known q) (by simp [found']) owned' (allowed _ released) link'
  refine ⟨_, bind_ok.2 ⟨_, blocked, rfl⟩, ?_⟩
  simpa using waiting

/-- A guard asks for a resource that it is refused. -/
theorem guardRefused (role : Role) (shows : Shows ring (scene.set p seat) st)
    (found : seat.frame role = some ⟨label, caller, .guard (ring.resource q) phase⟩) (body : FrameId)
    (owned : scene.owner q ≠ none) {refusal : Deadlock}
    (refused : ∀ st', Shows ring
      (scene.set p (seat.setFrame role (some ⟨label, caller, .guard (ring.resource q) .released⟩))) st' →
        st'.refusal? (ring.task p) (.resource (ring.resource q)) = some refusal) : ∃ st',
      st.resumeGuard (ring.task p) (ring.frame role p) (ring.resource q) (.start body) () none =
        .ok (.throw (.deadlock refusal), st') ∧
      Shows ring (scene.set p
        (seat.setFrame role (some ⟨label, caller, .guard (ring.resource q) .released⟩))) st' := by
  have released := shows.setCode found (.guard (ring.resource q) .released)
  have owned' : (st.setCode (ring.frame role p) (.guard (ring.resource q) .released)).owner (ring.resource q) ≠
      none := by
    rw [released.owner]
    simpa using owned
  have declined := acquire_refused (released.known q) (by rw [released.task p]; rfl) owned' (refused _ released)
  exact ⟨_, bind_ok.2 ⟨_, declined, rfl⟩, released⟩

/-- A guard whose body is back gives up a resource that nobody waits for. -/
theorem guardLetsGo (role : Role) (shows : Shows ring (scene.set p seat) st)
    (found : seat.frame role = some ⟨label, caller, .guard (ring.resource q) phase⟩)
    (owns : scene.owner q = some p) (last : scene.line q = []) (error : Option (Error Unit)) : ∃ st',
      st.resumeGuard (ring.task p) (ring.frame role p) (ring.resource q) .held () error =
        .ok (.forward () error, st') ∧
      Shows ring ({ scene with owner := Function.update scene.owner q none }.set p
        (seat.setFrame role (some ⟨label, caller, .guard (ring.resource q) .released⟩))) st' := by
  have released := shows.setCode found (.guard (ring.resource q) .released)
  obtain ⟨st', gone, shows'⟩ := released.releaseLast owns last
  exact ⟨st', bind_ok.2 ⟨st', gone, rfl⟩, shows'⟩

/-- A guard whose body is back hands its resource to the task that has waited longest. -/
theorem guardHandsOver (role : Role) (shows : Shows ring ((scene.set x other).set p seat) st)
    (found : seat.frame role = some ⟨label, caller, .guard (ring.resource q) phase⟩)
    (owns : scene.owner q = some p) (line : scene.line q = x :: rest) (apart : x ≠ p)
    (parked : other.task.life = .waiting) (inside : other.task.external = false)
    (bound : other.task.bound = none) (home : other.task.scheduler = ring.scheduler)
    (count : 0 ≤ scene.runnable) (error : Option (Error Unit)) : ∃ st',
      st.resumeGuard (ring.task p) (ring.frame role p) (ring.resource q) .held () error =
        .ok (.forward () error, st') ∧
      Shows ring (({ scene with
          owner := Function.update scene.owner q (some x), line := Function.update scene.line q rest,
          queue := scene.queue ++ [x], runnable := scene.runnable + 1 }.set x
        { other with task := { other.task with
            life := .ready, notified := false, waiting := none, linked := true } }).set p
        (seat.setFrame role (some ⟨label, caller, .guard (ring.resource q) .released⟩))) st' := by
  have released := shows.setCode found (.guard (ring.resource q) .released)
  rw [Scene.set_comm _ _ _ apart.symm] at released
  obtain ⟨st', gone, shows'⟩ := released.releaseTo owns line parked inside bound home count
  refine ⟨st', bind_ok.2 ⟨st', gone, rfl⟩, ?_⟩
  rw [Scene.set_comm _ _ _ apart.symm]
  exact shows'

end Shows

end Tasking.Scenario.Ring
