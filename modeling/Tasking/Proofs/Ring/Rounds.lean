import Tasking.Proofs.Ring.Passages

/-! # The runs of the tasks of a ring -/

namespace Tasking.Scenario.Ring

open State

variable {n : Nat} {ring : Layout n} {scene : Scene n} {p q x : Fin (n + 1)} {seat other : Seat}
  {rest : List (Fin (n + 1))} {after : Focus Unit Nat} {stack : List (Activation Unit Nat)}
  {next : Nat → Program Unit Nat} {runs : Nat}

/-! ## What is at a place between two runs -/

section

variable (ring : Layout n) (p : Fin (n + 1))

def entrySheet (phase : Phase Unit) : Sheet := ⟨"scoped-acquire", none, .guard (ring.resource p) phase⟩

def bodySheet (caller : Option FrameId) : Sheet :=
  ⟨"rendezvous", caller, .host (rendezvous (n + 1) (ring.memory p) (ring.resource (p + 1)))⟩

def guardSheet (caller : Option FrameId) (phase : Phase Unit) : Sheet :=
  ⟨"scoped-acquire", caller, .guard (ring.resource (p + 1)) phase⟩

def innerSheet (caller : Option FrameId) : Sheet := ⟨"frame", caller, .host innermost⟩

/-- The task of a place when it was just spawned. -/
def newcomer : Task Unit := { Task.new ring.scheduler (ring.frame .entry p) none with listed := true }

/-- The task of a place while it runs, with the given frame on top. -/
def runner (top : Role) (error : Option (Error Unit)) : Task Unit :=
  { newcomer ring p with
      life := .running, worker := some .embedded, top := some (ring.frame top p), error := error }

namespace Seat

/-- The task was started. -/
def fresh : Seat where
  task := { newcomer ring p with life := .ready, linked := true }
  entry := some (entrySheet ring p (.start (ring.frame .body p)))
  body := some (bodySheet ring p none)
  guard := none
  inner := none
  counted := 0
  asked := 0

/-- The task holds its first resource, and its frames above that are those of its body. -/
def inBody (task : Task Unit) (counted : Nat) : Seat where
  task := task
  entry := some (entrySheet ring p .held)
  body := some (bodySheet ring p (some (ring.frame .entry p)))
  guard := none
  inner := none
  counted := counted
  asked := 0

/-- The task waits until all tasks hold a resource. -/
def met : Seat := inBody ring p
  { newcomer ring p with life := .ready, linked := true, top := some (ring.frame .body p) } 1

/-- The task has asked for its second resource. -/
def asking (task : Task Unit) (phase : Phase Unit) (inner : Option FrameId) : Seat where
  task := task
  entry := some (entrySheet ring p .held)
  body := some (bodySheet ring p (some (ring.frame .entry p)))
  guard := some (guardSheet ring p (some (ring.frame .body p)) phase)
  inner := some (innerSheet inner)
  counted := 1
  asked := 1

/-- The task waits for its second resource. -/
def parked : Seat := asking ring p
  { newcomer ring p with
      life := .waiting, linked := true, top := some (ring.frame .guard p)
      waiting := some (.resource (ring.resource (p + 1))) }
  (.waiting (ring.frame .inner p) ()) none

/-- The task was woken as the owner of its second resource. -/
def granted : Seat := asking ring p
  { newcomer ring p with life := .ready, linked := true, top := some (ring.frame .guard p) }
  (.waiting (ring.frame .inner p) ()) none

/-- The task is at its end. -/
def ended (result : Except (Error Unit) Unit) (inner : Option FrameId) : Seat where
  task := { newcomer ring p with
    life := finalLife result, top := none, outcome := some (outcomeOf (ring.task p) result), listed := false }
  entry := some (entrySheet ring p .released)
  body := some (bodySheet ring p (some (ring.frame .entry p)))
  guard := some (guardSheet ring p (some (ring.frame .body p)) .released)
  inner := some (innerSheet inner)
  counted := 1
  asked := 1

end Seat

/-! ## The code of a body -/

/-- What the body does when it knows how many tasks hold a resource. -/
def decides (held : Nat) : Program Unit Nat :=
  if held < n + 1 then
    .ask (.yield (ring.task p)) fun _ => .answer .suspended
  else
    .ask (.write (ring.cell (.asked p)) 1) fun _ =>
    .newFrame "frame" innermost fun body =>
    .ask (.newGuard (ring.resource (p + 1)) body) fun guarded =>
    Code.call ⟨ring.task p, ring.frame .body p⟩ guarded () .answer

theorem rendezvous_eq :
    rendezvous (n + 1) (ring.memory p) (ring.resource (p + 1)) ⟨ring.task p, ring.frame .body p⟩ () none =
      .ask (.read (ring.cell (.asked p))) fun asked =>
        if asked ≠ 0 then .answer (.done ()) else
          .ask (.read (ring.cell (.counted p))) fun counted =>
            if counted = 0 then
              .ask (.write (ring.cell (.counted p)) 1) fun _ =>
              .ask (.update (ring.cell .holding) (· + 1)) fun _ =>
              .ask (.read (ring.cell .holding)) (decides ring p)
            else
              .ask (.read (ring.cell .holding)) (decides ring p) := by
  have branches : ∀ {α : Type} {c : Prop} [Decidable c] (yes no : Code Unit Nat α) (next : α → Program Unit Nat),
      (if c then yes else no) next = if c then yes next else no next := by
    intro α c _ yes no next
    split <;> rfl
  refine congrArg (Program.ask (Request.read (ring.cell (.asked p)))) (funext fun asked => ?_)
  refine (branches _ _ _).trans (ite_congr rfl (fun _ => rfl) fun _ => ?_)
  refine congrArg (Program.ask (Request.read (ring.cell (.counted p)))) (funext fun counted => ?_)
  refine (branches _ _ _).trans (ite_congr rfl (fun _ => ?_) fun _ => ?_)
  · refine congrArg (Program.ask (Request.write (ring.cell (.counted p)) 1)) (funext fun _ => ?_)
    refine congrArg (Program.ask (Request.update (ring.cell .holding) (· + 1))) (funext fun _ => ?_)
    exact congrArg (Program.ask (Request.read (ring.cell .holding))) (funext fun held => branches _ _ _)
  · exact congrArg (Program.ask (Request.read (ring.cell .holding))) (funext fun held => branches _ _ _)

end

/-- How a task ends whose guards get an error, or none. -/
def resultOf : Option (Error Unit) → Except (Error Unit) Unit
  | none => .ok ()
  | some error => .error error

theorem forward_eq (error : Option (Error Unit)) :
    (Answer.forward () error : Answer Unit) = .ofResult (resultOf error) := by
  cases error <;> rfl

/-! ## Parts of runs -/

/-- A task takes its first resource and counts itself. -/
theorem comes (scene : Scene n) (free : scene.owner p = none) :
    Leads ring ({ scene with queue := p :: rest }.set p (.fresh ring p)) ⟨.drain ring.scheduler runs next, stack⟩
      [(ring.task p, ring.resource p)]
      ({ scene with
          queue := rest, owner := Function.update scene.owner p (some p), holding := scene.holding + 1 }.set p
        (.inBody ring p (runner ring p .body none) 1))
      ⟨.code (decides ring p (scene.holding + 1)), .frame (ring.task p) (ring.frame .body p)
        (.drain ring.scheduler (runs + 1) next) :: stack⟩ := by
  refine .silent (leads_take rfl rfl) ?_
  refine .quiet (leads_enter .entry .body rfl rfl rfl rfl (by decide) (.root .entry rfl rfl (by decide)) free) ?_
  refine .silent (leads_host .body none rfl rfl rfl) ?_
  rw [rendezvous_eq]
  refine .silent (leads_read (.asked p) (Scene.note_asked ..)) ?_
  refine .silent (leads_read (.counted p) (Scene.note_counted ..)) ?_
  refine .silent (leads_write (.counted p) 1) ?_
  rw [Scene.setNote_counted]
  refine .silent (leads_update .holding (· + 1)) ?_
  exact leads_read .holding rfl

/-- A task that has yielded looks again how many tasks hold a resource. -/
theorem comesBack (scene : Scene n) :
    Leads ring ({ scene with queue := p :: rest }.set p (.met ring p)) ⟨.drain ring.scheduler runs next, stack⟩ []
      ({ scene with queue := rest }.set p (.inBody ring p (runner ring p .body none) 1))
      ⟨.code (decides ring p scene.holding), .frame (ring.task p) (ring.frame .body p)
        (.drain ring.scheduler (runs + 1) next) :: stack⟩ := by
  refine .silent (leads_take rfl rfl) ?_
  refine .silent (leads_host .body none rfl rfl rfl) ?_
  rw [rendezvous_eq]
  refine .silent (leads_read (.asked p) (Scene.note_asked ..)) ?_
  refine .silent (leads_read (.counted p) (Scene.note_counted ..)) ?_
  exact leads_read .holding rfl

/-- A task that finds too few others yields. -/
theorem yields {held : Nat} (few : held < n + 1) :
    Leads ring (scene.set p (.inBody ring p (runner ring p .body none) 1))
      ⟨.code (decides ring p held), .frame (ring.task p) (ring.frame .body p) after :: stack⟩ []
      ({ scene with queue := scene.queue ++ [p] }.set p (.met ring p)) ⟨after, stack⟩ := by
  rw [decides, if_pos few]
  exact .silent (leads_yield rfl) (leads_yielded rfl rfl rfl rfl rfl)

/-- A task that finds all others calls the guard of its second resource. -/
theorem asks {held : Nat} (all : ¬ held < n + 1) (inner : ring.frame .inner p = ⟨scene.frames + 1⟩)
    (guard : ring.frame .guard p = ⟨scene.frames + 2⟩) :
    Leads ring (scene.set p (.inBody ring p (runner ring p .body none) 1))
      ⟨.code (decides ring p held), .frame (ring.task p) (ring.frame .body p) after :: stack⟩ []
      ({ scene with frames := scene.frames + 2 }.set p
        (.asking ring p (runner ring p .guard none) (.start (ring.frame .inner p)) none))
      ⟨.trampoline (ring.task p) after, stack⟩ := by
  rw [decides, if_neg all]
  refine .silent (leads_write (.asked p) 1) ?_
  rw [Scene.setNote_asked]
  refine .silent (leads_newFrame .inner inner) ?_
  refine .silent (leads_newGuard .guard guard) ?_
  refine .silent (leads_call .body .guard rfl rfl ?_ (by decide)) .refl
  exact .above .body .entry rfl rfl (by decide) (.root .entry rfl rfl (by decide))

/-- A task asks for its second resource, which is in use, and is parked. -/
theorem waits (owned : scene.owner (p + 1) ≠ none) (count : 1 ≤ scene.runnable)
    (allowed : ∀ st, Shows ring
      (scene.set p (.asking ring p (runner ring p .guard none) .released none)) st →
        st.refusal? (ring.task p) (.resource (ring.resource (p + 1))) = none) :
    Leads ring (scene.set p (.asking ring p (runner ring p .guard none) (.start (ring.frame .inner p)) none))
      ⟨.trampoline (ring.task p) after, stack⟩ [(ring.task p, ring.resource (p + 1))]
      ({ scene with
          line := Function.update scene.line (p + 1) (scene.line (p + 1) ++ [p]),
          runnable := scene.runnable - 1 }.set p (.parked ring p)) ⟨after, stack⟩ := by
  refine .quiet (leads_guard .guard none (.start (ring.frame .inner p)) rfl rfl rfl fun st shows =>
    shows.guardWaits .guard rfl (ring.frame .inner p) owned rfl allowed) ?_
  exact leads_parked rfl rfl rfl rfl count

/-- A task asks for its second resource and is refused: its guard throws, and its body passes the error on. -/
theorem fails (owned : scene.owner (p + 1) ≠ none) {refusal : Deadlock}
    (refused : ∀ st, Shows ring
      (scene.set p (.asking ring p (runner ring p .guard none) .released none)) st →
        st.refusal? (ring.task p) (.resource (ring.resource (p + 1))) = some refusal) :
    Leads ring (scene.set p (.asking ring p (runner ring p .guard none) (.start (ring.frame .inner p)) none))
      ⟨.trampoline (ring.task p) after, stack⟩ [(ring.task p, ring.resource (p + 1))]
      (scene.set p (.asking ring p (runner ring p .entry (some (.deadlock refusal))) .released none))
      ⟨.trampoline (ring.task p) after, stack⟩ := by
  refine .quiet (leads_guard .guard none (.start (ring.frame .inner p)) rfl rfl rfl fun st shows =>
    shows.guardRefused .guard rfl (ring.frame .inner p) owned refused) ?_
  refine .silent (leads_return .guard .body rfl rfl rfl (.error (.deadlock refusal))) ?_
  refine .silent (leads_host .body (some (.deadlock refusal)) rfl rfl rfl) ?_
  exact leads_return .body .entry rfl rfl rfl (.error (.deadlock refusal))

/-- A task that was woken as the owner of its second resource gives it up again, and its body is done. -/
theorem goesOn (scene : Scene n) (owns : scene.owner (p + 1) = some p) (last : scene.line (p + 1) = []) :
    Leads ring ({ scene with queue := p :: rest }.set p (.granted ring p))
      ⟨.drain ring.scheduler runs next, stack⟩ []
      ({ scene with queue := rest, owner := Function.update scene.owner (p + 1) none }.set p
        (.asking ring p (runner ring p .entry none) .released (some (ring.frame .guard p))))
      ⟨.trampoline (ring.task p) (.drain ring.scheduler (runs + 1) next), stack⟩ := by
  refine .silent (leads_take rfl rfl) ?_
  refine .silent (leads_goOn .guard .inner rfl rfl rfl rfl (by decide) ?_ owns) ?_
  · exact .above .guard .body rfl rfl (by decide)
      (.above .body .entry rfl rfl (by decide) (.root .entry rfl rfl (by decide)))
  refine .silent (leads_host .inner none rfl rfl rfl) ?_
  refine .silent (leads_return .inner .guard rfl rfl rfl (.ok ())) ?_
  refine .silent (leads_guard .guard none .held rfl rfl rfl fun st shows =>
    shows.guardLetsGo .guard rfl owns last none) ?_
  refine .silent (leads_return .guard .body rfl rfl rfl (.ok ())) ?_
  refine .silent (leads_host .body none rfl rfl rfl) ?_
  rw [rendezvous_eq]
  refine .silent (leads_read (.asked p) (Scene.note_asked ..)) ?_
  exact leads_return .body .entry rfl rfl rfl (.ok ())

/-- A task gives up its first resource, which nobody waits for, and ends. -/
theorem endsLast (error : Option (Error Unit)) (inner : Option FrameId) (owns : scene.owner p = some p)
    (last : scene.line p = []) (tasks : 1 ≤ scene.tasks) (runnable : 1 ≤ scene.runnable) :
    Leads ring (scene.set p (.asking ring p (runner ring p .entry error) .released inner))
      ⟨.trampoline (ring.task p) after, stack⟩ []
      ({ scene with
          owner := Function.update scene.owner p none, tasks := scene.tasks - 1,
          runnable := scene.runnable - 1 }.set p (.ended ring p (resultOf error) inner)) ⟨after, stack⟩ := by
  refine .silent (leads_guard .entry error .held rfl rfl rfl fun st shows =>
    shows.guardLetsGo .entry rfl owns last error) ?_
  rw [forward_eq]
  refine .silent (leads_finish .entry rfl rfl rfl rfl rfl rfl ?_ ?_ _) .refl
  · exact tasks
  · exact runnable

/-- A task hands its first resource to the task that waits for it, and ends. -/
theorem endsHanding (error : Option (Error Unit)) (inner : Option FrameId) (owns : scene.owner p = some p)
    (apart : x ≠ p) (line : scene.line p = [x]) (tasks : 1 ≤ scene.tasks)
    (runnable : 1 ≤ scene.runnable) :
    Leads ring ((scene.set x (.parked ring x)).set p
        (.asking ring p (runner ring p .entry error) .released inner))
      ⟨.trampoline (ring.task p) after, stack⟩ []
      (({ scene with
          owner := Function.update scene.owner p (some x), line := Function.update scene.line p [],
          tasks := scene.tasks - 1, queue := scene.queue ++ [x] }.set x (.granted ring x)).set p
        (.ended ring p (resultOf error) inner)) ⟨after, stack⟩ := by
  have leaves : Leads ring ((scene.set x (.parked ring x)).set p
        (.asking ring p (runner ring p .entry error) .released inner))
      ⟨.trampoline (ring.task p) after, stack⟩ []
      (({ scene with
          owner := Function.update scene.owner p (some x), line := Function.update scene.line p [],
          tasks := scene.tasks - 1, runnable := scene.runnable + 1 - 1, queue := scene.queue ++ [x] }.set x
        (.granted ring x)).set p (.ended ring p (resultOf error) inner)) ⟨after, stack⟩ := by
    refine .silent (leads_guard .entry error .held rfl rfl rfl fun st shows =>
      shows.guardHandsOver .entry rfl owns line apart rfl rfl rfl rfl (by omega) error) ?_
    rw [forward_eq]
    refine .silent (leads_finish .entry rfl rfl rfl rfl rfl rfl ?_ ?_ _) .refl
    · exact tasks
    · show 1 ≤ scene.runnable + 1
      omega
  rwa [add_sub_cancel_right] at leaves

end Tasking.Scenario.Ring
