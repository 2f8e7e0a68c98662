import Mathlib
import Tasking.Proofs.Effects
import Tasking.Scenario.Ring

/-! # Scenes of a ring

A ring has `n + 1` places.  To each belong a task, a resource, the cells in which the task takes its notes,
and up to four frames: the guard of the first resource with its body, and the guard of the second one with
its own body.  `Layout` says under which numbers all this is found.

A `Scene` is what a state has there, and `Shows` that a state has it.  Whatever a run of a task changes is a
change of the scene, with one lemma for each thing that changes.
-/

namespace Tasking.Scenario.Ring

/-- A ring has a place. -/
instance (priority := 2000) placed (n : Nat) : NeZero (n + 1) := ⟨n.succ_ne_zero⟩

/-- What a frame is for: to guard the first resource, to run while that is held, to guard the second
    resource, to run while that is held too. -/
inductive Role where
  | entry | body | guard | inner
  deriving DecidableEq

/-- What a cell is for: to count the tasks that hold a resource, and what each task remembers. -/
inductive Note (n : Nat) where
  | holding
  | counted (p : Fin (n + 1))
  | asked (p : Fin (n + 1))
  deriving DecidableEq

/-- The numbers of whatever belongs to a ring. -/
structure Layout (n : Nat) where
  scheduler : SchedulerId
  task : Fin (n + 1) → TaskId
  resource : Fin (n + 1) → ResourceId
  frame : Role → Fin (n + 1) → FrameId
  cell : Note n → CellId
  task_inj : ∀ {p q}, task p = task q → p = q
  resource_inj : ∀ {p q}, resource p = resource q → p = q
  frame_inj : ∀ {a b p q}, frame a p = frame b q → a = b ∧ p = q
  cell_inj : ∀ {x y}, cell x = cell y → x = y

/-- The cells of the task at a place. -/
def Layout.memory {n : Nat} (ring : Layout n) (p : Fin (n + 1)) : Memory :=
  ⟨ring.cell .holding, ring.cell (.counted p), ring.cell (.asked p)⟩

/-- A frame of the host code of a ring. -/
abbrev Sheet := Frame Unit (Body Unit Nat)

/-- What belongs to one place: the task, its frames so far, and what it noted down. -/
structure Seat where
  task : Task Unit
  entry : Option Sheet
  body : Option Sheet
  guard : Option Sheet
  inner : Option Sheet
  counted : Nat
  asked : Nat

namespace Seat

/-- The frame with the given role. -/
def frame (seat : Seat) : Role → Option Sheet
  | .entry => seat.entry
  | .body => seat.body
  | .guard => seat.guard
  | .inner => seat.inner

/-- Put a frame in the place of the one with the given role. -/
def setFrame (seat : Seat) (role : Role) (sheet : Option Sheet) : Seat :=
  match role with
  | .entry => { seat with entry := sheet }
  | .body => { seat with body := sheet }
  | .guard => { seat with guard := sheet }
  | .inner => { seat with inner := sheet }

theorem frame_setFrame (seat : Seat) (role : Role) (sheet : Option Sheet) (a : Role) :
    (seat.setFrame role sheet).frame a = if a = role then sheet else seat.frame a := by
  cases role <;> cases a <;> rfl

@[simp] theorem task_setFrame (seat : Seat) (role : Role) (sheet : Option Sheet) :
    (seat.setFrame role sheet).task = seat.task := by
  cases role <;> rfl

@[simp] theorem counted_setFrame (seat : Seat) (role : Role) (sheet : Option Sheet) :
    (seat.setFrame role sheet).counted = seat.counted := by
  cases role <;> rfl

@[simp] theorem asked_setFrame (seat : Seat) (role : Role) (sheet : Option Sheet) :
    (seat.setFrame role sheet).asked = seat.asked := by
  cases role <;> rfl

@[simp] theorem setFrame_setFrame (seat : Seat) (role : Role) (sheet sheet' : Option Sheet) :
    (seat.setFrame role sheet).setFrame role sheet' = seat.setFrame role sheet' := by
  cases role <;> rfl

@[simp] theorem frame_withTask (seat : Seat) (task : Task Unit) (role : Role) :
    ({ seat with task := task } : Seat).frame role = seat.frame role := by
  cases role <;> rfl

@[simp] theorem setFrame_withTask (seat : Seat) (task : Task Unit) (role : Role) (sheet : Option Sheet) :
    ({ seat with task := task } : Seat).setFrame role sheet = { seat.setFrame role sheet with task := task } := by
  cases role <;> rfl

/-- Without an error, a resume takes nothing from the task. -/
theorem unloaded_eq {seat : Seat} (well : seat.task.error = none) :
    ({ seat with task := { seat.task with error := none } } : Seat) = seat := by
  rw [← well]

end Seat

/-- All places of a ring, and what they share: who owns each resource and who waits for it, how many tasks
    hold one, the counters and the queue of the scheduler, and the number of frames. -/
structure Scene (n : Nat) where
  seat : Fin (n + 1) → Seat
  owner : Fin (n + 1) → Option (Fin (n + 1))
  line : Fin (n + 1) → List (Fin (n + 1))
  holding : Nat
  tasks : Int
  runnable : Int
  queue : List (Fin (n + 1))
  frames : Nat

namespace Scene

variable {n : Nat}

/-- The scene with another seat at a place. -/
def set (scene : Scene n) (p : Fin (n + 1)) (seat : Seat) : Scene n :=
  { scene with seat := Function.update scene.seat p seat }

/-- What a cell holds. -/
def note (scene : Scene n) : Note n → Nat
  | .holding => scene.holding
  | .counted p => (scene.seat p).counted
  | .asked p => (scene.seat p).asked

variable (scene : Scene n) (p q : Fin (n + 1)) (seat seat' : Seat)

@[simp] theorem seat_set_self : (scene.set p seat).seat p = seat := Function.update_self ..

theorem seat_set : (scene.set p seat).seat q = if q = p then seat else scene.seat q := by
  simp [set, Function.update_apply]

theorem seat_set_ne {p q : Fin (n + 1)} (other : q ≠ p) : (scene.set p seat).seat q = scene.seat q :=
  Function.update_of_ne other ..

/-- A change of a seat is none for whatever does not depend on it. -/
theorem map_seat_set {α : Type} (f : Seat → α) (same : f seat' = f seat) :
    f ((scene.set p seat').seat q) = f ((scene.set p seat).seat q) := by
  rw [seat_set, seat_set]
  split
  · exact same
  · rfl

@[simp] theorem set_set : (scene.set p seat).set p seat' = scene.set p seat' := by
  simp [set]

@[simp] theorem set_seat : scene.set p (scene.seat p) = scene := by
  simp [set]

@[simp] theorem owner_set : (scene.set p seat).owner = scene.owner := rfl
@[simp] theorem line_set : (scene.set p seat).line = scene.line := rfl
@[simp] theorem holding_set : (scene.set p seat).holding = scene.holding := rfl
@[simp] theorem tasks_set : (scene.set p seat).tasks = scene.tasks := rfl
@[simp] theorem runnable_set : (scene.set p seat).runnable = scene.runnable := rfl
@[simp] theorem queue_set : (scene.set p seat).queue = scene.queue := rfl
@[simp] theorem frames_set : (scene.set p seat).frames = scene.frames := rfl

theorem set_comm {p q : Fin (n + 1)} (other : q ≠ p) :
    (scene.set p seat).set q seat' = (scene.set q seat').set p seat := by
  simp [set, Function.update_comm other]

theorem note_set (counted : seat'.counted = seat.counted) (asked : seat'.asked = seat.asked) (x : Note n) :
    (scene.set p seat').note x = (scene.set p seat).note x := by
  cases x with
  | holding => rfl
  | counted q => exact map_seat_set scene p q seat seat' Seat.counted counted
  | asked q => exact map_seat_set scene p q seat seat' Seat.asked asked

/-- The scene after something was written into a cell. -/
def setNote (scene : Scene n) : Note n → Nat → Scene n
  | .holding, k => { scene with holding := k }
  | .counted p, k => scene.set p { scene.seat p with counted := k }
  | .asked p, k => scene.set p { scene.seat p with asked := k }

@[simp] theorem setNote_holding (k : Nat) :
    (scene.set p seat).setNote .holding k = { scene with holding := k }.set p seat := rfl

@[simp] theorem setNote_counted (k : Nat) :
    (scene.set p seat).setNote (.counted p) k = scene.set p { seat with counted := k } := by
  simp [setNote]

@[simp] theorem setNote_asked (k : Nat) :
    (scene.set p seat).setNote (.asked p) k = scene.set p { seat with asked := k } := by
  simp [setNote]

@[simp] theorem note_holding : (scene.set p seat).note .holding = scene.holding := rfl

@[simp] theorem note_counted : (scene.set p seat).note (.counted p) = seat.counted := by
  simp [note]

@[simp] theorem note_asked : (scene.set p seat).note (.asked p) = seat.asked := by
  simp [note]

theorem note_setNote (x y : Note n) (k : Nat) :
    (scene.setNote x k).note y = if y = x then k else scene.note y := by
  cases x <;> cases y <;> simp [setNote, note, seat_set]
  case counted.counted p q => split <;> simp_all
  case counted.asked p q => split <;> simp_all
  case asked.counted p q => split <;> simp_all
  case asked.asked p q => split <;> simp_all

end Scene

/-- The counters and the queue of a scheduler are those of a scene. -/
structure Runs {n : Nat} (ring : Layout n) (scene : Scene n) (scheduler : Scheduler) : Prop where
  detection : scheduler.settings.deadlockDetection = true
  tasks : scheduler.tasks = scene.tasks
  runnable : scheduler.runnable = scene.runnable
  external : scheduler.external = 0
  queue : scheduler.ready.toList = scene.queue.map ring.task

/-- A state has what a scene says, and neither tasks nor resources besides. -/
structure Shows {n : Nat} (ring : Layout n) (scene : Scene n) (st : State Unit Nat) : Prop where
  task : ∀ p, st.tasks.get? (ring.task p) = some (scene.seat p).task
  frame : ∀ role p, st.frames.get? (ring.frame role p) = (scene.seat p).frame role
  note : ∀ x, st.cells.get? (ring.cell x) = some (scene.note x)
  known : ∀ p, (st.resources.get? (ring.resource p)).isSome = true
  owner : ∀ p, st.owner (ring.resource p) = (scene.owner p).map ring.task
  line : ∀ p, st.waiters (ring.resource p) = (scene.line p).map ring.task
  scheduler : ∃ scheduler, st.schedulers.get? ring.scheduler = some scheduler ∧ Runs ring scene scheduler
  frames : st.frames.size = scene.frames
  everyone : ∀ t, (st.tasks.get? t).isSome = true → ∃ p, t = ring.task p
  everything : ∀ r, (st.resources.get? r).isSome = true → ∃ p, r = ring.resource p

namespace Shows

variable {n : Nat} {ring : Layout n} {scene : Scene n} {st : State Unit Nat} {p q : Fin (n + 1)}
  {seat : Seat} {role : Role} {sheet : Sheet}

/-! ## Changes of a place -/

theorem modifyTask (shows : Shows ring (scene.set p seat) st) (f : Task Unit → Task Unit) :
    Shows ring (scene.set p { seat with task := f seat.task }) (st.modifyTask (ring.task p) f) where
  task q := by
    rw [State.get?_modifyTask, Scene.seat_set]
    split
    · next same =>
      rw [if_pos (ring.task_inj same), shows.task, Scene.seat_set_self]
      rfl
    · next other =>
      have other : q ≠ p := fun same => other (by rw [same])
      rw [if_neg other, shows.task, Scene.seat_set_ne _ _ other]
  frame role q := by
    rw [Scene.map_seat_set scene p q seat _ (Seat.frame · role) (by cases role <;> rfl)]
    exact shows.frame role q
  note x := by
    rw [Scene.note_set scene p seat _ (by rfl) (by rfl)]
    exact shows.note x
  known := shows.known
  owner := shows.owner
  line := shows.line
  scheduler := by
    obtain ⟨scheduler, found, runs⟩ := shows.scheduler
    exact ⟨scheduler, found, runs.detection, runs.tasks, runs.runnable, runs.external, runs.queue⟩
  frames := shows.frames
  everyone t known := by
    apply shows.everyone
    rw [State.get?_modifyTask] at known
    split at known
    · next same => simpa [same] using known
    · exact known
  everything := shows.everything

theorem modifyFrame (shows : Shows ring (scene.set p seat) st) (role : Role) (f : Sheet → Sheet) :
    Shows ring (scene.set p (seat.setFrame role ((seat.frame role).map f)))
      (st.modifyFrame (ring.frame role p) f) where
  task q := by
    rw [Scene.map_seat_set scene p q seat _ Seat.task (by simp)]
    exact shows.task q
  frame a q := by
    rw [State.get?_modifyFrame, Scene.seat_set]
    split
    · next same =>
      obtain ⟨rfl, rfl⟩ := ring.frame_inj same
      rw [if_pos rfl, shows.frame, Scene.seat_set_self, Seat.frame_setFrame, if_pos rfl]
    · next other =>
      rw [shows.frame, Scene.seat_set]
      split
      · next same =>
        rw [Seat.frame_setFrame, if_neg fun equal => other (by rw [equal, same])]
      · rfl
  note x := by
    rw [Scene.note_set scene p seat _ (by simp) (by simp)]
    exact shows.note x
  known := shows.known
  owner := shows.owner
  line := shows.line
  scheduler := by
    obtain ⟨scheduler, found, runs⟩ := shows.scheduler
    exact ⟨scheduler, found, runs.detection, runs.tasks, runs.runnable, runs.external, runs.queue⟩
  frames := by
    rw [Scene.frames_set, ← Scene.frames_set scene p seat, ← shows.frames]
    exact Table.size_modify ..
  everyone := shows.everyone
  everything := shows.everything

/-- A new frame gets the number that the layout has for it. -/
theorem addFrame (shows : Shows ring (scene.set p seat) st) (role : Role) (sheet : Sheet)
    (next : ring.frame role p = ⟨scene.frames + 1⟩) :
    Shows ring ({ scene with frames := scene.frames + 1 }.set p (seat.setFrame role (some sheet)))
      (st.addFrame sheet).2 where
  task q := by
    rw [Scene.map_seat_set _ p q seat _ Seat.task (by simp)]
    exact shows.task q
  frame a q := by
    have number : st.frames.next = ring.frame role p := by
      rw [next, ← Scene.frames_set scene p seat, ← shows.frames]
      rfl
    rw [State.addFrame, Table.get?_add_eq, number, Scene.seat_set]
    split
    · next same =>
      obtain ⟨rfl, rfl⟩ := ring.frame_inj same
      rw [if_pos rfl, Seat.frame_setFrame, if_pos rfl]
    · next other =>
      rw [shows.frame, Scene.seat_set]
      split
      · next same =>
        rw [Seat.frame_setFrame, if_neg fun equal => other (by rw [equal, same])]
      · rfl
  note x := by
    rw [Scene.note_set _ p seat _ (by simp) (by simp)]
    refine (shows.note x).trans ?_
    cases x <;> rfl
  known := shows.known
  owner := shows.owner
  line := shows.line
  scheduler := by
    obtain ⟨scheduler, found, runs⟩ := shows.scheduler
    exact ⟨scheduler, found, runs.detection, runs.tasks, runs.runnable, runs.external, runs.queue⟩
  frames := by
    rw [Scene.frames_set, ← Scene.frames_set scene p seat, ← shows.frames]
    exact Table.size_add ..
  everyone := shows.everyone
  everything := shows.everything

theorem write (shows : Shows ring scene st) (x : Note n) (f : Nat → Nat) :
    Shows ring (scene.setNote x (f (scene.note x)))
      { st with cells := st.cells.modify (ring.cell x) f } where
  task q := by
    refine (shows.task q).trans ?_
    cases x with
    | holding => rfl
    | counted p | asked p =>
      simp only [Scene.setNote, Scene.seat_set]
      split
      · next same => rw [same]
      · rfl
  frame role q := by
    refine (shows.frame role q).trans ?_
    cases x with
    | holding => rfl
    | counted p | asked p =>
      simp only [Scene.setNote, Scene.seat_set]
      split
      · next same => rw [same]; cases role <;> rfl
      · rfl
  note y := by
    rw [Scene.note_setNote, Table.get?_modify]
    split
    · next same =>
      rw [if_pos (ring.cell_inj same), shows.note]
      rfl
    · next other => rw [if_neg fun equal => other (by rw [equal]), shows.note]
  known := shows.known
  owner q := by
    refine (shows.owner q).trans ?_
    cases x <;> rfl
  line q := by
    refine (shows.line q).trans ?_
    cases x <;> rfl
  scheduler := by
    obtain ⟨scheduler, found, runs⟩ := shows.scheduler
    refine ⟨scheduler, found, ?_⟩
    cases x <;> exact ⟨runs.detection, runs.tasks, runs.runnable, runs.external, runs.queue⟩
  frames := by
    refine shows.frames.trans ?_
    cases x <;> rfl
  everyone := shows.everyone
  everything := shows.everything

/-! ## Changes of what the places share -/

/-- A resource gets another owner, or other tasks wait for it. -/
theorem modifyResource (shows : Shows ring scene st) (q : Fin (n + 1)) (f : Resource → Resource)
    (owner : Option (Fin (n + 1))) (line : List (Fin (n + 1)))
    (changes : ∀ resource, st.resources.get? (ring.resource q) = some resource →
      (f resource).owner = owner.map ring.task ∧ (f resource).waiters.toList = line.map ring.task) :
    Shows ring { scene with
        owner := Function.update scene.owner q owner, line := Function.update scene.line q line }
      (st.modifyResource (ring.resource q) f) where
  task := shows.task
  frame := shows.frame
  note x := by
    refine (shows.note x).trans ?_
    cases x <;> rfl
  known p := by
    rw [State.get?_modifyResource]
    split
    · simpa using shows.known q
    · exact shows.known p
  owner p := by
    obtain ⟨resource, found⟩ := Option.isSome_iff_exists.1 (shows.known q)
    simp only [State.owner, State.get?_modifyResource]
    split
    · next same =>
      obtain rfl := ring.resource_inj same
      rw [found, Function.update_self]
      exact (changes resource found).1
    · next other =>
      rw [Function.update_of_ne fun equal => other (by rw [equal])]
      exact shows.owner p
  line p := by
    obtain ⟨resource, found⟩ := Option.isSome_iff_exists.1 (shows.known q)
    simp only [State.waiters, State.get?_modifyResource]
    split
    · next same =>
      obtain rfl := ring.resource_inj same
      rw [found, Function.update_self]
      exact (changes resource found).2
    · next other =>
      rw [Function.update_of_ne fun equal => other (by rw [equal])]
      exact shows.line p
  scheduler := by
    obtain ⟨scheduler, found, runs⟩ := shows.scheduler
    exact ⟨scheduler, found, runs.detection, runs.tasks, runs.runnable, runs.external, runs.queue⟩
  frames := shows.frames
  everyone := shows.everyone
  everything r known := by
    apply shows.everything
    rw [State.get?_modifyResource] at known
    split at known
    · next same => simpa [same] using known
    · exact known

/-- A counter or the queue of the scheduler changes. -/
theorem modifyScheduler (shows : Shows ring scene st) {f : Scheduler → Scheduler} {tasks runnable : Int}
    {queue : List (Fin (n + 1))}
    (changes : ∀ scheduler, st.schedulers.get? ring.scheduler = some scheduler →
      Runs ring scene scheduler →
      Runs ring { scene with tasks := tasks, runnable := runnable, queue := queue } (f scheduler)) :
    Shows ring { scene with tasks := tasks, runnable := runnable, queue := queue }
      (st.modifyScheduler ring.scheduler f) where
  task := shows.task
  frame := shows.frame
  note x := by
    refine (shows.note x).trans ?_
    cases x <;> rfl
  known := shows.known
  owner := shows.owner
  line := shows.line
  scheduler := by
    obtain ⟨scheduler, found, runs⟩ := shows.scheduler
    refine ⟨f scheduler, ?_, changes scheduler found runs⟩
    rw [State.get?_modifyScheduler, if_pos rfl, found]
    rfl
  frames := shows.frames
  everyone := shows.everyone
  everything := shows.everything

end Shows

end Tasking.Scenario.Ring
