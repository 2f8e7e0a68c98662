import Mathlib.Logic.Function.Basic
import Mathlib.Logic.Relation
import Tasking.Machine

/-! # What can be read off a state

The invariants of the runtime speak about few things: who calls whom, which frames are guards
and how far they have come, the tops of the tasks' chains, and who owns and who waits for a
resource.  Each of these is a function of the state here, total in the number it is asked for,
with an equation for every way in which a state changes.

`bind_ok` takes a computation apart that delivered its result, and the lemmas named `…_ok` say
of each operation what state it leads to when it meets no fault.
-/

namespace Tasking

variable {V C : Type}

namespace Table

variable {kind : Kind} {α : Type}

theorem get?_modify (table : Table kind α) (i j : Id kind) (f : α → α) :
    (table.modify i f).get? j = if j = i then (table.get? i).map f else table.get? j := by
  by_cases same : j = i
  · rw [if_pos same, same, get?_modify_self]
  · rw [if_neg same, get?_modify_ne table f same]

theorem get?_add_eq (table : Table kind α) (a : α) (i : Id kind) :
    (table.add a).get? i = if i = table.next then some a else table.get? i := by
  by_cases fresh : i = table.next
  · rw [if_pos fresh, fresh, get?_add_new]
  · rw [if_neg fresh, get?_add table a fresh]

/-- Nothing has the number that comes next. -/
@[simp] theorem get?_next (table : Table kind α) : table.get? table.next = none := by
  simp [get?, next]

theorem ne_next_of_get? {table : Table kind α} {i : Id kind} {a : α}
    (found : table.get? i = some a) : i ≠ table.next := by
  rintro rfl
  simp at found

/-- Tables in which the same is found everywhere are the same. -/
theorem ext_get? {table table' : Table kind α} (same : ∀ i, table.get? i = table'.get? i) : table = table' := by
  obtain ⟨entries⟩ := table
  obtain ⟨entries'⟩ := table'
  congr 1
  refine Array.ext_getElem? fun n => ?_
  simpa [get?] using same ⟨n + 1⟩

theorem modify_modify (table : Table kind α) (i : Id kind) (f g : α → α) :
    (table.modify i f).modify i g = table.modify i fun a => g (f a) := by
  refine ext_get? fun j => ?_
  simp only [get?_modify, if_true, Option.map_map]
  split <;> rfl

theorem modify_congr {table : Table kind α} {i : Id kind} {a : α} (found : table.get? i = some a) {f g : α → α}
    (same : f a = g a) : table.modify i f = table.modify i g := by
  refine ext_get? fun j => ?_
  simp only [get?_modify, found, Option.map_some, same]

theorem modify_self {table : Table kind α} {i : Id kind} {a : α} (found : table.get? i = some a) {f : α → α}
    (same : f a = a) : table.modify i f = table := by
  refine ext_get? fun j => ?_
  rw [get?_modify, found, Option.map_some, same]
  split
  · next here => rw [here, found]
  · rfl

end Table

/-! ## Computations that may fail -/

theorem bind_ok {ε α β : Type} {x : Except ε α} {f : α → Except ε β} {b : β} :
    (x >>= f) = .ok b ↔ ∃ a, x = .ok a ∧ f a = .ok b := by
  cases x with
  | error e => simp [bind, Except.bind]
  | ok a => simp [bind, Except.bind]

theorem pure_ok {ε α : Type} {a b : α} : (pure a : Except ε α) = .ok b ↔ a = b := by
  simp [pure, Except.pure]

namespace State

@[simp] theorem fail_ne_ok {β : Type} (st : State V C) (fault : Fault) (b : β) :
    st.fail fault ≠ .ok b := by
  simp [fail]

/-- A check that was passed. -/
theorem check_ok {α β : Type} {p : Prop} [Decidable p] {st : State V C} {fault : Fault}
    {unreached : α → Attempt V C β} {rest : Attempt V C β} {b : β} :
    (if p then st.fail fault >>= unreached else rest) = .ok b ↔ ¬ p ∧ rest = .ok b := by
  by_cases holds : p <;> simp [holds, fail, bind, Except.bind]

theorem guard_ok {β : Type} {p : Prop} [Decidable p] {st : State V C} {fault : Fault}
    {rest : Attempt V C β} {b : β} :
    (if p then st.fail fault else rest) = .ok b ↔ ¬ p ∧ rest = .ok b := by
  by_cases holds : p <;> simp [holds]

theorem find_ok {kind : Kind} {α : Type} {st : State V C} {table : Table kind α} {i : Id kind}
    {a : α} : st.find table i = .ok a ↔ table.get? i = some a := by
  unfold find
  cases table.get? i <;> simp

theorem task_ok {st : State V C} {t : TaskId} {task : Task V} :
    st.task t = .ok task ↔ st.tasks.get? t = some task := find_ok

/-- An operation that looks a task up first delivers nothing unless there is such a task. -/
theorem exists_of_task {α : Type} {st : State V C} {t : TaskId} {f : Task V → Attempt V C α} {a : α}
    (done : (st.task t >>= f) = .ok a) : ∃ task, st.tasks.get? t = some task := by
  simp only [bind_ok, task_ok] at done
  obtain ⟨task, found, _⟩ := done
  exact ⟨task, found⟩

theorem frame_ok {st : State V C} {f : FrameId} {frame : Frame V (Body V C)} :
    st.frame f = .ok frame ↔ st.frames.get? f = some frame := find_ok

theorem resource_ok {st : State V C} {r : ResourceId} {resource : Resource} :
    st.resource r = .ok resource ↔ st.resources.get? r = some resource := find_ok

theorem exclusive_ok {st : State V C} {x : ExclusiveId} {exclusive : Exclusive V} :
    st.exclusive x = .ok exclusive ↔ st.exclusives.get? x = some exclusive := find_ok

theorem actor_ok {st : State V C} {a : ActorId} {actor : Actor (Handler V C)} :
    st.actor a = .ok actor ↔ st.actors.get? a = some actor := find_ok

theorem scheduler_ok {st : State V C} {s : SchedulerId} {scheduler : Scheduler} :
    st.scheduler s = .ok scheduler ↔ st.schedulers.get? s = some scheduler := find_ok

theorem registry_ok {st : State V C} {g : RegistryId} {registry : Registry (Native V C)} :
    st.registry g = .ok registry ↔ st.registries.get? g = some registry := find_ok

/-! ## Views -/

/-- The frame that a frame returns to. -/
def caller (st : State V C) (f : FrameId) : Option FrameId := (st.frames.get? f).bind Frame.caller

end State

/-- The resource and the phase of a guard; nothing for other code. -/
def Frame.Code.guard? {B : Type} : Frame.Code V B → Option (ResourceId × Phase V)
  | .guard r phase => some (r, phase)
  | _ => none

namespace State

/-- The code of a frame. -/
def code? (st : State V C) (f : FrameId) : Option (Frame.Code V (Body V C)) :=
  (st.frames.get? f).map Frame.code

/-- The resource that a frame guards, and how far the guard has come. -/
def guard? (st : State V C) (f : FrameId) : Option (ResourceId × Phase V) :=
  (st.frames.get? f).bind fun frame => frame.code.guard?

/-- The top of a task's chain. -/
def top (st : State V C) (t : TaskId) : Option FrameId := (st.tasks.get? t).bind Task.top

/-- The stage of a task's life. -/
def life (st : State V C) (t : TaskId) : Option Life := (st.tasks.get? t).map Task.life

/-- The owner of a resource. -/
def owner (st : State V C) (r : ResourceId) : Option TaskId :=
  (st.resources.get? r).bind Resource.owner

/-- The tasks that wait for a resource, the oldest first. -/
def waiters (st : State V C) (r : ResourceId) : List TaskId :=
  (st.resources.get? r).elim [] fun resource => resource.waiters.toList

/-- The ready queue of a scheduler, the oldest task first. -/
def queue (st : State V C) (s : SchedulerId) : List TaskId :=
  (st.schedulers.get? s).elim [] fun scheduler => scheduler.ready.toList

theorem get?_modifyTask (st : State V C) (t u : TaskId) (f : Task V → Task V) :
    (st.modifyTask t f).tasks.get? u =
      if u = t then (st.tasks.get? t).map f else st.tasks.get? u :=
  st.tasks.get?_modify t u f

theorem get?_modifyFrame (st : State V C) (f g : FrameId)
    (change : Frame V (Body V C) → Frame V (Body V C)) :
    (st.modifyFrame f change).frames.get? g =
      if g = f then (st.frames.get? f).map change else st.frames.get? g :=
  st.frames.get?_modify f g change

theorem get?_modifyResource (st : State V C) (r q : ResourceId) (f : Resource → Resource) :
    (st.modifyResource r f).resources.get? q =
      if q = r then (st.resources.get? r).map f else st.resources.get? q :=
  st.resources.get?_modify r q f

theorem get?_modifyScheduler (st : State V C) (s u : SchedulerId) (f : Scheduler → Scheduler) :
    (st.modifyScheduler s f).schedulers.get? u =
      if u = s then (st.schedulers.get? s).map f else st.schedulers.get? u :=
  st.schedulers.get?_modify s u f

/-- A change of a task that keeps its top keeps every top. -/
theorem top_modifyTask {st : State V C} {t : TaskId} {f : Task V → Task V}
    (keeps : ∀ task, (f task).top = task.top) (u : TaskId) :
    (st.modifyTask t f).top u = st.top u := by
  unfold top
  rw [get?_modifyTask]
  split
  · next same =>
    subst same
    cases st.tasks.get? u with
    | none => rfl
    | some task => simp [keeps]
  · rfl

theorem life_modifyTask (st : State V C) (t u : TaskId) (f : Task V → Task V) :
    (st.modifyTask t f).life u =
      if u = t then (st.tasks.get? t).map fun task => (f task).life else st.life u := by
  unfold life
  rw [get?_modifyTask]
  split
  · rw [Option.map_map]; rfl
  · rfl

/-- A change of a task that keeps the stage of its life keeps every stage. -/
theorem life_modifyTask_keep {st : State V C} {t : TaskId} {f : Task V → Task V}
    (keeps : ∀ task, (f task).life = task.life) (u : TaskId) :
    (st.modifyTask t f).life u = st.life u := by
  rw [life_modifyTask]
  split
  · next same =>
    subst same
    unfold life
    exact congrArg (Option.map · _) (funext keeps)
  · rfl

/-- A change of a scheduler that keeps its ready queue keeps every ready queue. -/
theorem queue_modifyScheduler {st : State V C} {s : SchedulerId} {f : Scheduler → Scheduler}
    (keeps : ∀ scheduler, (f scheduler).ready = scheduler.ready) (u : SchedulerId) :
    (st.modifyScheduler s f).queue u = st.queue u := by
  unfold queue
  rw [get?_modifyScheduler]
  split
  · next same =>
    subst same
    cases st.schedulers.get? u with
    | none => rfl
    | some scheduler => simp [keeps]
  · rfl

section

variable {st : State V C}

theorem owner_modifyResource {r : ResourceId} {f : Resource → Resource}
    {owner : Option TaskId} (known : (st.resources.get? r).isSome = true)
    (sets : ∀ resource, (f resource).owner = owner) :
    (st.modifyResource r f).owner = Function.update st.owner r owner := by
  obtain ⟨resource, found⟩ := Option.isSome_iff_exists.1 known
  funext q
  by_cases same : q = r
  · subst same
    simp [State.owner, get?_modifyResource, found, sets]
  · simp [State.owner, get?_modifyResource, same]

theorem owner_modifyResource_keep {r : ResourceId} {f : Resource → Resource}
    (keeps : ∀ resource, (f resource).owner = resource.owner) :
    (st.modifyResource r f).owner = st.owner := by
  funext q
  unfold owner
  rw [get?_modifyResource]
  split
  · next same =>
    subst same
    cases st.resources.get? q with
    | none => rfl
    | some resource => simp [keeps]
  · rfl

theorem waiters_modifyResource_keep {r : ResourceId} {f : Resource → Resource}
    (keeps : ∀ resource, (f resource).waiters = resource.waiters) :
    (st.modifyResource r f).waiters = st.waiters := by
  funext q
  unfold waiters
  rw [get?_modifyResource]
  split
  · next same =>
    subst same
    cases st.resources.get? q with
    | none => rfl
    | some resource => simp [keeps]
  · rfl

end

/-! ## Counters -/

theorem ready_withCount (scheduler : Scheduler) (c : Counter) (n : Int) :
    (scheduler.withCount c n).ready = scheduler.ready := by
  cases c <;> rfl

theorem adjust_ok {st st' : State V C} {s : SchedulerId} {c : Counter} {change : Int} :
    st.adjust s c change = .ok st' ↔ ∃ scheduler, st.schedulers.get? s = some scheduler ∧
      0 ≤ scheduler.count c + change ∧
      st' = st.modifyScheduler s (·.withCount c (scheduler.count c + change)) := by
  simp only [adjust, bind_ok, scheduler_ok, check_ok, pure_ok, Int.not_lt, eq_comm (a := st')]

end State

end Tasking
