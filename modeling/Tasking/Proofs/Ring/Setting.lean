import Mathlib.Algebra.Group.Fin.Basic
import Mathlib.Data.List.Rotate
import Mathlib.Logic.Equiv.Defs
import Tasking.Proofs.Ring.Victim

/-! # Setting up a ring

The host of a ring creates the resources and starts the tasks, in such an order that they come to ask for
their second resources in the order that is wanted: whoever is started last is the first to find that all
others hold a resource.  `layout` says which numbers everything gets on the way.
-/

namespace Tasking.Scenario.Ring

open State

variable {n : Nat}

/-! ## The host -/

/-- The order in which the tasks are started. -/
def starting (order : Equiv.Perm (Fin (n + 1))) : List (Fin (n + 1)) := List.ofFn fun i => order (i + 1)

/-- Create the resources, and start the tasks so that they ask for their second resources in this order. -/
def workInOrder (order : Equiv.Perm (Fin (n + 1))) (names : Fin (n + 1) → String) (s : SchedulerId) :
    Piece Unit := do
  let rs ← newResources (List.ofFn names)
  let holding ← Code.ask (.newCell 0)
  startTasks s (n + 1) holding ((starting order).filterMap fun p => (neighbours rs)[p.val]?)

/-- A host that creates a scheduler, starts the tasks of a ring, and runs them until no task is ready. -/
def driver (settings : Settings) (order : Equiv.Perm (Fin (n + 1))) (names : Fin (n + 1) → String) :
    Program Unit Nat :=
  Code.program do
    let registry ← Code.ask .newRegistry
    match ← Code.ask (.newScheduler settings registry) with
    | .error _ => return .done ()
    | .ok s =>
      workInOrder order names s
      let _ ← Code.drive s
      return .done ()

/-! ## Numbers -/

section

variable (order : Equiv.Perm (Fin (n + 1))) (p q : Fin (n + 1))

/-- How many tasks are started before the one at a place. -/
def startedBefore : Nat := (order.symm p - 1).val

/-- How many tasks ask for their second resource before the one at a place. -/
def askedBefore : Nat := (order.symm p).val

theorem startedBefore_inj {p q : Fin (n + 1)} (same : startedBefore order p = startedBefore order q) : p = q :=
  order.symm.injective (sub_left_injective (Fin.ext same))

theorem askedBefore_inj {p q : Fin (n + 1)} (same : askedBefore order p = askedBefore order q) : p = q :=
  order.symm.injective (Fin.ext same)

theorem startedBefore_lt : startedBefore order p < n + 1 := (order.symm p - 1).isLt

/-- The number of the frame with a role. -/
def frameNumber : Role → Fin (n + 1) → Nat
  | .body, p => 2 * startedBefore order p + 1
  | .entry, p => 2 * startedBefore order p + 2
  | .inner, p => 2 * (n + 1) + 2 * askedBefore order p + 1
  | .guard, p => 2 * (n + 1) + 2 * askedBefore order p + 2

/-- The number of the cell with a note. -/
def cellNumber : Note n → Nat
  | .holding => 1
  | .counted p => 2 * startedBefore order p + 2
  | .asked p => 2 * startedBefore order p + 3

/-- The numbers of whatever belongs to the ring that `driver` sets up. -/
def layout : Layout n where
  scheduler := Scenario.scheduler
  task p := ⟨startedBefore order p + 1⟩
  resource p := ⟨p + 1⟩
  frame role p := ⟨frameNumber order role p⟩
  cell x := ⟨cellNumber order x⟩
  task_inj same := startedBefore_inj order (by simpa using same)
  resource_inj same := Fin.ext (by simpa using same)
  frame_inj {a b p q} same := by
    have numbers : frameNumber order a p = frameNumber order b q := congrArg Id.number same
    have few := startedBefore_lt order p
    have few' := startedBefore_lt order q
    cases a <;> cases b <;> simp only [frameNumber] at numbers <;> try omega
    case entry.entry | body.body => exact ⟨rfl, startedBefore_inj order (by omega)⟩
    case guard.guard | inner.inner => exact ⟨rfl, askedBefore_inj order (by omega)⟩
  cell_inj {x y} same := by
    have numbers : cellNumber order x = cellNumber order y := congrArg Id.number same
    cases x <;> cases y <;> simp only [cellNumber] at numbers <;> try omega
    case holding.holding => rfl
    case counted.counted p q | asked.asked p q => rw [startedBefore_inj order (p := p) (q := q) (by omega)]

theorem starting_eq_rotate : starting order = (List.ofFn order).rotate 1 := by
  refine List.ext_getElem (by simp [starting]) fun i small small' => ?_
  simp only [starting, List.getElem_ofFn, List.getElem_rotate, List.length_ofFn]
  congr 1
  simp [Fin.ext_iff, Fin.val_add]

end

/-! ## Resources -/

/-- The resources are created one after the other. -/
theorem newResources_traces (names : List String) : ∀ (st : State Unit Nat) (next : List ResourceId → Program Unit Nat)
    (stack : List (Activation Unit Nat)),
    Config.Traces ⟨st, .code (newResources names next), stack⟩ []
      ⟨{ st with resources := ⟨st.resources.entries ++ (names.map fun name => Resource.new (some name)).toArray⟩ },
        .code (next ((List.range names.length).map fun i => ⟨st.resources.size + i + 1⟩)), stack⟩ := by
  induction names with
  | nil =>
    intro st next stack
    simp only [List.map_nil, List.length_nil, List.range_zero, Array.append_empty]
    exact .refl _
  | cons name names inductionHypothesis =>
    intro st next stack
    have rest := inductionHypothesis (st.addResource (some name)).2 (fun rs => next (st.resources.next :: rs)) stack
    have made : Config.step ⟨st, .code (newResources (name :: names) next), stack⟩ =
        .ok ⟨(st.addResource (some name)).2, .code (newResources names fun rs => next (st.resources.next :: rs)),
          stack⟩ := rfl
    have whole : Config.Traces ⟨st, .code (newResources (name :: names) next), stack⟩ [] _ := .step made rest
    simpa [State.addResource, Table.add, Table.size, Table.next, List.range_succ_eq_map, Function.comp_def,
      Nat.add_assoc, Nat.add_comm 1] using whole

/-- Whoever takes the resource at a place takes the one at the next place after it. -/
theorem neighbours_get (order : Equiv.Perm (Fin (n + 1))) (p : Fin (n + 1)) :
    (neighbours ((List.range (n + 1)).map fun i => (⟨0 + i + 1⟩ : ResourceId)))[p.val]? =
      some ((layout order).resource p, (layout order).resource (p + 1)) := by
  have inside : p.val < (neighbours ((List.range (n + 1)).map fun i => (⟨0 + i + 1⟩ : ResourceId))).length := by
    have bound := p.isLt
    simp only [neighbours, List.length_zip, List.length_append, List.length_drop, List.length_take,
      List.length_map, List.length_range]
    omega
  refine List.getElem?_eq_some_iff.2 ⟨inside, ?_⟩
  simp only [neighbours, ← List.rotate_eq_drop_append_take (l := (List.range (n + 1)).map fun i =>
    (⟨0 + i + 1⟩ : ResourceId)) (n := 1) (by simp), List.getElem_zip, List.getElem_rotate,
    List.getElem_map, List.getElem_range, List.length_map, List.length_range]
  simp [layout, Fin.val_add]

/-! ## Tasks -/

/-- The resources of a ring are there, and some of the tasks were started. -/
structure Prepared (ring : Layout n) (started : List (Fin (n + 1))) (st : State Unit Nat) : Prop where
  task : ∀ q, st.tasks.get? (ring.task q) = if q ∈ started then some (Seat.fresh ring q).task else none
  frame : ∀ role q, st.frames.get? (ring.frame role q) =
    if q ∈ started then (Seat.fresh ring q).frame role else none
  holding : st.cells.get? (ring.cell .holding) = some 0
  counted : ∀ q, st.cells.get? (ring.cell (.counted q)) = if q ∈ started then some 0 else none
  asked : ∀ q, st.cells.get? (ring.cell (.asked q)) = if q ∈ started then some 0 else none
  resource : ∀ q, ∃ name, st.resources.get? (ring.resource q) = some (.new name)
  scheduler : ∃ scheduler, st.schedulers.get? ring.scheduler = some scheduler ∧ scheduler.isShutDown = false ∧
    Runs ring { meeting ring 0 [] started with tasks := started.length, runnable := started.length } scheduler
  everyone : ∀ t, (st.tasks.get? t).isSome = true → ∃ p, t = ring.task p
  everything : ∀ r, (st.resources.get? r).isSome = true → ∃ p, r = ring.resource p
  tasks : st.tasks.size = started.length
  frames : st.frames.size = 2 * started.length
  cells : st.cells.size = 2 * started.length + 1

/-- The numbers that a task, its frames and its cells get if it is the next one to be started. -/
structure Upcoming (ring : Layout n) (started : List (Fin (n + 1))) (p : Fin (n + 1)) : Prop where
  absent : p ∉ started
  task : ring.task p = ⟨started.length + 1⟩
  body : ring.frame .body p = ⟨2 * started.length + 1⟩
  entry : ring.frame .entry p = ⟨2 * started.length + 1 + 1⟩
  counted : ring.cell (.counted p) = ⟨2 * started.length + 1 + 1⟩
  asked : ring.cell (.asked p) = ⟨2 * started.length + 1 + 1 + 1⟩

/-- When all tasks were started, they are yet to take their first resources. -/
theorem Prepared.shows {ring : Layout n} {started : List (Fin (n + 1))} {st : State Unit Nat}
    (prepared : Prepared ring started st) (all : ∀ q, q ∈ started) (length : started.length = n + 1) :
    Shows ring (meeting ring (2 * (n + 1)) [] started) st where
  task q := by simpa [meeting, all] using prepared.task q
  frame role q := by simpa [meeting, all] using prepared.frame role q
  note x := by
    cases x with
    | holding => exact prepared.holding
    | counted q => simpa [meeting, Scene.note, Seat.fresh, all] using prepared.counted q
    | asked q => simpa [meeting, Scene.note, Seat.fresh, all] using prepared.asked q
  known q := by
    obtain ⟨name, found⟩ := prepared.resource q
    simp [found]
  owner q := by
    obtain ⟨name, found⟩ := prepared.resource q
    simp [State.owner, found, meeting, Resource.new]
  line q := by
    obtain ⟨name, found⟩ := prepared.resource q
    simp [State.waiters, found, meeting, Resource.new]
  scheduler := by
    obtain ⟨scheduler, found, _, runs⟩ := prepared.scheduler
    refine ⟨scheduler, found, runs.detection, ?_, ?_, runs.external, runs.queue⟩
    · simp [runs.tasks, meeting, length]
    · simp [runs.runnable, meeting, length]
  frames := by simp [prepared.frames, meeting, length]
  everyone := prepared.everyone
  everything := prepared.everything

section

variable (ring : Layout n) (p : Fin (n + 1)) (st : State Unit Nat)

/-- The state with the cells and the frames of a task. -/
def furnished : State Unit Nat :=
  { st with
    cells := (st.cells.add 0).add 0
    frames := (st.frames.add (bodySheet ring p none)).add (entrySheet ring p (.start (ring.frame .body p))) }

/-- The state in which the task was created as well. -/
def joined : State Unit Nat :=
  ((furnished ring p st).addTask ring.scheduler (ring.frame .entry p) none).2.enlist ring.scheduler (ring.task p)

/-- The state in which it was started. -/
def launched (runnable : Int) : State Unit Nat :=
  (((joined ring p st).setLife (ring.task p) .ready).modifyScheduler ring.scheduler
    (·.withCount .runnable runnable)).enqueued (ring.task p) ring.scheduler

end

variable {ring : Layout n} {started : List (Fin (n + 1))} {p : Fin (n + 1)} {st : State Unit Nat}

theorem joined_task (number : st.tasks.next = ring.task p) (q : Fin (n + 1)) :
    (joined ring p st).tasks.get? (ring.task q) =
      if q = p then some (newcomer ring p) else st.tasks.get? (ring.task q) := by
  have apart : ring.task q = ring.task p ↔ q = p := ⟨ring.task_inj, congrArg ring.task⟩
  simp only [joined, State.enlist, modifyTask, modifyScheduler, State.addTask, furnished, Table.get?_modify,
    Table.get?_add_eq, number, apart, if_true]
  split <;> rfl

theorem launched_task (number : st.tasks.next = ring.task p) (runnable : Int) (q : Fin (n + 1)) :
    (launched ring p st runnable).tasks.get? (ring.task q) =
      if q = p then some (Seat.fresh ring p).task else st.tasks.get? (ring.task q) := by
  have apart : ring.task q = ring.task p ↔ q = p := ⟨ring.task_inj, congrArg ring.task⟩
  simp only [launched, State.enqueued, State.setLife, modifyTask, modifyScheduler, Table.get?_modify,
    joined_task number, apart, if_true]
  split <;> rfl

theorem launched_frame (absent : st.frames.get? (ring.frame .inner p) = none)
    (absent' : st.frames.get? (ring.frame .guard p) = none) (body : st.frames.next = ring.frame .body p)
    (entry : (st.frames.add (bodySheet ring p none)).next = ring.frame .entry p) (runnable : Int) (role : Role)
    (q : Fin (n + 1)) :
    (launched ring p st runnable).frames.get? (ring.frame role q) =
      if q = p then (Seat.fresh ring p).frame role else st.frames.get? (ring.frame role q) := by
  have apart : ∀ a, ring.frame role q = ring.frame a p ↔ role = a ∧ q = p :=
    fun a => ⟨ring.frame_inj, fun ⟨same, same'⟩ => by rw [same, same']⟩
  simp only [launched, State.enqueued, State.setLife, modifyTask, modifyScheduler, joined, State.enlist,
    State.addTask, furnished, Table.get?_add_eq, body, entry, apart]
  by_cases mine : q = p
  · subst mine
    cases role <;> simp [Seat.frame, Seat.fresh, absent, absent']
  · simp [mine]

theorem launched_cell (counted : st.cells.next = ring.cell (.counted p))
    (asked : (st.cells.add 0).next = ring.cell (.asked p)) (runnable : Int) (x : Note n) :
    (launched ring p st runnable).cells.get? (ring.cell x) =
      if x = .counted p ∨ x = .asked p then some 0 else st.cells.get? (ring.cell x) := by
  have apart : ∀ y, ring.cell x = ring.cell y ↔ x = y := fun y => ⟨ring.cell_inj, congrArg ring.cell⟩
  simp only [launched, State.enqueued, State.setLife, modifyTask, modifyScheduler, joined, State.enlist,
    State.addTask, furnished, Table.get?_add_eq, counted, asked, apart]
  by_cases first : x = .counted p <;> simp [first]

namespace Prepared

variable (prepared : Prepared ring started st) (upcoming : Upcoming ring started p)

include prepared upcoming

theorem next_task : st.tasks.next = ring.task p := by
  rw [upcoming.task, ← prepared.tasks]
  rfl

theorem next_body : st.frames.next = ring.frame .body p := by
  rw [upcoming.body, ← prepared.frames]
  rfl

theorem next_entry (sheet : Sheet) : (st.frames.add sheet).next = ring.frame .entry p := by
  rw [upcoming.entry, ← prepared.frames, ← Table.size_add st.frames sheet]
  rfl

theorem next_counted : st.cells.next = ring.cell (.counted p) := by
  rw [upcoming.counted, ← prepared.cells]
  rfl

theorem next_asked : (st.cells.add 0).next = ring.cell (.asked p) := by
  rw [upcoming.asked, ← prepared.cells, ← Table.size_add st.cells 0]
  rfl

/-- What is there when one more task was started. -/
theorem launch : Prepared ring (started ++ [p]) (launched ring p st (started.length + 1)) := by
  have absent := upcoming.absent
  have number := prepared.next_task upcoming
  have cells := launched_cell (prepared.next_counted upcoming) (prepared.next_asked upcoming)
    (started.length + 1)
  have frames := launched_frame (by simpa [absent] using prepared.frame .inner p)
    (by simpa [absent] using prepared.frame .guard p) (prepared.next_body upcoming)
    (prepared.next_entry upcoming _) (started.length + 1)
  constructor
  case task =>
    intro q
    rw [launched_task number, prepared.task]
    by_cases mine : q = p <;> simp [mine]
  case frame =>
    intro role q
    rw [frames, prepared.frame]
    by_cases mine : q = p <;> simp [mine]
  case holding =>
    rw [cells, prepared.holding]
    simp
  case counted =>
    intro q
    rw [cells, prepared.counted]
    by_cases mine : q = p <;> simp [mine]
  case asked =>
    intro q
    rw [cells, prepared.asked]
    by_cases mine : q = p <;> simp [mine]
  case resource => exact prepared.resource
  case scheduler =>
    obtain ⟨scheduler, found, isOpen, runs⟩ := prepared.scheduler
    refine ⟨{ scheduler with
      tasks := scheduler.tasks + 1, runnable := started.length + 1, ready := scheduler.ready.push (ring.task p) },
      ?_, isOpen, runs.detection, ?_, ?_, runs.external, ?_⟩
    · simp only [launched, State.enqueued, State.setLife, modifyTask, modifyScheduler, joined, State.enlist,
        State.addTask, furnished, Table.get?_modify, if_true, found]
      rfl
    · simp [runs.tasks]
    · simp
    · simp [runs.queue, meeting]
  case everyone =>
    intro t known
    by_cases mine : t = ring.task p
    · exact ⟨p, mine⟩
    · apply prepared.everyone
      simpa only [launched, State.enqueued, State.setLife, modifyTask, modifyScheduler, joined, State.enlist,
        State.addTask, furnished, Table.get?_modify, Table.get?_add_eq, number, mine, if_false] using known
  case everything => exact prepared.everything
  case tasks =>
    simp only [launched, State.enqueued, State.setLife, modifyTask, modifyScheduler, joined, State.enlist,
      State.addTask, furnished, Table.size_modify, Table.size_add, prepared.tasks, List.length_append,
      List.length_singleton]
  case frames =>
    show ((st.frames.add _).add _).size = _
    simp only [Table.size_add, prepared.frames, List.length_append, List.length_singleton]
    omega
  case cells =>
    show ((st.cells.add 0).add 0).size = _
    simp only [Table.size_add, prepared.cells, List.length_append, List.length_singleton]
    omega

theorem spawns :
    (furnished ring p st).spawn ring.scheduler (ring.frame .entry p) =
      .ok (.ok (ring.task p), joined ring p st) := by
  obtain ⟨scheduler, found, isOpen, _⟩ := prepared.scheduler
  refine bind_ok.2 ⟨scheduler, scheduler_ok.2 found, ?_⟩
  rw [joined, ← prepared.next_task upcoming]
  simp only [isOpen]
  rfl

theorem starts :
    (joined ring p st).start (ring.task p) = .ok (launched ring p st (started.length + 1)) := by
  have found : (joined ring p st).tasks.get? (ring.task p) = some (newcomer ring p) := by
    rw [joined_task (prepared.next_task upcoming), if_pos rfl]
  have moved : ((joined ring p st).setLife (ring.task p) .ready).tasks.get? (ring.task p) =
      some { newcomer ring p with life := .ready } := by
    rw [State.setLife, get?_modifyTask, if_pos rfl, found]
    rfl
  obtain ⟨scheduler, known, _, runs⟩ := prepared.scheduler
  have known' : (joined ring p st).schedulers.get? ring.scheduler =
      some { scheduler with tasks := scheduler.tasks + 1 } := by
    simp only [joined, State.enlist, modifyScheduler, Table.get?_modify, if_true]
    exact congrArg (Option.map _) known
  refine bind_ok.2 ⟨_, task_ok.2 found, bind_ok.2 ⟨_, bind_ok.2 ⟨_, task_ok.2 found, check_ok.2 ⟨?_, rfl⟩⟩, ?_⟩⟩
  · simp [newcomer, Task.new, Life.canMove]
  refine bind_ok.2 ⟨_, adjust_ok.2 ⟨_, known', ?_, rfl⟩, ?_⟩
  · have count : scheduler.runnable = started.length := runs.runnable
    show (0 : Int) ≤ scheduler.runnable + 1
    omega
  refine bind_ok.2 ⟨_, task_ok.2 moved, bind_ok.2 ⟨_, bind_ok.2 ⟨_, task_ok.2 moved, check_ok.2 ⟨?_, rfl⟩⟩, ?_⟩⟩
  · simp [newcomer, Task.new]
  · show Except.ok _ = _
    simp only [launched, Scheduler.count, runs.runnable]
    rfl

/-- A task is created and started. -/
theorem startTask_traces (next : Unit → Program Unit Nat) (stack : List (Activation Unit Nat)) :
    Config.Traces
      ⟨st, .code (startTask ring.scheduler (n + 1) (ring.cell .holding) (ring.resource p)
        (ring.resource (p + 1)) next), stack⟩ []
      ⟨launched ring p st (started.length + 1), .code (next ()), stack⟩ := by
  have first : st.serve (.newCell 0) = .ok (ring.cell (.counted p), { st with cells := st.cells.add 0 }) := by
    rw [← prepared.next_counted upcoming]
    rfl
  have second : State.serve { st with cells := st.cells.add 0 } (.newCell 0) =
      .ok (ring.cell (.asked p), { st with cells := (st.cells.add 0).add 0 }) := by
    rw [← prepared.next_asked upcoming]
    rfl
  refine .ask rfl first (.ask rfl second (.newFrame ?_))
  have body := prepared.next_body upcoming
  have third : State.serve { st with
        cells := (st.cells.add 0).add 0, frames := st.frames.add (bodySheet ring p none) }
      (.newGuard (ring.resource p) (ring.frame .body p)) =
        .ok (ring.frame .entry p, furnished ring p st) := by
    rw [← prepared.next_entry upcoming (bodySheet ring p none)]
    rfl
  rw [← body] at third
  have fourth : (joined ring p st).serve (.start (ring.task p)) =
      .ok ((), launched ring p st (started.length + 1)) := bind_ok.2 ⟨_, prepared.starts upcoming, rfl⟩
  exact .ask rfl third (.ask rfl (prepared.spawns upcoming) (.ask rfl fourth (.refl _)))

end Prepared

/-- Tasks are created and started one after the other. -/
theorem startTasks_traces (next : Unit → Program Unit Nat) (stack : List (Activation Unit Nat))
    (rest : List (Fin (n + 1))) : ∀ (started : List (Fin (n + 1))) (st : State Unit Nat), Prepared ring started st →
    (∀ before p behind, started ++ rest = before ++ p :: behind → Upcoming ring before p) →
    ∃ st', Prepared ring (started ++ rest) st' ∧
      Config.Traces
        ⟨st, .code (startTasks ring.scheduler (n + 1) (ring.cell .holding)
          (rest.map fun p => (ring.resource p, ring.resource (p + 1))) next), stack⟩ []
        ⟨st', .code (next ()), stack⟩ := by
  induction rest with
  | nil =>
    intro started st prepared _
    exact ⟨st, by simpa using prepared, .refl _⟩
  | cons p rest inductionHypothesis =>
    intro started st prepared upcoming
    have this := upcoming started p rest rfl
    obtain ⟨st', prepared', traces⟩ := inductionHypothesis (started ++ [p]) _ (prepared.launch this)
      (by simpa using upcoming)
    refine ⟨st', by simpa using prepared', ?_⟩
    exact (prepared.startTask_traces this _ stack).trans traces

/-! ## The whole set-up -/

/-- The scheduler and the resources are there, but no tasks yet. -/
def stage (settings : Settings) (parallelism : Nat) (names : Fin (n + 1) → String) : State Unit Nat :=
  { State.initial parallelism with
    registries := Table.empty.add .new
    schedulers := Table.empty.add (.new settings ⟨1⟩ (settings.resolvedWorkers parallelism))
    resources := ⟨((List.ofFn names).map fun name => Resource.new (some name)).toArray⟩
    cells := Table.empty.add 0 }

variable (order : Equiv.Perm (Fin (n + 1))) (names : Fin (n + 1) → String) {settings : Settings} {parallelism : Nat}

theorem resources_stage (r : ResourceId) : (stage settings parallelism names).resources.get? r =
    if r.number = 0 then none
    else if inside : r.number - 1 < n + 1 then some (.new (some (names ⟨r.number - 1, inside⟩))) else none := by
  simp only [stage, Table.get?, List.getElem?_toArray, List.map_ofFn, List.getElem?_ofFn, Function.comp_apply]

theorem stage_prepared (detection : settings.deadlockDetection = true) :
    Prepared (layout order) [] (stage settings parallelism names) where
  task q := rfl
  frame role q := by simp [stage, State.initial]
  holding := rfl
  counted q := by simp [stage, Table.get?, Table.add, Table.empty, layout, cellNumber]
  asked q := by simp [stage, Table.get?, Table.add, Table.empty, layout, cellNumber]
  resource q := by
    refine ⟨some (names q), ?_⟩
    exact (resources_stage names _).trans ((if_neg (Nat.succ_ne_zero q)).trans (dif_pos q.isLt))
  scheduler := ⟨_, rfl, rfl, detection, rfl, rfl, rfl, rfl⟩
  everyone t known := by simp [stage, State.initial] at known
  everything r known := by
    rw [resources_stage] at known
    split_ifs at known with zero inside
    · cases known
    · exact ⟨⟨r.number - 1, inside⟩, congrArg Id.mk (Nat.succ_pred zero).symm⟩
    · cases known
  tasks := rfl
  frames := rfl
  cells := rfl

theorem nodup_starting : (starting order).Nodup :=
  List.nodup_ofFn.2 fun _ _ same => add_left_injective 1 (order.injective same)

theorem mem_starting (p : Fin (n + 1)) : p ∈ starting order :=
  List.mem_ofFn.2 ⟨order.symm p - 1, by simp⟩

theorem length_starting : (starting order).length = n + 1 := List.length_ofFn

theorem exists_of_ofFn {f : Fin (n + 1) → Fin (n + 1)} {before behind : List (Fin (n + 1))} {p : Fin (n + 1)}
    (split : List.ofFn f = before ++ p :: behind) : ∃ i : Fin (n + 1), i.val = before.length ∧ f i = p := by
  have found : (List.ofFn f)[before.length]? = some p := by
    rw [split]
    simp
  obtain ⟨inside, here⟩ := List.getElem?_eq_some_iff.1 found
  rw [List.length_ofFn] at inside
  exact ⟨⟨before.length, inside⟩, rfl, by rwa [List.getElem_ofFn] at here⟩

/-- The tasks are numbered in the order in which they are started. -/
theorem upcoming_of_starting {before behind : List (Fin (n + 1))} {p : Fin (n + 1)}
    (split : starting order = before ++ p :: behind) : Upcoming (layout order) before p := by
  obtain ⟨i, place, here⟩ := exists_of_ofFn split
  have number : startedBefore order p = before.length := by
    rw [startedBefore, ← here, Equiv.symm_apply_apply, add_sub_cancel_right, place]
  have apart := nodup_starting order
  rw [split] at apart
  refine ⟨fun member => (List.disjoint_of_nodup_append apart) member List.mem_cons_self, ?_, ?_, ?_, ?_, ?_⟩ <;>
    simp only [layout, frameNumber, cellNumber, number]

theorem askedBefore_of_split {before behind : List (Fin (n + 1))} {p : Fin (n + 1)}
    (split : List.ofFn order = before ++ p :: behind) : askedBefore order p = before.length := by
  obtain ⟨i, place, here⟩ := exists_of_ofFn split
  rw [askedBefore, ← here, Equiv.symm_apply_apply, place]

/-- The frames of the second resources are numbered in the order in which the tasks ask for these. -/
theorem numbered_order : Numbered (layout order) (2 * (n + 1)) (List.ofFn order) where
  inner split := by simp only [layout, frameNumber, askedBefore_of_split order split]
  guard split := by simp only [layout, frameNumber, askedBefore_of_split order split]

theorem obstacle?_manual (manual : settings.workers = some 0) (sound : settings.flaw? = none) :
    settings.obstacle? parallelism = none := by
  simp [Settings.obstacle?, Settings.validate, sound, Settings.resolvedWorkers, manual]

/-- The host creates the scheduler and the resources, and comes to start the tasks. -/
theorem driver_stage (manual : settings.workers = some 0) (sound : settings.flaw? = none) :
    Config.Traces (.start (.initial parallelism) (driver settings order names)) []
      ⟨stage settings parallelism names, .code (startTasks Scenario.scheduler (n + 1) ⟨1⟩
        ((starting order).map fun p => ((layout order).resource p, (layout order).resource (p + 1)))
        fun _ => .drive Scenario.scheduler fun _ => .answer (.done ())), []⟩ := by
  let registered : State Unit Nat :=
    { State.initial parallelism with registries := Table.empty.add .new }
  let scheduled : State Unit Nat :=
    { registered with
      schedulers := Table.empty.add (.new settings ⟨1⟩ (settings.resolvedWorkers parallelism)) }
  have first : (State.initial parallelism : State Unit Nat).serve .newRegistry = .ok (⟨1⟩, registered) := rfl
  have second : registered.serve (.newScheduler settings ⟨1⟩) = .ok (.ok Scenario.scheduler, scheduled) := by
    have free : settings.obstacle? registered.parallelism = none := obstacle?_manual manual sound
    simp only [State.serve, addScheduler, free]
    rfl
  have third := newResources_traces (List.ofFn names) scheduled
    (fun rs => .ask (.newCell 0) fun holding => startTasks Scenario.scheduler (n + 1) holding
      ((starting order).filterMap fun p => (neighbours rs)[p.val]?)
      fun _ => .drive Scenario.scheduler fun _ => .answer (.done ())) []
  have pairs : ((starting order).filterMap fun p =>
      (neighbours ((List.range (List.ofFn names).length).map fun i =>
        (⟨scheduled.resources.size + i + 1⟩ : ResourceId)))[p.val]?) =
        (starting order).map fun p => ((layout order).resource p, (layout order).resource (p + 1)) := by
    refine Eq.trans (List.filterMap_congr fun p _ => ?_) (congrFun List.filterMap_eq_map _)
    rw [List.length_ofFn]
    exact neighbours_get order p
  refine .ask rfl first (.ask rfl second (third.trans ?_))
  have none : scheduled.resources.entries = #[] := rfl
  rw [pairs, none, Array.empty_append]
  exact .ask rfl rfl (.refl _)

/-- The host comes to run the tasks, none of which has taken a resource. -/
theorem driver_meeting (manual : settings.workers = some 0) (sound : settings.flaw? = none)
    (detection : settings.deadlockDetection = true) :
    ∃ st, Shows (layout order) (meeting (layout order) (2 * (n + 1)) [] (starting order)) st ∧
      Config.Traces (.start (.initial parallelism) (driver settings order names)) []
        ⟨st, .drain Scenario.scheduler 0 fun _ => .answer (.done ()), []⟩ := by
  obtain ⟨st, prepared, traces⟩ := @startTasks_traces n (layout order)
    (fun _ => .drive Scenario.scheduler fun _ => .answer (.done ())) [] (starting order) []
    (stage settings parallelism names) (stage_prepared order names detection)
    fun _ _ _ => upcoming_of_starting order
  refine ⟨st, prepared.shows (mem_starting order) (length_starting order), ?_⟩
  exact (driver_stage order names manual sound).trans (traces.trans (.one rfl))

end Tasking.Scenario.Ring
