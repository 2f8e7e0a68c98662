import Tasking.Proofs.Exclusion
import Tasking.Proofs.Order

/-! # Who waits for what

Several records say that a task waits: its stage, what it says it waits for, whether it counts as
waiting for an event outside, and the line or the list of joiners it is in.  They are written at
different moments, by whoever blocks, parks, wakes or ends a task.  Whenever no frame is running, they
agree (`State.WaitsExactly`, `Crew.Run.waits_exactly`).
-/

namespace Tasking

variable {V C : Type}

/-! ## Counting the tasks of a scheduler -/

namespace State

/-- How many tasks of a scheduler are of some kind. -/
def population (st : State V C) (s : SchedulerId) (kind : Task V → Bool) : Nat :=
  st.tasks.entries.toList.countP fun task => task.scheduler = s && kind task

variable {st : State V C} {s : SchedulerId}

theorem population_congr {kind kind' : Task V → Bool}
    (same : ∀ {t task}, st.tasks.get? t = some task → kind task = kind' task) :
    st.population s kind = st.population s kind' := by
  apply List.countP_congr
  intro task member
  obtain ⟨t, found⟩ := Table.exists_of_mem member
  rw [same found]

theorem population_eq_zero {kind : Task V → Bool} : st.population s kind = 0 ↔
    ∀ {t task}, st.tasks.get? t = some task → task.scheduler = s → kind task = false := by
  simp only [population, List.countP_eq_zero, Bool.and_eq_true, decide_eq_true_eq, not_and,
    Bool.not_eq_true]
  refine ⟨fun none' t task found => none' task (Table.mem_of_get? found), fun nobody task member => ?_⟩
  exact nobody (Table.exists_of_mem member).choose_spec

/-- Tasks of two kinds, none of which is of both. -/
theorem population_add {kind kind' : Task V → Bool}
    (apart : ∀ {t task}, st.tasks.get? t = some task → kind task = true → kind' task = false) :
    st.population s kind + st.population s kind' =
      st.population s fun task => kind task || kind' task := by
  have apart' : ∀ task ∈ st.tasks.entries.toList, kind task = true → kind' task = false :=
    fun task member => apart (Table.exists_of_mem member).choose_spec
  unfold population
  generalize st.tasks.entries.toList = tasks at apart'
  induction tasks with
  | nil => rfl
  | cons task rest inductionHypothesis =>
    have later := inductionHypothesis fun other member => apart' other (List.mem_cons_of_mem task member)
    have now := apart' task List.mem_cons_self
    simp only [List.countP_cons]
    cases first : kind task with
    | true => grind
    | false => grind

theorem tally_eq_population (c : Counter) :
    st.tally s c = st.population s fun task => task.counts c := by
  unfold tally Table.total population
  induction st.tasks.entries.toList with
  | nil => rfl
  | cons task rest inductionHypothesis =>
    rw [List.map_cons, List.sum_cons, inductionHypothesis, List.countP_cons]
    simp only [Task.weight, Bool.and_eq_true, decide_eq_true_eq]
    split <;> omega

theorem blockedCount_eq_population :
    st.blockedCount s = st.population s fun task => task.listed && task.isBlocked := by
  have counts : ∀ (tasks : List (Task V)) (n : Nat), tasks.foldl (fun n task =>
      if task.listed && task.scheduler = s && task.isBlocked then n + 1 else n) n =
        n + tasks.countP fun task => task.scheduler = s && (task.listed && task.isBlocked) := by
    intro tasks
    induction tasks with
    | nil => exact fun _ => rfl
    | cons task rest inductionHypothesis =>
      intro n
      rw [List.foldl_cons, inductionHypothesis, List.countP_cons]
      grind
  unfold blockedCount population
  rw [← Array.foldl_toList, counts, Nat.zero_add]

end State

/-! ## The records of who waits -/

/-- The records of who waits for what agree.  A parked task is in the place for what it waits for, once,
and nowhere else; whoever is in a place is parked and waits for that; and the counters of a scheduler
tell the parked tasks. -/
structure State.WaitsExactly (st : State V C) : Prop where
  parked : ∀ {t task}, st.tasks.get? t = some task → task.life = .waiting →
    ∃ target, task.waiting = some target ∧ (task.external = true ↔ target = .external) ∧
      (∀ r, (st.waiters r).count t = if target = .resource r then 1 else 0) ∧
      (∀ c, (st.joiners c).count t = if target = .task c then 1 else 0) ∧ ∀ s, t ∉ st.queue s
  owned : ∀ {t task r}, st.tasks.get? t = some task → task.life = .waiting →
    task.waiting = some (.resource r) → ∃ u owner, st.owner r = some u ∧
      st.tasks.get? u = some owner ∧ owner.life.isTerminal = false
  unfinished : ∀ {t task c}, st.tasks.get? t = some task → task.life = .waiting →
    task.waiting = some (.task c) → ∃ child, st.tasks.get? c = some child ∧ child.outcome = none
  lined : ∀ {t r}, t ∈ st.waiters r → ∃ task, st.tasks.get? t = some task ∧ task.life = .waiting ∧
    task.waiting = some (.resource r)
  joined : ∀ {t c}, t ∈ st.joiners c → ∃ task, st.tasks.get? t = some task ∧ task.life = .waiting ∧
    task.waiting = some (.task c)
  others : ∀ {t task}, st.tasks.get? t = some task → task.life ≠ .waiting →
    task.waiting = none ∧ task.external = false ∧ (∀ r, t ∉ st.waiters r) ∧ ∀ c, t ∉ st.joiners c
  counted : ∀ {s scheduler}, st.schedulers.get? s = some scheduler →
    (st.statsOf s scheduler).external = st.population s (fun task =>
      task.life = .waiting && task.waiting = some .external) ∧
    (st.statsOf s scheduler).blocked + (st.statsOf s scheduler).external =
      st.population s fun task => task.life = .waiting

/-- No thread is inside the code of a frame. -/
def Crew.Between (c : Crew V C) : Prop :=
  ∀ a ∈ c.agents, a.runs ≠ [] → ∀ program, a.focus ≠ .code program

/-- Where a task sits that waits for this, if it sits anywhere. -/
def WaitTarget.place? : WaitTarget → Option Place
  | .resource r => some (.line r)
  | .task c => some (.joiners c)
  | .external => none

theorem Task.place?_of_waiting {task : Task V} {target : WaitTarget}
    (waits : task.waiting = some target) : task.place? = target.place? := by
  unfold Task.place?
  rw [waits]
  cases target <;> rfl

namespace State.Seated

variable {st : State V C} {t : TaskId} {task : Task V}

theorem count_eq (seated : st.Seated fun _ => False) (found : st.tasks.get? t = some task)
    (place : Place) : (st.sitters place).count t = if task.place? = some place then 1 else 0 := by
  have sits := seated.placed found place
  simp only [not_false_eq_true, true_and] at sits
  split
  · next here => exact List.count_eq_one_of_mem (seated.distinct place) (sits.2 here)
  · next elsewhere => exact List.count_eq_zero_of_not_mem fun here => elsewhere (sits.1 here)

end State.Seated

namespace Crew.Sound

open State

variable {c : Crew V C} {t : TaskId}

/-- A resource that somebody waits for is owned by a task that is not at its end. -/
theorem owner_of_waits (sound : c.Sound) {r : ResourceId}
    (waits : t ∈ c.state.waiters r) : ∃ u owner, c.state.owner r = some u ∧
      c.state.tasks.get? u = some owner ∧ owner.life.isTerminal = false := by
  cases owns : c.state.owner r with
  | none =>
    have nobody : c.state.waiters r = [] := sound.warded.free owns
    simp [nobody] at waits
  | some u =>
    obtain ⟨g, ⟨b, base, _⟩, _⟩ := sound.warded.owned owns
    have known : ∃ owner, c.state.tasks.get? u = some owner := by
      cases stage : c.stage u with
      | none =>
        have top : c.state.top u = some b := (Picture.base_idle stage).symm.trans base
        exact Option.isSome_iff_exists.1 (isSome_of_top top)
      | some s =>
        obtain ⟨owner, found, _⟩ := Option.map_eq_some_iff.1 (sound.life_of_stage stage)
        exact ⟨owner, found⟩
    obtain ⟨owner, found⟩ := known
    refine ⟨u, owner, rfl, found, ?_⟩
    by_contra ended
    have stands : c.state.life u = some owner.life := by simp [State.life, found]
    exact sound.nothing_owned stands (by simpa using ended) owns

end Crew.Sound

namespace Crew.Orderly

open State

variable {c : Crew V C} {t : TaskId} {task : Task V}

/-- While no frame is running, nobody who runs has arranged to wait. -/
theorem calm_between (orderly : c.Orderly) (sound : c.Sound) (between : c.Between)
    (found : c.state.tasks.get? t = some task) (live : task.life = .running) :
    task.arranged = false := by
  have running : c.state.life t = some .running := by simp [State.life, found, live]
  obtain ⟨s, stage⟩ := Option.ne_none_iff_exists'.1 (orderly.manned running)
  obtain ⟨a, member, run⟩ := List.mem_flatMap.1 ((stage_eq_some_iff sound.distinct).1 stage)
  by_contra arranged
  obtain ⟨_, program, focus, _⟩ := orderly.calm member run found (by simpa using arranged)
  exact between a member (List.ne_nil_of_mem run) program focus

/-- Whoever says that it waits is parked. -/
theorem parked_of_waits (orderly : c.Orderly) (sound : c.Sound) (between : c.Between)
    (found : c.state.tasks.get? t = some task) (waits : task.waiting ≠ none) :
    task.life = .waiting := by
  cases (orderly.balanced.sane found).waits waits with
  | inl live =>
    have calm := orderly.calm_between sound between found live
    exact absurd (Task.arranged_eq_false.1 calm).2 waits
  | inr parked => exact parked

/-- A task that somebody joins is not at its end. -/
theorem unfinished_of_joins (orderly : c.Orderly) {child : TaskId} (joins : t ∈ c.state.joiners child) :
    ∃ awaited, c.state.tasks.get? child = some awaited ∧ awaited.outcome = none := by
  unfold State.joiners at joins
  cases known : c.state.tasks.get? child with
  | none => simp [known] at joins
  | some awaited =>
    have sane := orderly.balanced.sane known
    refine ⟨awaited, rfl, ?_⟩
    have open' : awaited.life.isTerminal = false := by
      by_contra ended
      have nobody := sane.left (by simpa using ended)
      simp [known, nobody] at joins
    simpa [open'] using sane.settled

theorem waitsExactly (orderly : c.Orderly) (sound : c.Sound) (between : c.Between) :
    c.state.WaitsExactly := by
  have balanced := orderly.balanced
  have seated := balanced.seated
  have parks : ∀ {t task}, c.state.tasks.get? t = some task → task.waiting ≠ none →
      task.life = .waiting := orderly.parked_of_waits sound between
  constructor
  case parked =>
    intro t task found parked
    have sane := balanced.sane found
    obtain ⟨target, waits⟩ := Option.ne_none_iff_exists'.1 (sane.parked parked)
    have external : task.external = true ↔ target = .external := by simp [sane.external, waits]
    have place := Task.place?_of_waiting waits
    refine ⟨target, waits, external, fun r => ?_, fun child => ?_, fun s => ?_⟩
    · refine (seated.count_eq found (.line r)).trans ?_
      cases target <;> simp [place, WaitTarget.place?]
    · refine (seated.count_eq found (.joiners child)).trans ?_
      cases target <;> simp [place, WaitTarget.place?]
    · intro queued
      have should := ((seated.placed found (.queue s)).1 queued).2
      cases target <;> simp [place, WaitTarget.place?] at should
  case owned =>
    intro t task r found _ waits
    apply sound.owner_of_waits (t := t)
    exact (seated.placed found (.line r)).2 ⟨id, Task.place?_of_waiting waits⟩
  case unfinished =>
    intro t task child found _ waits
    apply orderly.unfinished_of_joins (t := t)
    exact (seated.placed found (.joiners child)).2 ⟨id, Task.place?_of_waiting waits⟩
  case lined =>
    intro t r sits
    obtain ⟨task, found, waits⟩ := balanced.waits_of_line sits
    exact ⟨task, found, parks found (by simp [waits]), waits⟩
  case joined =>
    intro t child sits
    obtain ⟨task, found, waits⟩ := balanced.waits_of_joins sits
    exact ⟨task, found, parks found (by simp [waits]), waits⟩
  case others =>
    intro t task found awake
    have waitless : task.waiting = none := by
      by_contra waits
      exact awake (parks found waits)
    refine ⟨waitless, by simpa [waitless] using (balanced.sane found).external, fun r sits => ?_,
      fun child sits => ?_⟩
    · obtain ⟨other, found', waits⟩ := balanced.waits_of_line sits
      obtain rfl := Option.some.inj (found.symm.trans found')
      simp [waitless] at waits
    · obtain ⟨other, found', waits⟩ := balanced.waits_of_joins sits
      obtain rfl := Option.some.inj (found.symm.trans found')
      simp [waitless] at waits
  case counted =>
    intro s scheduler known
    -- A task counts as waiting outside exactly if it is parked and waits for that.
    have outside : ∀ {t task}, c.state.tasks.get? t = some task →
        task.counts .external = (task.life = .waiting && task.waiting = some .external : Bool) := by
      intro t task found
      have iff := (balanced.sane found).external
      cases external : task.external with
      | false => simp [Task.counts, external, show task.waiting ≠ some .external by simp [← iff, external]]
      | true =>
        have waits := iff.1 external
        simp [Task.counts, external, waits, parks found (by simp [waits])]
    have exactly : (c.state.statsOf s scheduler).external = c.state.population s fun task =>
        task.life = .waiting && task.waiting = some .external := by
      have counts := balanced.counted s scheduler known .external
      rw [tally_eq_population, population_congr outside] at counts
      simp only [Scheduler.count, Int.add_zero] at counts
      simp [statsOf, counts]
    refine ⟨exactly, ?_⟩
    rw [exactly]
    refine (congrArg (· + _) (@blockedCount_eq_population _ _ c.state s)).trans ?_
    rw [population_add]
    · apply population_congr
      intro t task found
      have listed := orderly.listed found
      by_cases outside : task.waiting = some .external
      · cases life : task.life <;> simp_all [Task.isBlocked, Life.isTerminal]
      · cases life : task.life <;> simp_all [Task.isBlocked, Life.isTerminal]
    · intro t task _ blocked
      simp_all [Task.isBlocked]

end Crew.Orderly

namespace Crew.Run

variable [Inhabited V]

/-- Whenever no frame of a task is running, the records of who waits for what agree. -/
theorem waits_exactly (run : Run V C Proper) {i : Nat} (bound : i ≤ run.length)
    (between : (run.crew i).Between) : (run.crew i).state.WaitsExactly :=
  (run.orderly i bound).waitsExactly ((run.mono fun _ _ proper => proper.1).sound i bound) between

/-! ### The rivals, once the second waits -/

theorem rivals_proper : ∀ n < 21, Proper (rivalsHost n).alone (rivalsHost n).agent := by
  intro n bound
  refine ⟨rivals_permitted n (by omega), ?_⟩
  interval_cases n
  case «16» => exact ⟨⟨⟨1⟩, rfl⟩, Agent.heads_frame.2 rfl⟩
  all_goals trivial

/-- The rivals up to where the second is parked. -/
def rivalsParked : Run Unit Empty Proper :=
  .ofHost 1 rivals 21 (fun n bound => rivals_ok n (by omega)) rivals_proper

theorem rivals_wait : (rivalsParked.crew 22).state.life ⟨2⟩ = some .waiting ∧
    (rivalsParked.crew 22).state.waiters ⟨1⟩ = [⟨2⟩] ∧ (rivalsParked.crew 22).state.WaitsExactly := by
  have between : (rivalsParked.crew 22).Between := by
    intro a member
    obtain rfl : a = (rivalsHost 21).agent := List.mem_singleton.1 member
    intro _ program
    nofun
  exact ⟨by decide +kernel, by decide +kernel, rivalsParked.waits_exactly (show 22 ≤ 22 by decide) between⟩

end Crew.Run

end Tasking
