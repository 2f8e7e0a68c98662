import Tasking.Proofs.Manners
import Tasking.Proofs.Progress
import Tasking.Proofs.Sharing

/-! # Orderly crews

In an orderly crew the books are right, exactly the unfinished tasks are on the lists of their
schedulers, exactly the tasks that some thread runs are running, and a running task that has arranged
to wait is about to suspend.

A step concerns at most one running task, and is no business of the others: it may wake tasks that
wait, and nothing else (`State.Spares`).  `Agent.Tidy` is what a step has to see to for the task that
it does concern.
-/

namespace Tasking

variable {V C : Type}

/-- Nothing happened to a task, except that it was started, or that it was woken while it waited. -/
structure Task.Alike (task task' : Task V) : Prop where
  top : task'.top = task.top
  error : task'.error = task.error
  listed : task'.listed = task.listed
  terminal : task'.life.isTerminal = task.life.isTerminal
  running : task'.life = .running ↔ task.life = .running
  arranged : task.life = .running → task'.arranged = task.arranged

namespace Task.Alike

variable {task task' task'' : Task V}

@[refl] theorem refl (task : Task V) : task.Alike task := ⟨rfl, rfl, rfl, rfl, .rfl, fun _ => rfl⟩

theorem trans (first : task.Alike task') (second : task'.Alike task'') : task.Alike task'' where
  top := second.top.trans first.top
  error := second.error.trans first.error
  listed := second.listed.trans first.listed
  terminal := second.terminal.trans first.terminal
  running := second.running.trans first.running
  arranged live := (second.arranged (first.running.2 live)).trans (first.arranged live)

theorem woken (waits : task.waiting ≠ none) : task.Alike task.woken := by
  unfold Task.woken
  split
  · next parked =>
    exact ⟨rfl, rfl, rfl, by simp [Task.scheduled, parked, Life.isTerminal],
      by simp [Task.scheduled, parked], by simp [parked]⟩
  · refine ⟨rfl, rfl, rfl, rfl, .rfl, fun _ => ?_⟩
    simp [Task.arranged, Option.isSome_iff_ne_none.2 waits]

end Task.Alike

namespace State

/-- The step is no business of the other tasks. -/
structure Spares (mine : Option TaskId) (st st' : State V C) : Prop where
  alike : ∀ {u task}, some u ≠ mine → st.tasks.get? u = some task →
    ∃ task', st'.tasks.get? u = some task' ∧ task.Alike task'
  back : ∀ {u task'}, st'.tasks.get? u = some task' → (st.tasks.get? u).isSome = true ∨
    (task'.life = .init ∨ task'.life = .ready) ∧ task'.listed = true ∧ task'.error = none ∧
      task'.top.isSome = true

variable {st st' st'' : State V C} {mine : Option TaskId} {t : TaskId} {task task' : Task V}

namespace Spares

@[refl] theorem refl (st : State V C) : Spares mine st st :=
  ⟨fun {_ task} _ found => ⟨task, found, .refl task⟩, fun found => .inl (by simp [found])⟩

theorem of_tasks (same : st'.tasks = st.tasks) : Spares mine st st' :=
  ⟨fun {_ task} _ found => ⟨task, same ▸ found, .refl task⟩, fun found => .inl (by simp [← same, found])⟩

/-- Only the task that the step concerns changed. -/
theorem of_becomes (known : (st.tasks.get? t).isSome = true) (becomes : Becomes st t task st') :
    Spares (some t) st st' where
  alike {u task'} other found := ⟨task', by rw [becomes.other fun same => other (by rw [same]), found], .refl _⟩
  back {u task'} found := by
    rw [becomes] at found
    split at found
    · next same => exact .inl (same ▸ known)
    · exact .inl (by simp [found])

/-- One task changed, and it is much like it was. -/
theorem of_alike (found : st.tasks.get? t = some task) (becomes : Becomes st t task' st')
    (alike : task.Alike task') : Spares mine st st' where
  alike {u other} _ found' := by
    by_cases same : u = t
    · subst same
      obtain rfl := Option.some.inj (found.symm.trans found')
      exact ⟨task', becomes.self, alike⟩
    · exact ⟨other, (becomes.other same).trans found', .refl _⟩
  back {u other} found' := by
    rw [becomes] at found'
    split at found'
    · next same => exact .inl (by simp [same, found])
    · exact .inl (by simp [found'])

end Spares

end State

/-! ## The invariant -/

/-- Threads of regular programs keep the books, and wait only when they say so. -/
structure Crew.Orderly (c : Crew V C) : Prop where
  balanced : c.state.Balanced
  listed : ∀ {t task}, c.state.tasks.get? t = some task → task.listed = !task.life.isTerminal
  manned : ∀ {t}, c.state.life t = some .running → c.stage t ≠ none
  calm : ∀ {a t s task}, a ∈ c.agents → (t, s) ∈ a.runs → c.state.tasks.get? t = some task →
    task.arranged = true → a.Parks t

/-- What a step of a thread has to see to: the books, and the task that the step concerns. -/
structure Agent.Tidy (c : Crew V C) (a : Agent V C) (config : Config V C) (mine : Option TaskId) :
    Prop where
  balanced : config.state.Balanced
  spares : State.Spares mine c.state config.state
  runs : ∀ {u s}, some u ≠ mine → ((u, s) ∈ config.agent.runs ↔ (u, s) ∈ a.runs)
  parks : ∀ {u}, a.Parks u → mine = some u
  listed : ∀ {u task}, mine = some u → config.state.tasks.get? u = some task →
    task.listed = !task.life.isTerminal
  manned : ∀ {u task}, mine = some u → config.state.tasks.get? u = some task → task.life = .running →
    ∃ s, (u, s) ∈ config.agent.runs
  calm : ∀ {u s task}, mine = some u → (u, s) ∈ config.agent.runs →
    config.state.tasks.get? u = some task → task.arranged = true → config.agent.Parks u

namespace Crew

variable {st : State V C} {before after : List (Agent V C)} {a : Agent V C} {config : Config V C}

/-- A tidy step keeps a crew orderly. -/
theorem Orderly.tidy (orderly : (⟨st, before ++ a :: after⟩ : Crew V C).Orderly)
    (sound : (⟨st, before ++ a :: after⟩ : Crew V C).Sound)
    (sound' : (⟨config.state, before ++ config.agent :: after⟩ : Crew V C).Sound) {mine : Option TaskId}
    (tidy : a.Tidy ⟨st, before ++ a :: after⟩ config mine)
    (apart : ∀ {b u s}, b ∈ before ++ after → (u, s) ∈ b.runs → some u ≠ mine) :
    (⟨config.state, before ++ config.agent :: after⟩ : Crew V C).Orderly where
  balanced := tidy.balanced
  listed {u task'} found := by
    by_cases own : some u = mine
    · exact tidy.listed own.symm found
    · rcases tidy.spares.back found with old | ⟨new, entered, _⟩
      · obtain ⟨task, before'⟩ := Option.isSome_iff_exists.1 old
        obtain ⟨other, found', alike⟩ := tidy.spares.alike own before'
        obtain rfl := Option.some.inj (found.symm.trans found')
        rw [alike.listed, alike.terminal]
        exact orderly.listed before'
      · rcases new with new | new <;> simp [new, entered, Life.isTerminal]
  manned {u} live := by
    obtain ⟨task', found, life⟩ := Option.map_eq_some_iff.1 live
    suffices ∃ s, (u, s) ∈ (⟨config.state, before ++ config.agent :: after⟩ : Crew V C).runs by
      obtain ⟨s, run⟩ := this
      simp [(stage_eq_some_iff sound'.distinct).2 run]
    by_cases own : some u = mine
    · obtain ⟨s, run⟩ := tidy.manned own.symm found life
      exact ⟨s, mem_runs (b := config.agent) (by simp) run⟩
    · rcases tidy.spares.back found with old | ⟨new, _⟩
      · obtain ⟨task, before'⟩ := Option.isSome_iff_exists.1 old
        obtain ⟨other, found', alike⟩ := tidy.spares.alike own before'
        obtain rfl := Option.some.inj (found.symm.trans found')
        have live' : st.life u = some .running := by
          simp [State.life, show st.tasks.get? u = some task from before', alike.running.1 life]
        obtain ⟨s, stage⟩ := Option.ne_none_iff_exists'.1 (orderly.manned live')
        obtain ⟨b, member, run⟩ := List.mem_flatMap.1 ((stage_eq_some_iff sound.distinct).1 stage)
        refine ⟨s, ?_⟩
        simp only [List.mem_append, List.mem_cons] at member
        rcases member with early | rfl | late
        · exact mem_runs (b := b) (by simp [early]) run
        · exact mem_runs (b := config.agent) (by simp) ((tidy.runs own).2 run)
        · exact mem_runs (b := b) (by simp [late]) run
      · simp [life] at new
  calm {b u s task'} member run found arranged := by
    have life : task'.life = .running := by
      have live := sound'.running (mem_runs member run)
      simpa [State.life, show config.state.tasks.get? u = some task' from found] using live
    -- What other threads run is as it was.
    have others : some u ≠ mine → ∃ task, st.tasks.get? u = some task ∧ task.arranged = true := by
      intro own
      rcases tidy.spares.back found with old | ⟨new, _⟩
      · obtain ⟨task, before'⟩ := Option.isSome_iff_exists.1 old
        obtain ⟨other, found', alike⟩ := tidy.spares.alike own before'
        obtain rfl := Option.some.inj (found.symm.trans found')
        exact ⟨task, before', alike.arranged (alike.running.1 life) ▸ arranged⟩
      · simp [life] at new
    rcases mem_replace member with rfl | old
    · by_cases own : some u = mine
      · exact tidy.calm own.symm run found arranged
      · obtain ⟨task, before', arranged'⟩ := others own
        have parks := orderly.calm (a := a) (by simp) ((tidy.runs own).1 run) before' arranged'
        exact absurd (tidy.parks parks).symm own
    · obtain ⟨task, before', arranged'⟩ := others (apart old run)
      exact orderly.calm (mem_original old) run before' arranged'

end Crew

/-! ## Steps that leave all runs where they are, and steps that move one -/

namespace Agent

variable {c : Crew V C} {a : Agent V C} {config : Config V C} {t : TaskId}

/-- A step that leaves all runs where they are is tidy if the running task was, and is, about to
    suspend if it has arranged to wait. -/
theorem Tidy.still (orderly : c.Orderly) (member : a ∈ c.agents) (runs : config.agent.runs = a.runs)
    (balanced : config.state.Balanced)
    (spares : State.Spares (a.runs.head?.map Prod.fst) c.state config.state)
    (own : ∀ {t task'}, a.runs.head?.map Prod.fst = some t → config.state.tasks.get? t = some task' →
      ∃ task, c.state.tasks.get? t = some task ∧ task'.listed = task.listed ∧
        task'.life.isTerminal = task.life.isTerminal ∧
        (task'.arranged = true → task.arranged = true ∨ config.agent.Parks t))
    (parks : ∀ {t}, a.Parks t → config.agent.Parks t) :
    a.Tidy c config (a.runs.head?.map Prod.fst) where
  balanced := balanced
  spares := spares
  runs _ := by rw [runs]
  parks {u} parking := by
    obtain ⟨⟨f, head⟩, _⟩ := parking
    rw [head]
    rfl
  listed {u task'} mine found := by
    obtain ⟨task, found', listed, terminal, _⟩ := own mine found
    rw [listed, terminal]
    exact orderly.listed found'
  manned {u task'} mine _ _ := by
    obtain ⟨⟨u', s⟩, head, rfl⟩ := Option.map_eq_some_iff.1 mine
    exact ⟨s, runs ▸ List.mem_of_mem_head? head⟩
  calm {u s task'} mine run found arranged := by
    obtain ⟨task, found', _, _, still⟩ := own mine found
    cases still arranged with
    | inl before => exact parks (orderly.calm member (runs ▸ run) found' before)
    | inr now => exact now

/-- A step that changes no running task but by what it stands on. -/
theorem Tidy.still_alike (orderly : c.Orderly) (member : a ∈ c.agents)
    (runs : config.agent.runs = a.runs) (balanced : config.state.Balanced)
    (spares : State.Spares none c.state config.state) (parks : ∀ {t}, a.Parks t → config.agent.Parks t)
    (live : ∀ {t s}, (t, s) ∈ a.runs → c.state.life t = some .running) :
    a.Tidy c config (a.runs.head?.map Prod.fst) := by
  refine Tidy.still orderly member runs balanced ⟨fun {u task} _ => spares.alike (by simp), spares.back⟩
    (fun {t task'} mine found => ?_) parks
  obtain ⟨⟨t, s⟩, head, rfl⟩ := Option.map_eq_some_iff.1 mine
  obtain ⟨task, found', life⟩ := Option.map_eq_some_iff.1 (live (List.mem_of_mem_head? head))
  obtain ⟨other, there, alike⟩ := spares.alike (by simp) found'
  obtain rfl := Option.some.inj (found.symm.trans there)
  exact ⟨task, found', alike.listed, alike.terminal, fun arranged => .inl (alike.arranged life ▸ arranged)⟩

/-- A step that moves the run of a task. -/
theorem Tidy.turn (old new : Option Stage) {others : List (TaskId × Stage)}
    (before : a.runs = entry t old ++ others) (after : config.agent.runs = entry t new ++ others)
    (absent : ∀ s, (t, s) ∉ others) (idle : old = none → ∀ program, a.focus ≠ .code program)
    (balanced : config.state.Balanced) (spares : State.Spares (some t) c.state config.state)
    (own : ∀ {task'}, config.state.tasks.get? t = some task' → task'.listed = !task'.life.isTerminal ∧
      (task'.life = .running → new ≠ none) ∧
      (task'.arranged = true → new ≠ none → config.agent.Parks t)) : a.Tidy c config (some t) where
  balanced := balanced
  spares := spares
  runs {u s} other := by
    have different : u ≠ t := fun same => other (by rw [same])
    rw [after, before, List.mem_append, List.mem_append]
    simp [not_mem_entry different]
  parks {u} parking := by
    obtain ⟨⟨f, head⟩, program, focus, _⟩ := parking
    cases old with
    | none => exact absurd focus (idle rfl program)
    | some s =>
      rw [before] at head
      simp only [entry, Option.map_some, Option.toList_some, List.cons_append, List.nil_append,
        List.head?_cons, Option.some.injEq, Prod.mk.injEq] at head
      rw [head.1]
  listed {u task'} mine found := by
    obtain rfl := Option.some.inj mine
    exact (own found).1
  manned {u task'} mine found life := by
    obtain rfl := Option.some.inj mine
    obtain ⟨s, stage⟩ := Option.ne_none_iff_exists'.1 ((own found).2.1 life)
    exact ⟨s, by simp [after, entry, stage]⟩
  calm {u s task'} mine run found arranged := by
    obtain rfl := Option.some.inj mine
    refine (own found).2.2 arranged fun gone => absent s ?_
    simpa [after, gone, entry] using run

end Agent

end Tasking
