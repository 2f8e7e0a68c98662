import Mathlib.Data.List.Perm.Basic
import Tasking.Proofs.Serving

/-! # Sound crews

`Crew.Sound` is the invariant of crews whose programs are guarded: chains and ownership are in
order, a task that runs does so once, and every thread is where its stack says.  A step of a
thread concerns the run of at most one task; `Agent.Goes` says how, and `Crew.Sound.goes` that
this keeps the invariant.
-/

namespace Tasking

variable {V C : Type}

/-- A stage of a task's run as an entry among the runs in progress. -/
def entry (t : TaskId) (s : Option Stage) : List (TaskId × Stage) := (s.map fun s => (t, s)).toList

section Lookup

variable {runs runs' others : List (TaskId × Stage)} {t : TaskId} {s : Stage} {old new : Option Stage}

theorem lookup_iff_mem (distinct : (runs.map Prod.fst).Nodup) :
    runs.lookup t = some s ↔ (t, s) ∈ runs := by
  induction runs with
  | nil => simp
  | cons run rest inductionHypothesis =>
    obtain ⟨u, s'⟩ := run
    rw [List.map_cons, List.nodup_cons] at distinct
    rw [List.mem_cons]
    by_cases same : t = u
    · subst same
      rw [List.lookup_cons_self, Prod.mk.injEq]
      constructor
      · rintro ⟨⟩
        exact .inl ⟨rfl, rfl⟩
      · rintro (⟨_, rfl⟩ | later)
        · rfl
        · exact absurd (List.mem_map_of_mem later) distinct.1
    · rw [List.lookup_cons, beq_eq_false_iff_ne.2 same]
      simp [inductionHypothesis distinct.2, same]

theorem mem_entry : (t, s) ∈ entry t new ↔ new = some s := by
  cases new <;> simp [entry, eq_comm]

theorem not_mem_entry {u : TaskId} (other : u ≠ t) : (u, s) ∉ entry t new := by
  cases new <;> simp [entry, other]

/-- When the run of one task goes to another stage, begins, or ends, all other runs stay where they
    are. -/
theorem lookup_replace (distinct : (runs.map Prod.fst).Nodup)
    (before : runs.Perm (entry t old ++ others)) (after : runs'.Perm (entry t new ++ others))
    (fresh : old = none → runs.lookup t = none) :
    (runs'.map Prod.fst).Nodup ∧
      (fun u => runs'.lookup u) = Function.update (fun u => runs.lookup u) t new := by
  have spread := (before.map Prod.fst).nodup_iff.1 distinct
  have member : ∀ {u s}, (u, s) ∈ runs ↔ (u, s) ∈ entry t old ∨ (u, s) ∈ others := fun {u s} =>
    before.mem_iff.trans List.mem_append
  have absent : t ∉ others.map Prod.fst := by
    cases old with
    | none =>
      intro inside
      obtain ⟨⟨u, s⟩, among, rfl⟩ := List.mem_map.1 inside
      have found := (lookup_iff_mem distinct).2 (member.2 (.inr among))
      simp [fresh rfl] at found
    | some s =>
      simp only [entry, Option.map_some, Option.toList_some, List.singleton_append, List.map_cons,
        List.nodup_cons] at spread
      exact spread.1
  have rest : (others.map Prod.fst).Nodup := by
    rw [List.map_append] at spread
    exact (List.nodup_append.1 spread).2.1
  have distinct' : (runs'.map Prod.fst).Nodup := by
    rw [(after.map Prod.fst).nodup_iff]
    cases new with
    | none => exact rest
    | some s => exact List.nodup_cons.2 ⟨absent, rest⟩
  refine ⟨distinct', funext fun u => Option.ext fun s => ?_⟩
  rw [lookup_iff_mem distinct', after.mem_iff, List.mem_append]
  by_cases same : u = t
  · subst same
    rw [Function.update_self, mem_entry]
    exact ⟨fun found => found.resolve_right fun inside => absent (List.mem_map_of_mem inside), .inl⟩
  · rw [Function.update_of_ne same, lookup_iff_mem distinct, member]
    simp [not_mem_entry same]

end Lookup

open Picture

/-! ## Threads -/

/-- Whatever follows a run of a task is not a run itself. -/
def Focus.Settled : Focus V C → Prop
  | .trampoline _ after => after.run? = none
  | _ => True

/-- What waits for an answer goes on with something other than a run, or with the run that an
    unwind belongs to. -/
def Activation.Settled : Activation V C → Prop
  | .frame _ _ after => after.run? = none
  | .cancel t _ _ _ after => ∃ next, after = .trampoline t next ∧ next.run? = none
  | _ => True

/-- A thread is where its stack says: a guard whose answer is awaited has answered, and all other
    frames that wait for something are no guards. -/
structure Agent.Steady (p : Picture V) (a : Agent V C) : Prop where
  focus : a.focus.Settled
  stack : ∀ x ∈ a.stack, x.Settled
  first : ∀ {t f after rest}, a.stack = .frame t f after :: rest → p.guard f ≠ none →
    ∃ program, a.focus = .code program ∧ p.Awaits t f program
  later : ∀ {x rest t f after}, a.stack = x :: rest → .frame t f after ∈ rest → p.guard f = none

/-- Threads of guarded programs keep chains and ownership in order. -/
structure Crew.Sound (c : Crew V C) : Prop where
  warded : c.picture.Warded
  lined : c.state.Lined
  distinct : (c.runs.map Prod.fst).Nodup
  running : ∀ {t s}, (t, s) ∈ c.runs → c.state.life t = some .running
  ended : c.state.Ended
  steady : ∀ a ∈ c.agents, a.Steady c.picture

/-! ## Steps -/

/-- What a step does to chains and ownership: nothing that concerns ownership, or it moves the run
    of a task to a frame and resumes that.  It concerns the chain of at most one task. -/
inductive Effect (p : Picture V) (runner : Option TaskId) :
    Option (TaskId × FrameId) → Picture V → Prop where
  | neutral {p' : Picture V} (neutral : Neutral runner p p') : Effect p runner none p'
  | resumed {t : TaskId} {f : FrameId} {top : Option FrameId} {stage : Option Stage}
      {q p' : Picture V} (mine : runner = some t) (on : p.OnChain t f)
      (before : (p.move t top stage).Warded) (front : (p.move t top stage).Front t f)
      (absent : ∀ r, p.owner r = some t → t ∉ p.waiters r)
      (guarding : (p.move t top stage).Guarding t f q) (after : Neutral runner q p') :
      Effect p runner (some (t, f)) p'

namespace Picture.Guarding

variable {p q : Picture V} {t : TaskId} {f : FrameId}

theorem guard_ne (guarding : p.Guarding t f q) {g : FrameId} (other : g ≠ f) :
    q.guard g = p.guard g := by
  cases guarding with
  | plain => rfl
  | settle | take | wait | enter | letGo => exact guard_ward_ne other

theorem top (guarding : p.Guarding t f q) : q.top = p.top := by cases guarding <;> rfl

theorem known (guarding : p.Guarding t f q) : q.known = p.known := by cases guarding <;> rfl

end Picture.Guarding

namespace Effect

variable {p p' : Picture V} {runner : Option TaskId} {label : Option (TaskId × FrameId)}

theorem warded (effect : Effect p runner label p') (warded : p.Warded) : p'.Warded := by
  cases effect with
  | neutral neutral => exact neutral.warded warded
  | resumed _ _ before front absent guarding after =>
    exact after.warded (guarding.warded before front absent)

theorem known (effect : Effect p runner label p') {g : FrameId} (known : p.known g) : p'.known g := by
  cases effect with
  | neutral neutral => exact neutral.known known
  | resumed _ _ _ _ _ guarding after => exact after.known (guarding.known ▸ known)

/-- Guards that are not resumed stay as they are. -/
theorem guard (effect : Effect p runner label p') {g : FrameId} (known : p.known g)
    (other : ∀ t, label ≠ some (t, g)) : p'.guard g = p.guard g := by
  cases effect with
  | neutral neutral => exact neutral.guard known
  | @resumed t f _ _ _ _ _ _ _ _ _ guarding after =>
    have different : g ≠ f := fun same => other t (by rw [same])
    exact (after.guard (guarding.known ▸ known)).trans (guarding.guard_ne different)

theorem top (effect : Effect p runner label p') {u : TaskId} {f : FrameId} (other : some u ≠ runner)
    (found : p.top u = some f) : p'.top u = some f := by
  cases effect with
  | neutral neutral => exact neutral.top other found
  | resumed mine _ _ _ _ guarding after =>
    refine after.top other (guarding.top ▸ ?_)
    subst mine
    simpa [Picture.move, show u ≠ _ from fun same => other (congrArg some same)] using found

/-- Frames that run for a task are no concern of other tasks' steps. -/
theorem guard_inside (effect : Effect p runner label p') (warded : p.Warded) {u : TaskId}
    {g : FrameId} (inside : p.stage u = some (.inside g)) (other : some u ≠ runner) :
    p'.guard g = p.guard g := by
  refine effect.guard (warded.inside inside).1 fun t same => ?_
  subst same
  cases effect with
  | resumed mine on =>
    obtain rfl : u = t := warded.apart (.inr inside) (.inl on)
    exact other mine.symm

end Effect

/-- What a step of a thread comes to. -/
inductive Agent.Goes (c : Crew V C) (a : Agent V C) (config : Config V C) : Prop where
  /-- The runs of all tasks stay where they are. -/
  | still (runs : config.agent.runs = a.runs) (label : a.resumed? c.state = none)
      (effect : Effect c.picture (a.runs.head?.map Prod.fst) none (config.state.picture c.stage))
      (keeps : State.Keeps c.state config.state) (ended : c.state.Ended → config.state.Ended)
      (steady : config.agent.Steady (config.state.picture c.stage))
  /-- The run of a task goes to another stage, begins, or ends. -/
  | turn (t : TaskId) (old new : Option Stage) (others : List (TaskId × Stage))
      (before : a.runs = entry t old ++ others) (after : config.agent.runs = entry t new ++ others)
      (fresh : old = none → c.stage t = none)
      (effect : Effect c.picture (some t) (a.resumed? c.state)
        (config.state.picture (Function.update c.stage t new)))
      (lined : config.state.Lined) (ended : config.state.Ended)
      (mine : new ≠ none → config.state.life t = some .running)
      (live : ∀ {u}, u ≠ t → c.state.life u = some .running → config.state.life u = some .running)
      (steady : config.agent.Steady (config.state.picture (Function.update c.stage t new)))

theorem Picture.Awaits.keep {p p' : Picture V} {t : TaskId} {f : FrameId} {program : Program V C}
    (awaits : p.Awaits t f program) (guard : p'.guard f = p.guard f)
    (top : ∀ {g}, p.top t = some g → p'.top t = some g) : p'.Awaits t f program := by
  intro r phase found
  have answers := awaits (guard.symm.trans found)
  cases phase with
  | start | waiting | released => exact answers
  | held =>
    obtain ⟨body, value, same, found', different⟩ := answers
    exact ⟨body, value, same, top found', different⟩

/-- A thread that makes no step stays steady while no other step concerns its runs. -/
theorem Agent.Steady.keep {p p' : Picture V} {a : Agent V C} (steady : a.Steady p)
    (guard : ∀ {t f after}, .frame t f after ∈ a.stack → p'.guard f = p.guard f)
    (top : ∀ {t f after g}, .frame t f after ∈ a.stack → p.top t = some g → p'.top t = some g) :
    a.Steady p' where
  focus := steady.focus
  stack := steady.stack
  first {t f after behind} line guards := by
    have member : .frame t f after ∈ a.stack := by simp [line]
    rw [guard member] at guards
    obtain ⟨program, focus, awaits⟩ := steady.first line guards
    exact ⟨program, focus, awaits.keep (guard member) fun found => top member found⟩
  later {x behind t f after} line member := by
    rw [guard (line ▸ List.mem_cons_of_mem x member)]
    exact steady.later line member

theorem Agent.mem_runs {a : Agent V C} {t : TaskId} {f : FrameId} {after : Focus V C}
    (member : .frame t f after ∈ a.stack) : (t, .inside f) ∈ a.runs :=
  List.mem_append_right _ (List.mem_filterMap.2 ⟨_, member, rfl⟩)

namespace Crew

variable {st : State V C} {before after : List (Agent V C)} {a : Agent V C} {config : Config V C}

theorem runs_append : (⟨st, before ++ a :: after⟩ : Crew V C).runs.Perm
    (a.runs ++ (before ++ after).flatMap Agent.runs) := by
  simp only [runs, List.flatMap_append, List.flatMap_cons]
  exact (List.perm_append_comm_assoc _ _ _)

theorem stage_eq_some_iff {c : Crew V C} (distinct : (c.runs.map Prod.fst).Nodup) {t : TaskId}
    {s : Stage} : c.stage t = some s ↔ (t, s) ∈ c.runs := lookup_iff_mem distinct

theorem mem_runs {c : Crew V C} {b : Agent V C} (member : b ∈ c.agents) {run : TaskId × Stage}
    (inside : run ∈ b.runs) : run ∈ c.runs := List.mem_flatMap.2 ⟨b, member, inside⟩

/-- Other threads have other runs than the one that a step concerns. -/
theorem ne_of_mem_runs {t u : TaskId} {s : Stage} {old : Option Stage}
    {others : List (TaskId × Stage)} {b : Agent V C}
    (distinct : ((⟨st, before ++ a :: after⟩ : Crew V C).runs.map Prod.fst).Nodup)
    (mine : a.runs = entry t old ++ others)
    (fresh : old = none → (⟨st, before ++ a :: after⟩ : Crew V C).stage t = none)
    (member : b ∈ before ++ after) (inside : (u, s) ∈ b.runs) : u ≠ t := by
  rintro rfl
  cases old with
  | none =>
    have among : b ∈ before ++ a :: after := by
      rcases List.mem_append.1 member with early | late
      · exact List.mem_append_left _ early
      · exact List.mem_append_right _ (List.mem_cons_of_mem a late)
    have found := (stage_eq_some_iff distinct).2 (mem_runs (c := ⟨st, _⟩) among inside)
    simp [fresh rfl] at found
  | some s' =>
    rw [(runs_append.map Prod.fst).nodup_iff, mine] at distinct
    simp only [entry, Option.map_some, Option.toList_some, List.cons_append, List.map_cons,
      List.nodup_cons] at distinct
    exact distinct.1 (List.mem_map_of_mem (List.mem_append_right _
      (List.mem_flatMap.2 ⟨b, member, inside⟩)))

/-- When a thread moves the run of one task, begins it or ends it, all other runs stay where they are. -/
theorem runs_replaced {t : TaskId} {old new : Option Stage} {others : List (TaskId × Stage)}
    (distinct : ((⟨st, before ++ a :: after⟩ : Crew V C).runs.map Prod.fst).Nodup)
    (mine : a.runs = entry t old ++ others) (next : config.agent.runs = entry t new ++ others)
    (fresh : old = none → (⟨st, before ++ a :: after⟩ : Crew V C).stage t = none) :
    ((⟨config.state, before ++ config.agent :: after⟩ : Crew V C).runs.map Prod.fst).Nodup ∧
      (⟨config.state, before ++ config.agent :: after⟩ : Crew V C).stage =
        Function.update (⟨st, before ++ a :: after⟩ : Crew V C).stage t new := by
  have perm : (⟨st, before ++ a :: after⟩ : Crew V C).runs.Perm
      (entry t old ++ (others ++ (before ++ after).flatMap Agent.runs)) := by
    rw [← List.append_assoc, ← mine]
    exact runs_append
  have perm' : (⟨config.state, before ++ config.agent :: after⟩ : Crew V C).runs.Perm
      (entry t new ++ (others ++ (before ++ after).flatMap Agent.runs)) := by
    rw [← List.append_assoc, ← next]
    exact runs_append
  exact lookup_replace distinct perm perm' fresh

theorem mem_replace {b : Agent V C} (member : b ∈ before ++ config.agent :: after) :
    b = config.agent ∨ b ∈ before ++ after := by
  simp only [List.mem_append, List.mem_cons] at member ⊢
  tauto

theorem mem_original {b : Agent V C} (member : b ∈ before ++ after) : b ∈ before ++ a :: after := by
  simp only [List.mem_append, List.mem_cons] at member ⊢
  tauto

/-- Threads that make no step stay steady. -/
theorem Sound.steady_others (sound : (⟨st, before ++ a :: after⟩ : Crew V C).Sound)
    {runner : Option TaskId} {label : Option (TaskId × FrameId)} {p' : Picture V}
    (effect : Effect (⟨st, before ++ a :: after⟩ : Crew V C).picture runner label p')
    (apart : ∀ {b u s}, b ∈ before ++ after → (u, s) ∈ b.runs → some u ≠ runner)
    {b : Agent V C} (member : b ∈ before ++ after) : b.Steady p' := by
  refine (sound.steady b (mem_original member)).keep (fun {u g behind} inside => ?_)
    (fun {u g behind h} inside found => ?_)
  · have run := Agent.mem_runs inside
    refine effect.guard_inside sound.warded ?_ (apart member run)
    exact (stage_eq_some_iff sound.distinct).2 (mem_runs (c := ⟨st, _⟩) (mem_original member) run)
  · exact effect.top (apart member (Agent.mem_runs inside)) found

/-- A step of a thread keeps a crew sound, and does to chains and ownership what it may do.  No other thread runs
the task that it concerns. -/
theorem Sound.goes (sound : (⟨st, before ++ a :: after⟩ : Crew V C).Sound)
    (goes : a.Goes ⟨st, before ++ a :: after⟩ config) :
    (⟨config.state, before ++ config.agent :: after⟩ : Crew V C).Sound ∧
      ∃ runner, Effect (⟨st, before ++ a :: after⟩ : Crew V C).picture runner (a.resumed? st)
          (⟨config.state, before ++ config.agent :: after⟩ : Crew V C).picture ∧
        ∀ {b u s}, b ∈ before ++ after → (u, s) ∈ b.runs → some u ≠ runner := by
  cases goes with
  | still runs label effect keeps ended steady =>
    have same : (⟨config.state, before ++ config.agent :: after⟩ : Crew V C).runs =
        (⟨st, before ++ a :: after⟩ : Crew V C).runs := by
      simp only [Crew.runs, List.flatMap_append, List.flatMap_cons, runs]
    have stage : (⟨config.state, before ++ config.agent :: after⟩ : Crew V C).stage =
        (⟨st, before ++ a :: after⟩ : Crew V C).stage := by
      funext t
      simp only [Crew.stage, same]
    have apart : ∀ {b u s}, b ∈ before ++ after → (u, s) ∈ b.runs →
        some u ≠ a.runs.head?.map Prod.fst := by
      intro b u s member inside equal
      obtain ⟨⟨t, s'⟩, first, rfl⟩ := Option.map_eq_some_iff.1 equal.symm
      obtain ⟨others, line⟩ := List.head?_eq_some_iff.1 first
      exact ne_of_mem_runs sound.distinct (show _ = entry t (some s') ++ others from line) (by simp) member
        inside rfl
    have after' : (⟨config.state, before ++ config.agent :: after⟩ : Crew V C).picture =
        config.state.picture (⟨st, before ++ a :: after⟩ : Crew V C).stage :=
      congrArg config.state.picture stage
    refine ⟨⟨after' ▸ effect.warded sound.warded, keeps.lined sound.lined, ?_, ?_,
      ended sound.ended, ?_⟩, a.runs.head?.map Prod.fst, ?_⟩
    · rw [same]
      exact sound.distinct
    · intro t s member
      rw [same] at member
      exact keeps.running (sound.running member)
    · intro b member
      rw [after']
      rcases mem_replace member with rfl | old
      · exact steady
      · exact sound.steady_others effect apart old
    · rw [show a.resumed? st = none from label]
      exact ⟨after' ▸ effect, apart⟩
  | turn t old new others mine next fresh effect lined ended running live steady =>
    obtain ⟨distinct, stage⟩ := runs_replaced sound.distinct mine next fresh
    have apart : ∀ {b u s}, b ∈ before ++ after → (u, s) ∈ b.runs → some u ≠ some t :=
      fun member inside same =>
        ne_of_mem_runs sound.distinct mine fresh member inside (Option.some.inj same)
    have picture : (⟨config.state, before ++ config.agent :: after⟩ : Crew V C).picture =
        config.state.picture (Function.update (⟨st, before ++ a :: after⟩ : Crew V C).stage t new) :=
      congrArg config.state.picture stage
    refine ⟨⟨picture ▸ effect.warded sound.warded, lined, distinct, ?_, ended, ?_⟩, some t,
      picture ▸ effect, apart⟩
    · intro u s member
      have found := (congrFun stage u).symm.trans ((stage_eq_some_iff distinct).2 member)
      by_cases same : u = t
      · subst same
        rw [Function.update_self] at found
        exact running (by simp [found])
      · rw [Function.update_of_ne same] at found
        exact live same (sound.running ((stage_eq_some_iff sound.distinct).1 found))
    · intro b member
      rw [picture]
      rcases mem_replace member with rfl | old
      · exact steady
      · exact sound.steady_others effect apart old

end Crew

end Tasking
