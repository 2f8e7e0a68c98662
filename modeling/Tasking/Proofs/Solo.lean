import Tasking.Proofs.Strides
import Tasking.Scenario.Basic

/-! # A thread on its own

If schedulers have neither workers nor bound tasks, the embedding thread has every turn, so a pool does what this thread
does.  It takes at most two steps for each step of the thread: every now and then the thread is put aside, and has
the next turn at once.
-/

namespace Tasking

variable {V C : Type} [Inhabited V]

namespace Pool

/-- There are neither workers nor bound tasks. -/
def Lonely (schedulers : Table .scheduler Scheduler) : Prop :=
  ∀ s scheduler, schedulers.get? s = some scheduler → scheduler.workers = 0 ∧ scheduler.bound = []

/-- The thread goes on, and there is no other one that could. -/
structure Solo (c : Config V C) : Prop where
  able : status c = .busy
  lonely : Lonely c.state.schedulers

/-- The embedding thread is in the middle of something, and it is the only one. -/
def Alone (c : Config V C) (pool : Pool V C) : Prop :=
  ∃ served clock allowance lead, pool = ⟨c, [], [], served, clock, allowance, lead⟩

variable {c c' : Config V C} {pool : Pool V C} {n : Nat}

omit [Inhabited V] in
/-- Only a thread that was put aside can go on. -/
theorem turns_eq {p : Paused V C} {st : State V C} (lonely : Lonely st.schedulers) (able : p.reason.isInterrupted = true)
    (now : Nat) : turns st [p] [] now = [.resume p] := by
  have works : workTurns st [p.thread] = [] := by
    refine List.filterMap_eq_nil_iff.2 fun s _ => ?_
    cases found : st.schedulers.get? s with
    | none => rfl
    | some scheduler =>
      simp [(lonely s scheduler found).1, freeWorker?]
  have owns : ownTurns st [p.thread] = [] := by
    refine List.flatMap_eq_nil_iff.2 fun s _ => ?_
    cases found : st.schedulers.get? s with
    | none => rfl
    | some scheduler => simp [(lonely s scheduler found).2, boundTurns]
  simp [turns, resumable, able, works, owns]

omit [Inhabited V] in
/-- A thread that was put aside has the next turn. -/
theorem dispatch_eq (lonely : Lonely c.state.schedulers) (lead : Nat) (served : List Thread) (clock : Nat) :
    ∃ served' clock' lead', dispatch c.state [pause c (.interrupted lead)] [] served clock =
      .running ⟨c, [], [], served', clock', turnLength, lead'⟩ := by
  have next : ∀ turn : Turn V C, nextTurn? served [turn] = some turn := fun turn => by
    unfold nextTurn?
    cases found : [turn].find? fun turn => 0 < turn.lead with
    | none => rfl
    | some other => rw [List.mem_singleton.1 (List.mem_of_find?_eq_some found)]
  have goesOn : (Turn.resume (pause c (.interrupted lead))).focus clock = c.focus := by
    obtain ⟨st, focus, stack⟩ := c
    cases focus <;> rfl
  have nobody : [pause c (.interrupted lead)].filter (·.thread ≠ c.state.running) = [] := by simp [pause]
  refine ⟨c.state.running :: served.filter (· ≠ c.state.running), clock,
    leadAfter (.resume (pause c (.interrupted lead))) [.resume (pause c (.interrupted lead))], ?_⟩
  rw [dispatch, turns_eq lonely rfl, next]
  simp only [beginTurn, goesOn]
  exact congrArg (fun paused => Verdict.running ⟨c, paused, [], _, clock, turnLength, _⟩) nobody

/-- A step of the thread takes at most two steps of the pool. -/
theorem run_step (solo : Solo c) (step : c.step = .ok c') (alone : Alone c pool) :
    ∃ m ≤ 2, ∃ pool', Alone c' pool' ∧ ∀ k, run (m + k) pool = run k pool' := by
  obtain ⟨served, clock, allowance, lead, rfl⟩ := alone
  have goesOn : ∀ served clock allowance lead, Pool.step ⟨c, [], [], served, clock, allowance + 1, lead⟩ =
      .running ⟨c', [], [], served, clock + 1, allowance, lead⟩ := fun served clock allowance lead => by
    simp only [Pool.step, solo.able, advance, step]
  cases allowance with
  | succ allowance =>
    refine ⟨1, by decide, _, ⟨served, clock + 1, allowance, lead, rfl⟩, fun k => ?_⟩
    rw [Nat.add_comm, run, goesOn]
  | zero =>
    obtain ⟨served', clock', lead', dispatched⟩ := dispatch_eq solo.lonely lead served clock
    have aside : Pool.step ⟨c, [], [], served, clock, 0, lead⟩ =
        .running ⟨c, [], [], served', clock', turnLength, lead'⟩ := by
      simp only [Pool.step, solo.able, List.nil_append, dispatched]
    refine ⟨2, Nat.le_refl _, _, ⟨served', clock' + 1, 511, lead', rfl⟩, fun k => ?_⟩
    have second : run (k + 1) ⟨c, [], [], served', clock', turnLength, lead'⟩ =
        run k ⟨c', [], [], served', clock' + 1, 511, lead'⟩ := by
      rw [run, show turnLength = 511 + 1 from rfl, goesOn]
    rw [Nat.add_comm, run, aside]
    exact second

/-- What the thread does, the pool does. -/
theorem run_rolls (rolls : c.Rolls Solo n c') (alone : Alone c pool) :
    ∃ m ≤ 2 * n, ∃ pool', Alone c' pool' ∧ ∀ k, run (m + k) pool = run k pool' := by
  induction rolls generalizing pool with
  | refl => exact ⟨0, Nat.le_refl _, pool, alone, fun k => by rw [Nat.zero_add]⟩
  | @step _ _ _ n solo step _ inductionHypothesis =>
    obtain ⟨m₁, few₁, pool₁, alone₁, same₁⟩ := run_step solo step alone
    obtain ⟨m₂, few₂, pool₂, alone₂, same₂⟩ := inductionHypothesis alone₁
    exact ⟨m₁ + m₂, by omega, pool₂, alone₂, fun k => by rw [Nat.add_assoc, same₁, same₂]⟩

end Pool

/-- The state in which the machine ends when the embedding thread comes to its answer in time. -/
theorem Scenario.finalState_eq {parallelism steps n : Nat} {p : Program V C} {c : Config V C} {a : Answer V}
    (rolls : (Config.start (.initial parallelism) p).Rolls Pool.Solo n c) (answered : Pool.status c = .answered a)
    (enough : 2 * n < steps) : finalState steps parallelism p = c.state := by
  have starts : Pool.Alone (.start (.initial parallelism) p) (Pool.start (.initial parallelism) p) := ⟨_, _, _, _, rfl⟩
  obtain ⟨m, few, pool, alone, same⟩ := Pool.run_rolls rolls starts
  obtain ⟨rest, rfl⟩ : ∃ rest, steps = m + (rest + 1) := ⟨steps - m - 1, by omega⟩
  obtain ⟨served, clock, allowance, lead, rfl⟩ := alone
  rw [finalState, same, Pool.run]
  simp only [Pool.step, answered, Verdict.state]

end Tasking
