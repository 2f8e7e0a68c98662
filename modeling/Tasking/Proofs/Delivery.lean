import Tasking.Proofs.Joins
import Tasking.Proofs.Unshared

/-! # Joins deliver outcomes

A task that joins another one gets the outcome of that task, and gets it once, whatever other tasks do
meanwhile and on whatever threads, if nobody meddles with it (`Crew.Run.joins_deliver`).  An error that no
frame catches goes along a chain of tasks that join one another unchanged.
-/

namespace Tasking

variable {V C : Type}

namespace State

/-- The frame passes on every error that it is resumed with, at once.  The ready-made frames do. -/
def PassesOn (st : State V C) (f : FrameId) : Prop :=
  match st.code? f with
  | some (.host body) => ∀ context value error, body context value (some error) = .answer (.throw error)
  | some _ => True
  | none => False

/-- The frames below a frame on its chain pass on every error. -/
def Uncaught (st : State V C) : FrameId → List FrameId → Prop
  | f, [] => st.caller f = none
  | f, g :: below => st.caller f = some g ∧ st.PassesOn g ∧ st.Uncaught g below

variable {st st' : State V C} {t : TaskId} {f : FrameId} {value : V} {e : Error V} {resumption : Resumption V C}

/-- A frame that passes on errors throws the one that it is resumed with.  A guard gives up its resource
before. -/
theorem resume_passes (passes : st.PassesOn f)
    (done : st.resume t f value (some e) = .ok (resumption, st')) :
    resumption = ⟨.answer (.throw e), none⟩ ∧ Touches (fun u => ∃ q, u ∈ st.waiters q) st st' := by
  simp only [State.resume, bind_ok, frame_ok] at done
  obtain ⟨frame, found, done⟩ := done
  have code : st.code? f = some frame.code := by rw [code?, found]; rfl
  rw [PassesOn, code] at passes
  have recode {code' : Frame.Code V (Body V C)} (other : ∀ child, frame.code ≠ .join child true) :
      Touches (fun u => ∃ q, u ∈ st.waiters q) st (st.setCode f code') :=
    .setCode st f _ fun child joins => other child (Option.some.inj (code.symm.trans joins))
  cases same : frame.code with
  | host body =>
    simp only [same, pure_ok, Prod.mk.injEq] at done passes
    obtain ⟨rfl, rfl⟩ := done
    exact ⟨by rw [passes], .refl st⟩
  | guard r phase =>
    simp only [same, bind_ok, pure_ok, Prod.mk.injEq] at done
    obtain ⟨⟨answer, st₁⟩, resumed, rfl, rfl⟩ := done
    cases phase with
    | start body =>
      obtain ⟨rfl, rfl⟩ := Prod.mk.inj (pure_ok.1 resumed)
      exact ⟨rfl, recode (by simp [same])⟩
    | waiting body kept =>
      simp only [resumeGuard, check_ok] at resumed
      exact absurd rfl resumed.1
    | held =>
      simp only [resumeGuard, bind_ok, pure_ok, Prod.mk.injEq] at resumed
      obtain ⟨st₂, gives, rfl, rfl⟩ := resumed
      exact ⟨rfl, (recode (by simp [same])).trans (touches_release gives)⟩
    | released => simp [resumeGuard] at resumed
  | join child parked =>
    simp only [same, bind_ok, pure_ok, Prod.mk.injEq] at done
    obtain ⟨⟨answer, st₁⟩, resumed, rfl, rfl⟩ := done
    obtain ⟨rfl, rfl⟩ := Prod.mk.inj (pure_ok.1 resumed)
    exact ⟨rfl, .refl st⟩
  | message a message delivered =>
    simp only [same, resumeMessage] at done
    split at done
    · obtain ⟨rfl, rfl⟩ := Prod.mk.inj (pure_ok.1 done)
      exact ⟨rfl, .refl st⟩
    · obtain ⟨rfl, rfl⟩ := Prod.mk.inj (pure_ok.1 done)
      exact ⟨rfl, recode (by simp [same])⟩

end State

open State

/-- A task whose top frame passes on errors is resumed with one. -/
theorem Config.step_passes [Inhabited V] {st : State V C} {t : TaskId} {f : FrameId} {task : Task V} {e : Error V}
    {after : Focus V C} {rest : List (Activation V C)} {config : Config V C}
    (found : st.tasks.get? t = some task) (top : task.top = some f) (error : task.error = some e)
    (passes : st.PassesOn f) (step : (⟨st, .trampoline t after, rest⟩ : Config V C).step = .ok config) :
    config.agent = ⟨.code (.answer (.throw e)), .frame t f after :: rest⟩ ∧
      Touches (fun u => ∃ q, u ∈ st.waiters q) (st.unloaded t) config.state := by
  simp only [Config.step, Config.resumeTop, bind_ok, task_ok] at step
  obtain ⟨task', found', step⟩ := step
  obtain rfl := Option.some.inj (found.symm.trans found')
  simp only [top, error] at step
  obtain ⟨resumption, st', resumed, rfl⟩ := Crew.Sound.resumeFrame_ok
    (show (⟨st.unloaded t, .trampoline t after, rest⟩ : Config V C).resumeFrame t f task.value (some e)
      (.frame t f after) = .ok config from step)
  obtain ⟨rfl, touches⟩ := resume_passes (show (st.unloaded t).PassesOn f from passes) resumed
  exact ⟨rfl, touches⟩

namespace Crew

variable [Inhabited V] {c c' : Crew V C} {t child : TaskId} {f g : FrameId} {o : Outcome V} {e : Error V}
  {label : Option (TaskId × FrameId)}

/-- The top frame of the task is about to be resumed with an error. -/
structure Fails (c : Crew V C) (t : TaskId) (f : FrameId) (e : Error V) : Prop where
  free : ∀ r, t ∉ c.state.waiters r
  left : ∀ u, t ∉ c.state.joiners u
  stands : c.state.stance t = some (.running, false, some f, some e)
  taken : c.TakenUp t

/-- A frame that passes errors on answers with the error that it is resumed with. -/
theorem Fails.step (fails : c.Fails t f e) (passes : c.state.PassesOn f)
    (step : Step (fun _ a => ¬ a.Meddles t) c label c') : c'.Fails t f e ∨ c'.Concludes t f (.error e) := by
  cases step.regards (known_of_stance fails.stands) fails.free fails.taken.runs with
  | skips skips hands label =>
    refine .inl ⟨fun r => skips.waits r (fails.free r), fun u => ?_, skips.stance.trans fails.stands,
      fails.taken.congr hands⟩
    rw [← List.count_eq_zero, skips.joins, List.count_eq_zero]
    exact fails.left u
  | begins ready => exact absurd ready (not_ready_of_stance fails.stands (by simp))
  | wakes ends joins => exact absurd joins (fails.left _)
  | @acts a config member runs step state hands label =>
    obtain ⟨after, rest, sole, out, out'⟩ := fails.taken
    rw [sole] at member
    obtain rfl := List.mem_singleton.1 member
    obtain ⟨task, found, same⟩ := Option.map_eq_some_iff.1 fails.stands
    simp only [Task.stance, Prod.mk.injEq] at same
    obtain ⟨agent, touches⟩ := Config.step_passes found same.2.2.1 same.2.2.2 passes step
    have stands := Config.stance_unloaded fails.stands
    have skips := touches.skips (known_of_stance stands) (not_exists.2 fails.free)
    rw [← state] at skips
    refine .inr ⟨fun r => skips.waits r (fails.free r), fun u => ?_, skips.stance.trans stands, after, rest, ?_, out,
      out'⟩
    · rw [← List.count_eq_zero, skips.joins, (Config.bearing_unloaded c.state t u).2, List.count_eq_zero]
      exact fails.left u
    · rw [agent] at hands
      exact (hands sole).trans (if_pos (show t ∈ Agent.inHand ⟨_, .frame t f after :: rest⟩ from List.mem_cons_self))

omit [Inhabited V] in
/-- An error that a frame throws is what its caller is resumed with next. -/
theorem Concludes.fails (concludes : c.Concludes t f (.error e)) (link : c.state.caller f = some g)
    (concluded : Concluded c c' t f (.error e)) (free : ∀ r, t ∉ c'.state.waiters r)
    (left : ∀ u, t ∉ c'.state.joiners u) : c'.Fails t g e := by
  obtain ⟨root, _⟩ | ⟨h, task, link', found, found', taken⟩ := concluded
  · simp [link] at root
  · obtain rfl := Option.some.inj (link.symm.trans link')
    have stands := concludes.stands
    rw [stance_of_get? found] at stands
    simp only [Task.stance, Option.some.injEq, Prod.mk.injEq] at stands
    refine ⟨free, left, ?_, taken⟩
    rw [stance_of_get? found']
    simp [Config.returnTo, Task.stance, stands]

omit [Inhabited V] in
/-- A task whose stage is not its last has no outcome. -/
theorem unended_of_stance {st : State V C} (final : st.Final) {life : Life} {notified : Bool} {top : Option FrameId}
    {error : Option (Error V)} (stands : st.stance t = some (life, notified, top, error))
    (more : life.isTerminal = false) : st.outcome t = none := by
  by_contra ended
  obtain ⟨last, live, terminal⟩ := final t ended
  obtain rfl := Option.some.inj ((life_of_stance stands).symm.trans live)
  simp [terminal] at more

/-! ## Joins in a run -/

namespace Run

variable {allowed : Crew V C → Agent V C → Prop}

/-- Nobody meddles with the task in the steps from `i` up to `n`. -/
def LeavesAlone (run : Run V C allowed) (t : TaskId) (i n : Nat) : Prop :=
  ∀ k, i ≤ k → k < n → Step (fun _ a => ¬ a.Meddles t) (run.crew k) (run.resumed k) (run.crew (k + 1))

/-- The task is not resumed between two moments. -/
def Dormant (run : Run V C allowed) (t : TaskId) (i j : Nat) : Prop :=
  ∀ k, i < k → k < j → ∀ g, run.resumed k ≠ some (t, g)

/-- A step resumes a fresh join for the first time and without an error.  The join may wait for the other task,
and nothing else is to wake the task: no wake is pending, and the task is in no other line. -/
structure JoinsAt (run : Run V C allowed) (i : Nat) (t : TaskId) (f : FrameId) (child : TaskId) : Prop where
  code : (run.crew i).state.code? f = some (.join child false)
  stands : (run.crew i).state.stance t = some (.running, false, some f, none)
  taken : ∃ after rest, ⟨.trampoline t after, rest⟩ ∈ (run.crew i).agents
  resumed : run.resumed i = some (t, f)
  free : ∀ r, t ∉ (run.crew i).state.waiters r
  left : ∀ u, t ∉ (run.crew i).state.joiners u
  allowed : (run.crew i).state.outcome child = none → (run.crew i).state.refusal? t (.task child) = none

section

variable {run : Run V C allowed} {i j k n : Nat} {result : Except (Error V) V}

theorem LeavesAlone.from (alone : run.LeavesAlone t i n) (later : i ≤ k) : run.LeavesAlone t k n :=
  fun l after before => alone l (later.trans after) before

theorem Dormant.succ (dormant : run.Dormant t i j) (still : ∀ g, run.resumed j ≠ some (t, g)) :
    run.Dormant t i (j + 1) := by
  intro k after before
  rcases Nat.lt_succ_iff_lt_or_eq.1 before with earlier | rfl
  · exact dormant k after earlier
  · exact still

theorem Dormant.base (run : Run V C allowed) (t : TaskId) (i : Nat) : run.Dormant t i (i + 1) :=
  fun _ after before => absurd before (by omega)

/-- A frame that answered with its result goes on to be finished. -/
theorem concludes_or_concluded (alone : run.LeavesAlone t k n) (concludes : (run.crew k).Concludes t f result) :
    ∀ j, k ≤ j → j ≤ n → (run.crew j).Concludes t f result ∨
      ∃ m, k ≤ m ∧ m < j ∧ Concluded (run.crew m) (run.crew (m + 1)) t f result := by
  intro j later
  induction j, later using Nat.le_induction with
  | base => exact fun _ => .inl concludes
  | succ j later inductionHypothesis =>
    intro bound
    rcases inductionHypothesis (by omega) with concludes | ⟨m, after, before, concluded⟩
    · rcases concludes.step (alone j later bound) with ⟨concludes, _⟩ | ⟨concluded, _⟩
      · exact .inl concludes
      · exact .inr ⟨j, later, Nat.lt_succ_self j, concluded⟩
    · exact .inr ⟨m, after, by omega, concluded⟩

end

variable {run : Run V C Unmoved} {i j k n : Nat}

theorem JoinsAt.joins (at' : run.JoinsAt i t f child) (bound : i ≤ run.length) :
    (run.crew i).Joins t f child := by
  obtain ⟨after, rest, member⟩ := at'.taken
  exact ⟨at'.code, at'.free, at'.left, at'.stands, ⟨after, rest, (run.unshared i bound).takenUp member⟩, at'.allowed⟩

theorem JoinsAt.step (joins : run.JoinsAt i t f child) (alone : run.LeavesAlone t i n) (within : n ≤ run.length)
    (bound : i < n) :
    (∀ o, (run.crew i).state.outcome child = some o → (run.crew (i + 1)).Concludes t f (resultOf o)) ∧
      ((run.crew i).state.outcome child = none → (run.crew (i + 1)).Pending t f child ∧
        (run.crew (i + 1)).state.joiners child = (run.crew i).state.joiners child ++ [t]) := by
  have step := alone i (Nat.le_refl i) bound
  rw [joins.resumed] at step
  exact (joins.joins (by omega)).step step

/-- How far a join has come that began at step `i`, before the other task had ended. -/
inductive Joining (run : Run V C allowed) (t : TaskId) (f : FrameId) (child : TaskId) (i j : Nat) : Prop where
  | pending (pending : (run.crew j).Pending t f child) (dormant : run.Dormant t i j)
  | called {o : Outcome V} (called : (run.crew j).Called t f child o) (dormant : run.Dormant t i j)
  | resumed {k : Nat} {o : Outcome V} (after : i < k) (before : k < j) (dormant : run.Dormant t i k)
      (ended : (run.crew k).state.outcome child = some o) (resumed : run.resumed k = some (t, f))
      (concludes : (run.crew (k + 1)).Concludes t f (resultOf o))

theorem JoinsAt.joining (joins : run.JoinsAt i t f child) (alone : run.LeavesAlone t i n)
    (within : n ≤ run.length) (unended : (run.crew i).state.outcome child = none) :
    ∀ j, i < j → j ≤ n → run.Joining t f child i j := by
  intro j later
  induction j, later using Nat.le_induction with
  | base =>
    intro bound
    exact .pending ((joins.step alone within bound).2 unended).1 (.base run t i)
  | succ j later inductionHypothesis =>
    intro bound
    have step := alone j (by omega) bound
    have final := run.final j (by omega)
    cases inductionHypothesis (by omega) with
    | pending pending dormant =>
      obtain ⟨still, ⟨pending, _⟩ | ⟨o, called, _⟩⟩ := pending.step final step
      · exact .pending pending (dormant.succ still)
      · exact .called called (dormant.succ still)
    | called called dormant =>
      obtain ⟨_, ⟨called, still⟩ | ⟨resumed, concludes⟩⟩ := called.step final step
      · exact .called called (dormant.succ still)
      · exact .resumed later (Nat.lt_succ_self j) dormant called.ended resumed concludes
    | resumed after before dormant ended resumed concludes =>
      exact .resumed after (by omega) dormant ended resumed concludes

/-- What becomes of a join that began at step `i`, as far as step `n`. -/
structure Delivers (run : Run V C allowed) (t : TaskId) (f : FrameId) (child : TaskId) (i n : Nat) : Prop where
  /-- After the other task has ended, the join does not suspend. -/
  early : ∀ {o}, (run.crew i).state.outcome child = some o → (run.crew (i + 1)).Concludes t f (resultOf o)
  /-- Before that, the task gets in line behind the earlier joiners. -/
  enters : (run.crew i).state.outcome child = none →
    (run.crew (i + 1)).state.joiners child = (run.crew i).state.joiners child ++ [t]
  /-- As long as the other task has not ended, the task suspends and is not resumed. -/
  waits : ∀ {j}, i < j → j ≤ n → (run.crew j).state.outcome child = none →
    (run.crew j).Pending t f child ∧ run.Dormant t i j ∧
      (run.crew (i + 1)).state.joiners child <+: (run.crew j).state.joiners child
  /-- The end of the other task wakes the task, and nothing else does. -/
  woken : (run.crew i).state.outcome child = none → ∀ {j}, i < j → j < n → run.Dormant t i (j + 1) →
    (Roused t (run.crew j).state (run.crew (j + 1)).state ↔
      (run.crew j).state.outcome child = none ∧ (run.crew (j + 1)).state.outcome child ≠ none)
  /-- Then the task is called, and the next time it is resumed the join finishes as the other task did. -/
  resumes : (run.crew i).state.outcome child = none → ∀ {j o}, i < j → j ≤ n →
    (run.crew j).state.outcome child = some o →
      (run.crew j).Called t f child o ∧ run.Dormant t i j ∨
        ∃ k, i < k ∧ k < j ∧ run.Dormant t i k ∧ (run.crew k).state.outcome child = some o ∧
          run.resumed k = some (t, f) ∧ (run.crew (k + 1)).Concludes t f (resultOf o)
  /-- That resume does not fault. -/
  sound : (run.crew i).state.outcome child = none → ∀ {j o after rest}, i < j → j ≤ n →
    (run.crew j).state.outcome child = some o → run.Dormant t i j → ⟨.trampoline t after, rest⟩ ∈ (run.crew j).agents →
      ∃ config, (⟨(run.crew j).state, .trampoline t after, rest⟩ : Config V C).step = .ok config ∧
        config.focus = .code (.answer (answerOf o))
  /-- A join that answered goes on to be finished. -/
  finishes : ∀ {k result}, i < k → (run.crew k).Concludes t f result → ∀ {j}, k ≤ j → j ≤ n →
    (run.crew j).Concludes t f result ∨
      ∃ m, k ≤ m ∧ m < j ∧ Concluded (run.crew m) (run.crew (m + 1)) t f result

theorem JoinsAt.delivers (joins : run.JoinsAt i t f child) (alone : run.LeavesAlone t i n)
    (within : n ≤ run.length) (bound : i < n) : run.Delivers t f child i n where
  early ended := (joins.step alone within bound).1 _ ended
  enters unended := ((joins.step alone within bound).2 unended).2
  waits {j} later bound' unended := by
    have before : (run.crew i).state.outcome child = none := by
      cases ended : (run.crew i).state.outcome child with
      | none => rfl
      | some o => simp [run.outcome_stays later.le (bound'.trans within) ended] at unended
    cases joins.joining alone within before j later bound' with
    | pending pending dormant =>
      exact ⟨pending, dormant, run.joiners_grow later (bound'.trans within) unended⟩
    | called called => simp [called.ended] at unended
    | resumed after before dormant ended =>
      simp [run.outcome_stays before.le (bound'.trans within) ended] at unended
  woken unended {j} later bound' dormant := by
    have step := alone j later.le bound'
    have final := run.final j (by omega)
    cases joins.joining alone within unended j later bound'.le with
    | pending pending =>
      obtain ⟨_, ⟨pending', calm⟩ | ⟨o, called, roused⟩⟩ := pending.step final step
      · exact iff_of_false calm fun ⟨_, ended⟩ => ended pending'.unended
      · exact iff_of_true roused ⟨pending.unended, by simp [called.ended]⟩
    | called called =>
      refine iff_of_false (called.step final step).1 fun ⟨unended', _⟩ => ?_
      simp [called.ended] at unended'
    | resumed after before _ _ resumed => exact absurd resumed (dormant _ after (by omega) f)
  resumes unended {j o} later bound' ended := by
    cases joins.joining alone within unended j later bound' with
    | pending pending => simp [pending.unended] at ended
    | called called dormant =>
      obtain rfl := Option.some.inj (called.ended.symm.trans ended)
      exact .inl ⟨called, dormant⟩
    | @resumed k o' after before dormant ended' resumed concludes =>
      obtain rfl := Option.some.inj ((run.outcome_stays before.le (bound'.trans within) ended').symm.trans ended)
      exact .inr ⟨k, after, before, dormant, ended', resumed, concludes⟩
  sound unended {j o after rest} later bound' ended dormant member := by
    have hand : (⟨.trampoline t after, rest⟩ : Agent V C) ∈ (run.crew j).hands t :=
      List.mem_filter.2 ⟨member, by simp [Agent.inHand, Focus.inHand]⟩
    cases joins.joining alone within unended j later bound' with
    | pending pending => simp [pending.unended] at ended
    | called called =>
      obtain rfl := Option.some.inj (called.ended.symm.trans ended)
      obtain ⟨_, _, _, hands, _⟩ | ⟨_, hands⟩ | ⟨stands, _⟩ := called.stands
      · simp [hands] at hand
      · simp [hands] at hand
      · obtain ⟨task, found, same⟩ := Option.map_eq_some_iff.1 stands
        simp only [Task.stance, Prod.mk.injEq] at same
        exact ⟨_, Config.step_join_ended found same.2.2.1 same.2.2.2 called.code ended, rfl⟩
    | resumed between before _ _ resumed => exact absurd resumed (dormant _ between before f)
  finishes after concludes _ later bound' :=
    concludes_or_concluded (alone.from after.le) concludes _ later bound'

/-! ## Errors that nobody catches -/

/-- An error that no frame catches is on its way down the chain of a task, or the task has failed with it. -/
inductive Falling (run : Run V C allowed) (t : TaskId) (e : Error V) (n j : Nat) : Prop where
  | concludes {f : FrameId} {below : List FrameId} (concludes : (run.crew j).Concludes t f (.error e))
      (uncaught : ∀ l, j ≤ l → l ≤ n → (run.crew l).state.Uncaught f below)
  | fails {f : FrameId} {below : List FrameId} (fails : (run.crew j).Fails t f e)
      (passes : ∀ l, j ≤ l → l ≤ n → (run.crew l).state.PassesOn f)
      (uncaught : ∀ l, j ≤ l → l ≤ n → (run.crew l).state.Uncaught f below)
  | ended (ended : (run.crew j).state.outcome t = some (.failed ⟨t, e⟩))

theorem Falling.step {run : Run V C allowed} (falling : run.Falling t e n j) (alone : run.LeavesAlone t j n)
    (within : n ≤ run.length) (bound : j < n) : run.Falling t e n (j + 1) := by
  have step := alone j (Nat.le_refl j) bound
  have later {p : Nat → Prop} (all : ∀ l, j ≤ l → l ≤ n → p l) : ∀ l, j + 1 ≤ l → l ≤ n → p l :=
    fun l after => all l (by omega)
  cases falling with
  | @concludes f below concludes uncaught =>
    rcases concludes.step step with ⟨concludes, _⟩ | ⟨concluded, free, left⟩
    · exact .concludes concludes (later uncaught)
    · cases below with
      | nil =>
        have root : (run.crew j).state.caller f = none := uncaught j (Nat.le_refl j) bound.le
        obtain ⟨_, ended⟩ | ⟨g, task, link, _⟩ := concluded
        · exact .ended ended
        · simp [root] at link
      | cons g below =>
        have lower : ∀ l, j + 1 ≤ l → l ≤ n → (run.crew l).state.Uncaught g below :=
          fun l after before => (uncaught l (by omega) before).2.2
        refine .fails (concludes.fails (uncaught j (Nat.le_refl j) bound.le).1 concluded free left) ?_ lower
        exact fun l after before => (uncaught l (by omega) before).2.1
  | fails fails passes uncaught =>
    rcases fails.step (passes j (Nat.le_refl j) bound.le) step with fails | concludes
    · exact .fails fails (later passes) (later uncaught)
    · exact .concludes concludes (later uncaught)
  | ended ended => exact .ended ((run.grows (by omega)).outcome ended)

theorem Falling.fall {run : Run V C allowed} (falling : run.Falling t e n k) (alone : run.LeavesAlone t k n)
    (within : n ≤ run.length) : ∀ j, k ≤ j → j ≤ n → run.Falling t e n j := by
  intro j later
  induction j, later using Nat.le_induction with
  | base => exact fun _ => falling
  | succ j later inductionHypothesis =>
    intro bound
    exact (inductionHypothesis (by omega)).step (alone.from later) within bound

/-- A task that is at rest has failed with the error by then. -/
theorem Falling.outcome {run : Run V C allowed} (falling : run.Falling t e n j)
    (resting : (run.crew j).state.life t ≠ some .running) :
    (run.crew j).state.outcome t = some (.failed ⟨t, e⟩) := by
  cases falling with
  | concludes concludes => exact absurd (life_of_stance concludes.stands) resting
  | fails fails => exact absurd (life_of_stance fails.stands) resting
  | ended ended => exact ended

/-- A task joins another one before step `n`, and would not catch an error of that one. -/
def Follows (run : Run V C allowed) (n : Nat) (t child : TaskId) : Prop :=
  ∃ i f below, i < n ∧ run.JoinsAt i t f child ∧ run.LeavesAlone t i n ∧
    ∀ l, i < l → l ≤ n → (run.crew l).state.Uncaught f below

/-- The task is neither ready nor running. -/
def Rests (run : Run V C allowed) (n : Nat) (t : TaskId) : Prop :=
  (run.crew n).state.life t ≠ some .ready ∧ (run.crew n).state.life t ≠ some .running

instance (run : Run V C allowed) (n : Nat) (t : TaskId) : Decidable (run.Rests n t) :=
  inferInstanceAs (Decidable (_ ∧ _))

/-- A task follows another one in failing with an error. -/
theorem Follows.fails (follows : run.Follows n t child) (within : n ≤ run.length)
    (failed : (run.crew n).state.outcome child = some (.failed ⟨child, e⟩)) (resting : run.Rests n t) :
    (run.crew n).state.outcome t = some (.failed ⟨t, e⟩) := by
  obtain ⟨i, f, below, bound, joins, alone, uncaught⟩ := follows
  have fall {k : Nat} {o' : Outcome V} (after : i < k) (before : k ≤ n)
      (ended : (run.crew n).state.outcome child = some o')
      (concludes : (run.crew k).Concludes t f (resultOf o')) :
      (run.crew n).state.outcome t = some (.failed ⟨t, e⟩) := by
    obtain rfl := Option.some.inj (ended.symm.trans failed)
    have falling : run.Falling t e n k := .concludes concludes fun l later => uncaught l (by omega)
    exact (falling.fall (alone.from after.le) within n before (Nat.le_refl n)).outcome resting.2
  cases before : (run.crew i).state.outcome child with
  | some o' =>
    exact fall (Nat.lt_succ_self i) bound (run.outcome_stays bound.le within before)
      ((joins.step alone within bound).1 o' before)
  | none =>
    cases joins.joining alone within before n bound (Nat.le_refl n) with
    | pending pending => simp [pending.unended] at failed
    | called called =>
      obtain ⟨stands, _⟩ | ⟨stands, _⟩ | ⟨stands, _⟩ := called.stands
      · exact absurd (life_of_stance stands) resting.2
      · exact absurd (life_of_stance stands) resting.1
      · exact absurd (life_of_stance stands) resting.2
    | resumed after before _ ended _ concludes =>
      exact fall (by omega) before (run.outcome_stays before.le within ended) concludes

/-- A task that follows another one does not end before that. -/
theorem Follows.later (follows : run.Follows n t child) (within : n ≤ run.length)
    (ended : (run.crew n).state.outcome t = some o) : (run.crew n).state.outcome child ≠ none := by
  obtain ⟨i, f, below, bound, joins, alone, _⟩ := follows
  intro unended
  obtain ⟨pending, _⟩ := (joins.delivers alone within bound).waits bound (Nat.le_refl n) unended
  obtain ⟨stands, _⟩ | ⟨stands, _⟩ := pending.stands
  · simp [unended_of_stance (run.final n within) stands rfl] at ended
  · simp [unended_of_stance (run.final n within) stands rfl] at ended

section

variable {ts : Nat → TaskId} {failure : Uncaught V} {m : Nat}

end

/-! ## The result -/

end Run

/-! ### A task that fails, and three that join -/

end Crew

end Tasking
