import Tasking.Proofs.Mail.Acting

/-! # What a task has while a frame of it runs

The value and the error of a task are cleared as its top frame is resumed, and nobody sets them before that frame has
answered (`Crew.Run.cleared`).
-/

namespace Tasking

variable {V C : Type}

open State

theorem Activation.anchored_of_settled {stack : List (Activation V C)} (settled : ∀ x ∈ stack, x.Settled) :
    Activation.Anchored stack := by
  induction stack with
  | nil => trivial
  | cons x stack inductionHypothesis =>
    have rest := inductionHypothesis fun y member => settled y (List.mem_cons_of_mem x member)
    cases x with
    | cancel t doomed target value after =>
      obtain ⟨next, same, _⟩ := settled _ List.mem_cons_self
      exact ⟨.inl ⟨next, same⟩, rest⟩
    | frame | call | opened => exact rest

variable [Inhabited V]

/-- A frame runs that ran before, or that was just resumed as the top of its chain. -/
theorem Config.frame_of_does {c config : Config V C} {t : TaskId} {f : FrameId} {after : Focus V C}
    (does : Does c config) (member : .frame t f after ∈ config.stack) :
    .frame t f after ∈ c.stack ∨ ∃ next, c.focus = .trampoline t next := by
  have resumed {opened : Option ExclusiveId} {x : Activation V C} {rest : List (Activation V C)}
      (inside : .frame t f after ∈ (opened.map .opened).toList ++ x :: rest) :
      .frame t f after = x ∨ .frame t f after ∈ rest := by
    obtain new | old := List.mem_append.1 inside
    · obtain ⟨y, _, same⟩ := Option.map_eq_some_iff.1 (Option.mem_toList.1 new)
      cases same
    · exact List.mem_cons.1 old
  cases does with
  | serves | newFrame | newActor | registers | rests | begins => exact .inl member
  | passes detours idle calls =>
    obtain new | old := List.mem_append.1 member
    · exact (calls _ new).elim
    · exact .inl old
  | hands | closes | suspends | returns | finishes | lands | unwinds => exact .inl (List.mem_cons_of_mem _ member)
  | opens => exact .inl (by simpa using member)
  | resumes =>
    obtain same | old := resumed member
    · cases same
      exact .inr ⟨_, rfl⟩
    · exact .inl old
  | leaps | cancels =>
    obtain same | old := resumed member
    · cases same
    · exact .inl (List.mem_cons_of_mem _ old)

namespace Crew

omit [Inhabited V] in
theorem Guarded.unmoved {c : Crew V C} {agent : Agent V C} (guarded : c.Guarded agent) : c.Unmoved agent := by
  unfold Unmoved
  split
  · next u target next focus => exact guarded.unmoving _ next focus u target rfl
  · trivial

/-- Tasks have neither a value nor an error for their top frames while a frame of them runs. -/
def Cleared (c : Crew V C) : Prop := ∀ agent ∈ c.agents, ∀ {t f after}, .frame t f after ∈ agent.stack →
  ∃ task, c.state.tasks.get? t = some task ∧ task.inputs = (default, none)

namespace Run

variable {run : Run V C Guarded} {k : Nat} {st : State V C} {before behind : List (Agent V C)} {agent : Agent V C}
  {config : Config V C}

/-- No task is in hand twice on a thread. -/
theorem once_in_hand (run : Run V C Guarded) (crew : run.crew k = ⟨st, before ++ agent :: behind⟩)
    (bound : k ≤ run.length) : agent.inHand.Nodup := by
  have once : (run.crew k).inHand.Nodup := ((run.mono fun _ _ => Guarded.unmoved).unshared k bound).once
  rw [crew] at once
  exact (List.nodup_append.1 ((inHand_perm ..).nodup_iff.1 once)).1

theorem Acts.cleared (acts : run.Acts k st before agent behind config)
    (cleared : (⟨st, before ++ agent :: behind⟩ : Crew V C).Cleared) :
    (⟨config.state, before ++ config.agent :: behind⟩ : Crew V C).Cleared := by
  intro other member t f after inside
  have retained (retains : Retains (· = t) st config.state) (was : ∃ task, st.tasks.get? t = some task ∧
      task.inputs = (default, none)) : ∃ task, config.state.tasks.get? t = some task ∧ task.inputs = (default, none) := by
    obtain ⟨task, found, inputs⟩ := was
    obtain ⟨task', found', same⟩ := retains.task found
    exact ⟨task', found', (same rfl).trans inputs⟩
  obtain rfl | old := mem_replace member
  · have mine : t ∈ config.agent.stack.flatMap Activation.inHand := List.mem_flatMap.2 ⟨_, inside, List.mem_cons_self⟩
    have steady := acts.sound.steady agent (by simp)
    have feeds : (agent.config st).Feeds config :=
      Config.feeds_of_does (Activation.anchored_of_settled steady.stack) acts.permitted.unmoving acts.does
    have was (settled : agent.focus.run? = none) : ∃ task, st.tasks.get? t = some task ∧
        task.inputs = (default, none) := by
      obtain before | ⟨next, focus⟩ := Config.frame_of_does acts.does inside
      · exact cleared agent (by simp) before
      · rw [show agent.focus = _ from focus] at settled
        cases settled
    cases feeds with
    | same settled retains => exact retained (retains.mono fun _ _ => trivial) (was settled)
    | @takes u after' focus retains now =>
      by_cases same : t = u
      · subst same
        have run' : (t, .next) ∈ agent.runs := by simp [Agent.runs, show agent.focus = _ from focus, Focus.run?]
        obtain ⟨task, found, _⟩ := Option.map_eq_some_iff.1 (acts.sound.running (mem_runs (by simp) run'))
        obtain ⟨task', found', _⟩ := retains.task found
        exact ⟨task', found', now found'⟩
      · refine retained (retains.mono fun v same' => same' ▸ same) ?_
        obtain before | ⟨next, focus'⟩ := Config.frame_of_does acts.does inside
        · exact cleared agent (by simp) before
        · obtain ⟨rfl, _⟩ : u = t ∧ _ := by simpa using focus.symm.trans focus'
          exact absurd rfl same
    | @turns u after' settled focus retains =>
      refine retained (retains.mono fun v same => ?_) (was settled)
      rintro rfl
      have once := run.once_in_hand acts.next (show k + 1 ≤ run.length from acts.bound)
      rw [Agent.inHand, show config.agent.focus = _ from focus] at once
      exact (List.nodup_cons.1 once).1 (List.mem_append_right _ (same ▸ mine))
    | unwinds settled byHand =>
      obtain ⟨u, target, next, focus⟩ | ⟨x, among, byHand⟩ := byHand
      · exact absurd focus (acts.permitted.tame _ _ _ _)
      · cases x with
        | cancel v doomed target value onwards =>
          obtain ⟨next, same, _⟩ := steady.stack _ among
          obtain ⟨_, next', same'⟩ := byHand
          exact absurd (same.symm.trans same') (by simp)
        | frame | call | opened => exact byHand.elim
    | @ends u settled retains inHand =>
      refine retained (retains.mono fun v same => ?_) (was settled)
      rintro rfl
      have once := run.once_in_hand acts.crew acts.bound.le
      rw [show agent.inHand = _ from inHand] at once
      exact (List.nodup_cons.1 once).1 (List.mem_append_right _ (same ▸ mine))
  · exact retained (acts.aside old (Agent.mem_runs inside)).retains (cleared other (mem_original old) inside)

theorem cleared (run : Run V C Guarded) : ∀ k ≤ run.length, (run.crew k).Cleared := by
  intro k
  induction k with
  | zero =>
    obtain ⟨parallelism, starts⟩ := run.starts
    rw [starts]
    exact fun _ agent member => nomatch member
  | succ k inductionHypothesis =>
    intro bound
    have before := inductionHypothesis (by omega)
    obtain ⟨st, front, agent, behind, config, acts⟩ | ⟨_, waits⟩ := run.acts_or_waits bound
    · rw [acts.crew] at before
      rw [acts.next]
      exact acts.cleared before
    · intro agent member t f after inside
      obtain ⟨agent', member', inside'⟩ := waits.stack member inside
      obtain ⟨thread, state⟩ := waits.state
      rw [state]
      exact before agent' member' inside'

end Run

end Crew

end Tasking
