import Tasking.Proofs.Crew

/-! # Runs that nothing interrupts

If the run of a task is one step, up to where the task yields, parks or ends, then a thread goes from one moment
at which it runs no task to the next (`Config.Stride`).  It takes a task up in a stride of its own, so workers that
have taken up their tasks may run them in any order.

`Crew.Strides` is what a crew comes to by such strides, with the tasks in the order of their runs.
-/

namespace Tasking

variable {V C : Type}

namespace Config

/-- A run of a task is in progress on the thread. -/
def Busy (c : Config V C) : Prop := c.agent.runs ≠ []

variable [Inhabited V]

/-- A thread makes so many steps, and whenever one begins this holds. -/
inductive Rolls (during : Config V C → Prop) : Nat → Config V C → Config V C → Prop where
  | refl (c : Config V C) : Rolls during 0 c c
  | step {c c' c'' : Config V C} {n : Nat} (holds : during c) (step : c.step = .ok c') (rest : Rolls during n c' c'') :
      Rolls during (n + 1) c c''

/-- A thread that runs no task makes a step, and one that runs a task goes on until the run is over. -/
inductive Stride (c c' : Config V C) : Prop where
  | step (idle : ¬ c.Busy) (step : c.step = .ok c')
  | run {n : Nat} (rolls : c.Rolls Busy (n + 1) c') (complete : ¬ c'.Busy)

variable {during during' : Config V C → Prop} {c c' c'' : Config V C} {m n : Nat}

namespace Rolls

theorem mono (rolls : c.Rolls during n c') (weaker : ∀ c, during c → during' c) : c.Rolls during' n c' := by
  induction rolls with
  | refl => exact .refl _
  | step holds step _ inductionHypothesis => exact .step (weaker _ holds) step inductionHypothesis

theorem trans (first : c.Rolls during m c') (second : c'.Rolls during n c'') : c.Rolls during (n + m) c'' := by
  induction first with
  | refl => exact second
  | step holds step _ inductionHypothesis => exact .step holds step (inductionHypothesis second)

/-- There is one way only to go on for as long as this holds. -/
theorem unique (rolls : c.Rolls during n c') (complete : ¬ during c') (other : c.Rolls during m c'') (complete' : ¬ during c'') :
    c' = c'' := by
  induction rolls generalizing m with
  | refl =>
    cases other with
    | refl => rfl
    | step holds => exact absurd holds complete
  | step holds step _ inductionHypothesis =>
    cases other with
    | refl => exact absurd holds complete'
    | step _ step' rest =>
      obtain rfl := Except.ok.inj (step.symm.trans step')
      exact inductionHypothesis complete rest

end Rolls

theorem Stride.unique (stride : c.Stride c') (other : c.Stride c'') : c' = c'' := by
  cases stride with
  | step idle step =>
    cases other with
    | step _ step' => exact Except.ok.inj (step.symm.trans step')
    | run rolls => cases rolls with | step busy => exact absurd busy idle
  | run rolls complete =>
    cases other with
    | step idle => cases rolls with | step busy => exact absurd busy idle
    | run rolls' complete' => exact rolls.unique complete rolls' complete'

end Config

namespace Crew

variable [Inhabited V]

/-- One stride of a crew.  The label is the task that is run, if one is.  A worker joins when its scheduler has
something for it to do. -/
inductive Stride : Crew V C → Option TaskId → Crew V C → Prop where
  | act {st : State V C} {before after : List (Agent V C)} {a : Agent V C} {config : Config V C}
      (stride : (a.config st).Stride config) :
      Stride ⟨st, before ++ a :: after⟩ (a.runs.getLast?.map Prod.fst) ⟨config.state, before ++ config.agent :: after⟩
  | join {st : State V C} {agents : List (Agent V C)} {s : SchedulerId} {scheduler : Scheduler} (index : Nat)
      (found : st.schedulers.get? s = some scheduler) (works : scheduler.ready.isEmpty = false) :
      Stride ⟨st, agents⟩ none ⟨st, agents ++ [⟨.work s index, []⟩]⟩
  | switch {st : State V C} {agents : List (Agent V C)} (thread : Thread) :
      Stride ⟨st, agents⟩ none ⟨{ st with running := thread }, agents⟩

/-- A crew comes to another one by strides in which these tasks are run, in this order. -/
inductive Strides (c : Crew V C) : List TaskId → Crew V C → Prop where
  | refl : Strides c [] c
  | next {c' c'' : Crew V C} {order : List TaskId} {label : Option TaskId} (strides : Strides c order c')
      (stride : Stride c' label c'') : Strides c (order ++ label.toList) c''

end Crew

end Tasking
