import Tasking.Proofs.Bystanding
import Tasking.Proofs.Calling

/-! # Joins

A frame that joins a task asks for its outcome.  If there is one, the frame finishes at once as the task
did.  Otherwise the frame suspends, and its task is pending (`Crew.Pending`) until the other task ends,
which calls it (`Crew.Called`): it is woken once, it is resumed once, and then the frame finishes as the
other task did (`Crew.Concludes`).

Nobody may meddle with a task meanwhile: a task that is woken by somebody else is resumed before there is
an outcome.
-/

namespace Tasking

variable {V C : Type}

namespace State

variable {st st' : State V C} {t child : TaskId} {f : FrameId} {task : Task V} {o : Outcome V}

/-- A task was woken: it was parked and is ready, or it was about to park and will not. -/
def Roused (t : TaskId) (st st' : State V C) : Prop :=
  ∃ task, st.tasks.get? t = some task ∧ (task.life = .waiting ∨ task.life = .running ∧ task.notified = false) ∧
    st'.stance t = some task.woken.stance

/-- A task that ends has no joiners left. -/
theorem Grows.unended (grows : Grows st st') (unended : st.outcome child = none)
    (joined : (st'.joiners child).count t = 1) : st'.outcome child = none := by
  cases ended : st'.outcome child with
  | none => rfl
  | some o =>
    obtain ⟨result, _, ends⟩ := grows.arrives unended ended
    rw [ends.joiners, if_pos rfl] at joined
    simp at joined

theorem not_roused_of_same (same : st'.stance t = st.stance t) : ¬ Roused t st st' := by
  rintro ⟨task, found, awake, stands⟩
  rw [same, stance_of_get? found] at stands
  have life : task.life = task.woken.life := congrArg Prod.fst (Option.some.inj stands)
  have notified : task.notified = task.woken.notified := congrArg (fun stance => stance.2.1) (Option.some.inj stands)
  unfold Task.woken at life notified
  rcases awake with parked | ⟨live, unmarked⟩
  · simp [parked, Task.scheduled] at life
  · simp [live, unmarked] at notified

/-- The run of a task ends because its frame suspended. -/
theorem parked_of_park (found : st.tasks.get? t = some task) (done : (st.endRun t).park t = .ok st') :
    st'.stance t = some (if task.notified then .ready else .waiting, false, task.top, task.error) ∧
      (∀ u, st'.joiners u = st.joiners u) ∧ st'.resources = st.resources := by
  have left := becomes_modifyTask found fun task => { task with worker := none }
  have becomes := left.trans (becomes_park left.self done)
  refine ⟨?_, fun u => joiners_of_becomes found becomes ?_, (Stops.park done).1.resources⟩
  · rw [stance_of_get? becomes.self]
    unfold Task.parked
    by_cases notified : task.notified = true
    · simp [notified, Task.scheduled, Task.stance]
    · simp [notified, Task.stance]
  · unfold Task.parked
    split <;> rfl

/-- Who waits for whom after a task joined another one. -/
theorem joiners_joined (found : st.tasks.get? t = some task) (known : (st.tasks.get? child).isSome = true)
    (u : TaskId) : (st.joined t child).joiners u =
      if u = child then st.joiners child ++ [t] else st.joiners u := by
  rw [State.joiners, get?_joined found]
  split
  · next here =>
    subst here
    split
    · next same => simp [same, State.joiners, found]
    · obtain ⟨awaited, found'⟩ := Option.isSome_iff_exists.1 known
      simp [State.joiners, found']
  · split
    · next same => simp [same, State.joiners, found]
    · simp [State.joiners]

theorem stance_joined (found : st.tasks.get? t = some task) :
    (st.joined t child).stance t = some task.stance := by
  rw [State.stance, get?_joined found, if_pos rfl, Option.map_some, Option.map_some]
  split <;> rfl

theorem outcome_joined (found : st.tasks.get? t = some task) (u : TaskId) :
    (st.joined t child).outcome u = st.outcome u := by
  rw [State.outcome, get?_joined found]
  by_cases same : u = t
  · rw [if_pos same, same, outcome_of_get? found, Option.map_some, Option.bind_some]
    split <;> rfl
  · rw [if_neg same, State.outcome]
    cases st.tasks.get? u with
    | none => rfl
    | some other =>
      rw [Option.map_some, Option.bind_some]
      split <;> rfl

/-- How a frame finishes that answers as a task ended. -/
def resultOf : Outcome V → Except (Error V) V
  | .done value => .ok value
  | .failed failure => .error failure.error

theorem ofResult_resultOf (o : Outcome V) : Answer.ofResult (resultOf o) = answerOf o := by
  cases o <;> rfl

end State

namespace Config

open State

variable [Inhabited V] {st st' : State V C} {t child : TaskId} {f : FrameId} {task : Task V} {o : Outcome V}
  {after : Focus V C} {rest : List (Activation V C)} {config : Config V C}

omit [Inhabited V] in
theorem waitFor_ended (known : (st.tasks.get? t).isSome = true) (ended : st.outcome child = some o) :
    st.waitFor t child = .ok (.ok (some o), st) := by
  obtain ⟨task, found⟩ := Option.isSome_iff_exists.1 known
  obtain ⟨awaited, found', outcome⟩ := Option.bind_eq_some_iff.1 ended
  refine bind_ok.2 ⟨awaited, task_ok.2 found', bind_ok.2 ⟨task, task_ok.2 found, ?_⟩⟩
  rw [outcome]
  rfl

theorem stance_unloaded {life : Life} {notified : Bool} {top : Option FrameId} {error : Option (Error V)}
    (stands : st.stance t = some (life, notified, top, error)) :
    (st.unloaded t).stance t = some (life, notified, top, none) := by
  obtain ⟨task, found, same⟩ := Option.map_eq_some_iff.1 stands
  simp only [Task.stance, Prod.mk.injEq] at same
  rw [State.stance, unloaded, get?_modifyTask, if_pos rfl, found]
  simp [Task.stance, same]

theorem bearing_unloaded (st : State V C) (t u : TaskId) :
    (st.unloaded t).outcome u = st.outcome u ∧ (st.unloaded t).joiners u = st.joiners u := by
  rw [State.outcome, State.joiners, unloaded, get?_modifyTask]
  split
  · next here =>
    rw [here]
    cases found : st.tasks.get? t <;> simp [State.outcome, State.joiners, found]
  · exact ⟨rfl, rfl⟩

/-- The code of a frame that the host wrote is run. -/
theorem step_host {body : Body V C} (found : st.tasks.get? t = some task) (top : task.top = some f)
    (code : st.code? f = some (.host body)) : (⟨st, .trampoline t after, rest⟩ : Config V C).step =
      .ok ⟨st.unloaded t, .code (body ⟨t, f⟩ task.value task.error), .frame t f after :: rest⟩ := by
  obtain ⟨frame, known, same⟩ := Option.map_eq_some_iff.1 code
  refine bind_ok.2 ⟨task, task_ok.2 found, ?_⟩
  rw [top]
  refine bind_ok.2 ⟨(⟨body ⟨t, f⟩ task.value task.error, none⟩, st.unloaded t), ?_, rfl⟩
  refine bind_ok.2 ⟨frame, frame_ok.2 known, ?_⟩
  rw [same]
  rfl

/-- A join is resumed after the other task has ended. -/
theorem step_join_ended {parked : Bool} (found : st.tasks.get? t = some task) (top : task.top = some f)
    (well : task.error = none) (code : st.code? f = some (.join child parked))
    (ended : st.outcome child = some o) : (⟨st, .trampoline t after, rest⟩ : Config V C).step =
      .ok ⟨st.unloaded t, .code (.answer (answerOf o)), .frame t f after :: rest⟩ := by
  obtain ⟨frame, known, same⟩ := Option.map_eq_some_iff.1 code
  have ended' : (st.unloaded t).outcome child = some o := (bearing_unloaded st t child).1.trans ended
  have resumed : (st.unloaded t).resumeJoin t f child parked none = .ok (answerOf o, st.unloaded t) := by
    cases parked with
    | true =>
      obtain ⟨awaited, found', outcome⟩ := Option.bind_eq_some_iff.1 ended'
      refine bind_ok.2 ⟨awaited, task_ok.2 found', ?_⟩
      rw [outcome]
      rfl
    | false =>
      refine bind_ok.2 ⟨_, waitFor_ended ?_ ended', rfl⟩
      rw [unloaded, get?_modifyTask, if_pos rfl, found]
      rfl
  refine bind_ok.2 ⟨task, task_ok.2 found, ?_⟩
  rw [top, well]
  refine bind_ok.2 ⟨(⟨.answer (answerOf o), none⟩, st.unloaded t), ?_, rfl⟩
  refine bind_ok.2 ⟨frame, frame_ok.2 known, ?_⟩
  rw [same]
  exact bind_ok.2 ⟨_, resumed, rfl⟩

/-- A join is resumed for the first time, before the other task has ended. -/
theorem step_join_open (found : st.tasks.get? t = some task) (top : task.top = some f)
    (well : task.error = none) (code : st.code? f = some (.join child false))
    (unended : st.outcome child = none) (allowed : st.refusal? t (.task child) = none)
    (step : (⟨st, .trampoline t after, rest⟩ : Config V C).step = .ok config) :
    config = ⟨((st.unloaded t).joined t child).setCode f (.join child true), .code (.answer .suspended),
      .frame t f after :: rest⟩ ∧ (st.tasks.get? child).isSome = true := by
  obtain ⟨frame, known, same⟩ := Option.map_eq_some_iff.1 code
  simp only [Config.step, resumeTop, bind_ok, task_ok] at step
  obtain ⟨task', found', step⟩ := step
  obtain rfl := Option.some.inj (found.symm.trans found')
  simp only [top, well] at step
  obtain ⟨resumption, st', resumed, rfl⟩ := Crew.Sound.resumeFrame_ok
    (show (⟨st.unloaded t, .trampoline t after, rest⟩ : Config V C).resumeFrame t f task.value none
      (.frame t f after) = .ok config from step)
  simp only [State.resume, bind_ok, frame_ok] at resumed
  obtain ⟨frame', known', resumed⟩ := resumed
  obtain rfl := Option.some.inj (known.symm.trans known')
  simp only [same, resumeJoin, Bool.false_eq_true, ↓reduceIte, bind_ok, pure_ok, Prod.mk.injEq] at resumed
  obtain ⟨⟨answer, st₁⟩, ⟨⟨reply, st₂⟩, waited, replied⟩, rfl, rfl⟩ := resumed
  have aside : Aside st (st.unloaded t) := .modifyTask st t fun _ => rfl
  obtain ⟨awaited, found₁, ⟨_, finished, _⟩ | ⟨_, ⟨refusal, _, refused, _⟩ | ⟨rfl, _, rfl⟩⟩⟩ := waitFor_ok waited
  · have unended' := (bearing_unloaded st t child).1.trans unended
    rw [outcome_of_get? found₁] at unended'
    exact absurd unended' finished
  · rw [aside.refusal?, allowed] at refused
    simp at refused
  · obtain ⟨rfl, rfl⟩ := Prod.mk.inj (pure_ok.1 replied)
    refine ⟨rfl, ?_⟩
    rcases aside.rel child with ⟨_, absent⟩ | ⟨other, _, present, _⟩
    · simp [absent] at found₁
    · simp [present]

/-- The answer of a frame that suspends is dealt with: its task is parked, unless it was woken before. -/
theorem step_suspends {notified : Bool} {top : Option FrameId} {error : Option (Error V)}
    (stands : st.stance t = some (.running, notified, top, error))
    (step : (⟨st, .code (.answer .suspended), .frame t f after :: rest⟩ : Config V C).step = .ok config) :
    config.state.stance t = some (if notified then .ready else .waiting, false, top, error) ∧
      (∀ u, config.state.joiners u = st.joiners u) ∧ config.state.resources = st.resources ∧
      config.agent = ⟨after, rest⟩ := by
  simp only [Config.step, stepCode, deliver, takeAnswer, suspendRun, tryState, bind_ok, pure_ok] at step
  obtain ⟨_, ⟨st', parked, rfl⟩, rfl⟩ := step
  obtain ⟨task, found, same⟩ := Option.map_eq_some_iff.1 stands
  simp only [Task.stance, Prod.mk.injEq] at same
  obtain ⟨stands', joiners, resources⟩ := parked_of_park found parked
  rw [same.2.1, same.2.2.1, same.2.2.2] at stands'
  exact ⟨stands', joiners, resources, rfl⟩

/-- The answer of a frame that finishes is dealt with. -/
theorem step_finishes {result : Except (Error V) V}
    (step : (⟨st, .code (.answer (.ofResult result)), .frame t f after :: rest⟩ : Config V C).step = .ok config) :
    (st.caller f = none ∧ ∃ st', Ends st t result st' ∧ config = ⟨st', after, rest⟩) ∨
      ∃ g, st.caller f = some g ∧
        config = ⟨st.modifyTask t fun task => returnTo task g result, .trampoline t after, rest⟩ := by
  have finishes : (⟨st, .code (.answer (.ofResult result)), rest⟩ : Config V C).finishFrame t f result after =
      .ok config := by
    cases result <;> exact step
  simp only [finishFrame, bind_ok, task_ok, check_ok, frame_ok] at finishes
  obtain ⟨task, found, _, frame, known, finishes⟩ := finishes
  have link : st.caller f = frame.caller := by simp [State.caller, known]
  cases above : frame.caller with
  | none =>
    simp only [above, finishRun, tryState, mapState, bind_ok, pure_ok] at finishes
    obtain ⟨_, ⟨st', finished, rfl⟩, rfl⟩ := finishes
    have left := becomes_modifyTask found fun task => { task with top := none }
    exact .inl ⟨link.trans above, st', ends_of_finish found (left.trans (becomes_modifyTask left.self _)) rfl rfl
      rfl rfl finished, rfl⟩
  | some g =>
    simp only [above] at finishes
    obtain rfl := pure_ok.1 finishes
    exact .inr ⟨g, link.trans above, rfl⟩

end Config

/-! ## The course of a join -/

namespace Crew

open State

variable {c c' : Crew V C} {t child : TaskId} {f : FrameId} {o : Outcome V} {label : Option (TaskId × FrameId)}
  {result : Except (Error V) V} {answer : Answer V}

/-- One thread alone has the task in hand, and its frame has just answered. -/
def Answers (c : Crew V C) (t : TaskId) (f : FrameId) (answer : Answer V) : Prop :=
  ∃ after rest, c.hands t = [⟨.code (.answer answer), .frame t f after :: rest⟩] ∧
    t ∉ after.inHand ∧ t ∉ rest.flatMap Activation.inHand

/-- One thread alone has the task in hand, and is about to resume its top frame. -/
def TakenUp (c : Crew V C) (t : TaskId) : Prop :=
  ∃ after rest, c.hands t = [⟨.trampoline t after, rest⟩] ∧
    t ∉ after.inHand ∧ t ∉ rest.flatMap Activation.inHand

/-- The task joined another one and suspends, or is parked, until that ends. -/
structure Pending (c : Crew V C) (t : TaskId) (f : FrameId) (child : TaskId) : Prop where
  code : c.state.code? f = some (.join child true)
  free : ∀ r, t ∉ c.state.waiters r
  unended : c.state.outcome child = none
  joined : (c.state.joiners child).count t = 1
  only : ∀ u, u ≠ child → t ∉ c.state.joiners u
  stands : c.state.stance t = some (.running, false, some f, none) ∧ c.Answers t f .suspended ∨
    c.state.stance t = some (.waiting, false, some f, none) ∧ c.hands t = []

/-- The task was woken because the task ended that it joined, and was not resumed yet. -/
structure Called (c : Crew V C) (t : TaskId) (f : FrameId) (child : TaskId) (o : Outcome V) : Prop where
  code : c.state.code? f = some (.join child true)
  free : ∀ r, t ∉ c.state.waiters r
  ended : c.state.outcome child = some o
  left : ∀ u, t ∉ c.state.joiners u
  stands : c.state.stance t = some (.running, true, some f, none) ∧ c.Answers t f .suspended ∨
    c.state.stance t = some (.ready, false, some f, none) ∧ c.hands t = [] ∨
    c.state.stance t = some (.running, false, some f, none) ∧ c.TakenUp t

/-- The top frame of the task is at its end, and has answered with its result. -/
structure Concludes (c : Crew V C) (t : TaskId) (f : FrameId) (result : Except (Error V) V) : Prop where
  free : ∀ r, t ∉ c.state.waiters r
  left : ∀ u, t ∉ c.state.joiners u
  stands : c.state.stance t = some (.running, false, some f, none)
  answers : c.Answers t f (.ofResult result)

/-- The task is about to resume a fresh join without an error, has arranged no other wait, and may wait for
the other task. -/
structure Joins (c : Crew V C) (t : TaskId) (f : FrameId) (child : TaskId) : Prop where
  code : c.state.code? f = some (.join child false)
  free : ∀ r, t ∉ c.state.waiters r
  left : ∀ u, t ∉ c.state.joiners u
  stands : c.state.stance t = some (.running, false, some f, none)
  taken : c.TakenUp t
  allowed : c.state.outcome child = none → c.state.refusal? t (.task child) = none

theorem known_of_stance {st : State V C} {stance : Life × Bool × Option FrameId × Option (Error V)}
    (stands : st.stance t = some stance) : (st.tasks.get? t).isSome = true := by
  obtain ⟨task, found, _⟩ := Option.map_eq_some_iff.1 stands
  exact Option.isSome_of_eq_some found

theorem Answers.runs (answers : c.Answers t f answer) : ∀ a ∈ c.hands t, a.Runs t := by
  obtain ⟨after, rest, hands, _⟩ := answers
  rw [hands]
  rintro a member
  obtain rfl := List.mem_singleton.1 member
  rfl

theorem TakenUp.runs (taken : c.TakenUp t) : ∀ a ∈ c.hands t, a.Runs t := by
  obtain ⟨after, rest, hands, _⟩ := taken
  rw [hands]
  rintro a member
  obtain rfl := List.mem_singleton.1 member
  rfl

theorem Answers.congr (answers : c.Answers t f answer) (hands : c'.hands t = c.hands t) :
    c'.Answers t f answer := by
  unfold Answers
  rw [hands]
  exact answers

theorem TakenUp.congr (taken : c.TakenUp t) (hands : c'.hands t = c.hands t) : c'.TakenUp t := by
  unfold TakenUp
  rw [hands]
  exact taken

theorem Pending.runs (pending : c.Pending t f child) : ∀ a ∈ c.hands t, a.Runs t := by
  obtain ⟨_, answers⟩ | ⟨_, hands⟩ := pending.stands
  · exact answers.runs
  · simp [hands]

theorem Pending.known (pending : c.Pending t f child) : (c.state.tasks.get? t).isSome = true := by
  obtain ⟨stands, _⟩ | ⟨stands, _⟩ := pending.stands
  · exact known_of_stance stands
  · exact known_of_stance stands

theorem Called.runs (called : c.Called t f child o) : ∀ a ∈ c.hands t, a.Runs t := by
  obtain ⟨_, answers⟩ | ⟨_, hands⟩ | ⟨_, taken⟩ := called.stands
  · exact answers.runs
  · simp [hands]
  · exact taken.runs

theorem Called.known (called : c.Called t f child o) : (c.state.tasks.get? t).isSome = true := by
  obtain ⟨stands, _⟩ | ⟨stands, _⟩ | ⟨stands, _⟩ := called.stands
  · exact known_of_stance stands
  · exact known_of_stance stands
  · exact known_of_stance stands

theorem not_ready_of_stance {st : State V C} {life : Life} {notified : Bool} {top : Option FrameId}
    {error : Option (Error V)} (stands : st.stance t = some (life, notified, top, error)) (other : life ≠ .ready) :
    st.life t ≠ some .ready := by
  rw [life_of_stance stands]
  exact fun same => other (Option.some.inj same)

/-- Nobody is woken by the step of a thread that parks a task, takes it up or resumes it. -/
theorem not_roused_of_stance {st st' : State V C} {life life' : Life} {notified : Bool} {top top' : Option FrameId}
    {error error' : Option (Error V)} (stands : st.stance t = some (life, notified, top, error))
    (stands' : st'.stance t = some (life', false, top', error')) (awake : life ≠ .waiting) :
    ¬ Roused t st st' := by
  rintro ⟨task, found, eligible, woken⟩
  rw [stance_of_get? found] at stands
  obtain ⟨rfl, _⟩ := Prod.mk.inj (Option.some.inj stands)
  have live := (eligible.resolve_left awake).1
  have unmarked : false = task.woken.notified :=
    congrArg (fun stance => stance.2.1) (Option.some.inj (stands'.symm.trans woken))
  simp [Task.woken, live] at unmarked

theorem stance_woken_of_running {task : Task V} {notified : Bool} {top : Option FrameId}
    {error : Option (Error V)} (stands : task.stance = (.running, notified, top, error)) :
    task.woken.stance = (.running, true, top, error) := by
  simp only [Task.stance, Prod.mk.injEq] at stands
  simp [Task.woken, Task.stance, stands]

theorem stance_woken_of_waiting {task : Task V} {notified : Bool} {top : Option FrameId}
    {error : Option (Error V)} (stands : task.stance = (.waiting, notified, top, error)) :
    task.woken.stance = (.ready, false, top, error) := by
  simp only [Task.stance, Prod.mk.injEq] at stands
  simp [Task.woken, Task.scheduled, Task.stance, stands]

variable [Inhabited V]

/-- While the other task has not ended, the join is pending; as it ends, the task is woken. -/
theorem Pending.step (pending : c.Pending t f child) (final : c.state.Final)
    (step : Step (fun _ a => ¬ a.Meddles t) c label c') : (∀ g, label ≠ some (t, g)) ∧
      (c'.Pending t f child ∧ ¬ Roused t c.state c'.state ∨
        ∃ o, c'.Called t f child o ∧ Roused t c.state c'.state) := by
  have grows := step.grows final
  cases step.regards pending.known pending.free pending.runs with
  | skips skips hands label =>
    have entered := (skips.joins child).trans pending.joined
    refine ⟨label, .inl ⟨⟨grows.joined pending.code, fun r => skips.waits r (pending.free r),
      grows.unended pending.unended entered, entered, fun u other => ?_, ?_⟩, not_roused_of_same skips.stance⟩⟩
    · rw [← List.count_eq_zero, skips.joins, List.count_eq_zero]
      exact pending.only u other
    · rw [skips.stance, hands]
      exact pending.stands.imp_left fun ⟨stands, answers⟩ => ⟨stands, answers.congr hands⟩
  | begins ready =>
    obtain ⟨stands, _⟩ | ⟨stands, _⟩ := pending.stands
    · exact absurd ready (not_ready_of_stance stands (by simp))
    · exact absurd ready (not_ready_of_stance stands (by simp))
  | @wakes u result ends joins hands label =>
    obtain rfl : u = child := by
      by_contra other
      exact pending.only u other joins
    obtain ⟨task, found⟩ := Option.isSome_iff_exists.1 pending.known
    have woken : c'.state.tasks.get? t = some task.woken := by
      rw [ends.others (ends.awake joins).1, pending.joined, found]
      rfl
    refine ⟨label, .inr ⟨outcomeOf u result, ⟨grows.joined pending.code, fun r => ?_, ?_, fun v => ?_, ?_⟩, ?_⟩⟩
    · rw [waiters_of_resources ends.resources]
      exact pending.free r
    · rw [ends.outcome, if_pos rfl]
    · rw [ends.joiners]
      split
      · simp
      · next other => exact pending.only v other
    · rw [stance_of_get? woken, hands]
      obtain ⟨stands, answers⟩ | ⟨stands, nobody⟩ := pending.stands
      · rw [stance_of_get? found, Option.some.injEq] at stands
        exact .inl ⟨congrArg some (stance_woken_of_running stands), answers.congr hands⟩
      · rw [stance_of_get? found, Option.some.injEq] at stands
        exact .inr (.inl ⟨congrArg some (stance_woken_of_waiting stands), nobody⟩)
    · refine ⟨task, found, ?_, stance_of_get? woken⟩
      obtain ⟨stands, _⟩ | ⟨stands, _⟩ := pending.stands
      · rw [stance_of_get? found] at stands
        simp only [Task.stance, Option.some.injEq, Prod.mk.injEq] at stands
        exact .inr ⟨stands.1, stands.2.1⟩
      · rw [stance_of_get? found] at stands
        simp only [Task.stance, Option.some.injEq, Prod.mk.injEq] at stands
        exact .inl stands.1
  | @acts a config member runs step state hands label =>
    obtain ⟨stands, after, rest, sole, out, out'⟩ | ⟨_, nobody⟩ := pending.stands
    · rw [sole] at member
      obtain rfl := List.mem_singleton.1 member
      obtain ⟨parked, joiners, resources, gone⟩ := Config.step_suspends stands step
      rw [← state] at parked joiners resources
      have nobody : c'.hands t = [] := by
        rw [hands sole, gone, if_neg]
        exact fun inside => (List.mem_append.1 inside).elim out out'
      have entered : (c'.state.joiners child).count t = 1 := by rw [joiners, pending.joined]
      refine ⟨?_, .inl ⟨⟨grows.joined pending.code, fun r => ?_, grows.unended pending.unended entered, entered,
        fun u other => ?_, .inr ⟨parked, nobody⟩⟩, not_roused_of_stance stands parked (by simp)⟩⟩
      · rw [label]
        simp [Agent.resumed?]
      · rw [waiters_of_resources resources]
        exact pending.free r
      · rw [joiners]
        exact pending.only u other
    · simp [nobody] at member

/-- A join that is resumed after the other task has ended answers as that ended. -/
theorem concludes_of_resume {after : Focus V C} {rest : List (Activation V C)} {parked : Bool}
    {config : Config V C} (stands : c.state.stance t = some (.running, false, some f, none))
    (code : c.state.code? f = some (.join child parked)) (ended : c.state.outcome child = some o)
    (free : ∀ r, t ∉ c.state.waiters r) (left : ∀ u, t ∉ c.state.joiners u) (out : t ∉ after.inHand)
    (out' : t ∉ rest.flatMap Activation.inHand)
    (step : ((⟨.trampoline t after, rest⟩ : Agent V C).config c.state).step = .ok config)
    (state : c'.state = config.state)
    (hands : c'.hands t = if t ∈ config.agent.inHand then [config.agent] else []) :
    ¬ Roused t c.state c'.state ∧ c'.Concludes t f (resultOf o) := by
  obtain ⟨task, found, same⟩ := Option.map_eq_some_iff.1 stands
  simp only [Task.stance, Prod.mk.injEq] at same
  obtain rfl := Except.ok.inj ((Config.step_join_ended found same.2.2.1 same.2.2.2 code ended).symm.trans step)
  have stands' : c'.state.stance t = some (.running, false, some f, none) :=
    state ▸ Config.stance_unloaded stands
  refine ⟨not_roused_of_stance stands stands' (by simp), fun r => ?_, fun u => ?_, stands', after, rest, ?_, out, out'⟩
  · rw [state]
    exact free r
  · rw [state, (Config.bearing_unloaded c.state t u).2]
    exact left u
  · rw [ofResult_resultOf]
    exact hands.trans (if_pos (show t ∈ Agent.inHand ⟨_, .frame t f after :: rest⟩ from List.mem_cons_self))

/-- After the other task has ended, the next resume of the task is that of the join, which answers as the
other task ended. -/
theorem Called.step (called : c.Called t f child o) (final : c.state.Final)
    (step : Step (fun _ a => ¬ a.Meddles t) c label c') : ¬ Roused t c.state c'.state ∧
      (c'.Called t f child o ∧ (∀ g, label ≠ some (t, g)) ∨
        label = some (t, f) ∧ c'.Concludes t f (resultOf o)) := by
  have grows := step.grows final
  cases step.regards called.known called.free called.runs with
  | skips skips hands label =>
    refine ⟨not_roused_of_same skips.stance, .inl ⟨⟨grows.joined called.code, fun r => skips.waits r (called.free r),
      grows.outcome called.ended, fun u => ?_, ?_⟩, label⟩⟩
    · rw [← List.count_eq_zero, skips.joins, List.count_eq_zero]
      exact called.left u
    · rw [skips.stance, hands]
      exact called.stands.imp (fun ⟨stands, answers⟩ => ⟨stands, answers.congr hands⟩)
        (.imp_right fun ⟨stands, taken⟩ => ⟨stands, taken.congr hands⟩)
  | @begins after rest ready begun joiners resources hands idle label =>
    obtain ⟨stands, _⟩ | ⟨stands, nobody⟩ | ⟨stands, _⟩ := called.stands
    · exact absurd ready (not_ready_of_stance stands (by simp))
    · obtain ⟨task, found, same⟩ := Option.map_eq_some_iff.1 stands
      simp only [Task.stance, Prod.mk.injEq] at same
      have stands' := begun found
      rw [same.2.2.1, same.2.2.2] at stands'
      obtain ⟨taken, out⟩ := hands nobody
      refine ⟨not_roused_of_stance stands stands' (by simp), .inl ⟨⟨grows.joined called.code, fun r => ?_,
        grows.outcome called.ended, fun u => ?_, .inr (.inr ⟨stands', after, rest, taken, ?_, out⟩)⟩, label⟩⟩
      · rw [waiters_of_resources resources]
        exact called.free r
      · rw [joiners]
        exact called.left u
      · simp [idle]
    · exact absurd ready (not_ready_of_stance stands (by simp))
  | wakes ends joins => exact absurd joins (called.left _)
  | @acts a config member runs step state hands label =>
    obtain ⟨stands, after, rest, sole, out, out'⟩ | ⟨_, nobody⟩ | ⟨stands, after, rest, sole, out, out'⟩ :=
      called.stands
    · rw [sole] at member
      obtain rfl := List.mem_singleton.1 member
      obtain ⟨parked, joiners, resources, gone⟩ := Config.step_suspends stands step
      rw [← state] at parked joiners resources
      have nobody : c'.hands t = [] := by
        rw [hands sole, gone, if_neg]
        exact fun inside => (List.mem_append.1 inside).elim out out'
      refine ⟨not_roused_of_stance stands parked (by simp), .inl ⟨⟨grows.joined called.code, fun r => ?_,
        grows.outcome called.ended, fun u => ?_, .inr (.inl ⟨parked, nobody⟩)⟩, ?_⟩⟩
      · rw [waiters_of_resources resources]
        exact called.free r
      · rw [joiners]
        exact called.left u
      · rw [label]
        simp [Agent.resumed?]
    · simp [nobody] at member
    · rw [sole] at member
      obtain rfl := List.mem_singleton.1 member
      obtain ⟨calm, concludes⟩ := concludes_of_resume stands called.code called.ended called.free called.left out
        out' step state (hands sole)
      refine ⟨calm, .inr ⟨?_, concludes⟩⟩
      rw [label]
      obtain ⟨task, found, same⟩ := Option.map_eq_some_iff.1 stands
      simp only [Task.stance, Prod.mk.injEq] at same
      simp [Agent.resumed?, top_of_get? found, same]

/-- A task that runs is in no line once it is resumed, and the step that resumes it is one of its own
thread. -/
theorem Joins.step (joins : c.Joins t f child) (step : Step (fun _ a => ¬ a.Meddles t) c (some (t, f)) c') :
    (∀ o, c.state.outcome child = some o → c'.Concludes t f (resultOf o)) ∧
      (c.state.outcome child = none → c'.Pending t f child ∧
        c'.state.joiners child = c.state.joiners child ++ [t]) := by
  cases step.regards (known_of_stance joins.stands) joins.free joins.taken.runs with
  | skips skips hands label => exact absurd rfl (label f)
  | begins ready => exact absurd ready (not_ready_of_stance joins.stands (by simp))
  | wakes ends joined => exact absurd joined (joins.left _)
  | @acts a config member runs step state hands label =>
    obtain ⟨after, rest, sole, out, out'⟩ := joins.taken
    rw [sole] at member
    obtain rfl := List.mem_singleton.1 member
    refine ⟨fun o ended => (concludes_of_resume joins.stands joins.code ended joins.free joins.left out out' step
      state (hands sole)).2, fun unended => ?_⟩
    obtain ⟨task, found, same⟩ := Option.map_eq_some_iff.1 joins.stands
    simp only [Task.stance, Prod.mk.injEq] at same
    obtain ⟨rfl, known⟩ := Config.step_join_open found same.2.2.1 same.2.2.2 joins.code unended
      (joins.allowed unended) step
    have found' : (c.state.unloaded t).tasks.get? t = some { task with value := default, error := none } := by
      rw [unloaded, get?_modifyTask, if_pos rfl, found]
      rfl
    have known' : ((c.state.unloaded t).tasks.get? child).isSome = true := by
      rw [unloaded, get?_modifyTask]
      split
      · simp [found]
      · exact known
    have line : ∀ u, c'.state.joiners u =
        if u = child then c.state.joiners child ++ [t] else c.state.joiners u := by
      intro u
      rw [state]
      refine (joiners_joined found' known' u).trans ?_
      rw [(Config.bearing_unloaded c.state t child).2, (Config.bearing_unloaded c.state t u).2]
    obtain ⟨frame, present, _⟩ := Option.map_eq_some_iff.1 joins.code
    have stands' : c'.state.stance t = some (.running, false, some f, none) := by
      rw [state]
      refine (stance_joined found').trans ?_
      simp [Task.stance, same]
    refine ⟨⟨?_, fun r => ?_, ?_, ?_, fun u other => ?_, .inl ⟨stands', after, rest, ?_, out, out'⟩⟩, ?_⟩
    · rw [state]
      exact code?_setCode (Option.isSome_of_eq_some present) _
    · rw [state]
      exact joins.free r
    · rw [state]
      exact (outcome_joined found' child).trans ((Config.bearing_unloaded c.state t child).1.trans unended)
    · rw [line, if_pos rfl, List.count_append, List.count_eq_zero_of_not_mem (joins.left child)]
      simp
    · rw [line, if_neg other]
      exact joins.left u
    · exact (hands sole).trans (if_pos (show t ∈ Agent.inHand ⟨_, .frame t f after :: rest⟩ from List.mem_cons_self))
    · rw [line, if_pos rfl]

/-- The top frame of the task, which answered, has finished: the task is at its end, or the frame that it
returns to is about to be resumed with the result. -/
def Concluded (c c' : Crew V C) (t : TaskId) (f : FrameId) (result : Except (Error V) V) : Prop :=
  c.state.caller f = none ∧ c'.state.outcome t = some (outcomeOf t result) ∨
    ∃ g task, c.state.caller f = some g ∧ c.state.tasks.get? t = some task ∧
      c'.state.tasks.get? t = some (Config.returnTo task g result) ∧ c'.TakenUp t

theorem Concludes.step (concludes : c.Concludes t f result)
    (step : Step (fun _ a => ¬ a.Meddles t) c label c') :
    c'.Concludes t f result ∧ (∀ g, label ≠ some (t, g)) ∨ Concluded c c' t f result ∧
      (∀ r, t ∉ c'.state.waiters r) ∧ ∀ u, t ∉ c'.state.joiners u := by
  cases step.regards (known_of_stance concludes.stands) concludes.free concludes.answers.runs with
  | skips skips hands label =>
    refine .inl ⟨⟨fun r => skips.waits r (concludes.free r), fun u => ?_, skips.stance.trans concludes.stands,
      concludes.answers.congr hands⟩, label⟩
    rw [← List.count_eq_zero, skips.joins, List.count_eq_zero]
    exact concludes.left u
  | begins ready => exact absurd ready (not_ready_of_stance concludes.stands (by simp))
  | wakes ends joins => exact absurd joins (concludes.left _)
  | @acts a config member runs step state hands label =>
    obtain ⟨after, rest, sole, out, out'⟩ := concludes.answers
    rw [sole] at member
    obtain rfl := List.mem_singleton.1 member
    refine .inr ?_
    obtain ⟨root, st', ends, rfl⟩ | ⟨g, link, rfl⟩ := Config.step_finishes step
    · replace ends : Ends c.state t result c'.state := state ▸ ends
      refine ⟨.inl ⟨root, ?_⟩, fun r => ?_, fun u => ?_⟩
      · rw [ends.outcome, if_pos rfl]
      · rw [waiters_of_resources ends.resources]
        exact concludes.free r
      · rw [ends.joiners]
        split
        · simp
        · exact concludes.left u
    · obtain ⟨task, found, _⟩ := Option.map_eq_some_iff.1 concludes.stands
      have becomes : Becomes c.state t (Config.returnTo task g result) c'.state :=
        state ▸ becomes_modifyTask found _
      refine ⟨.inr ⟨g, task, link, found, becomes.self, after, rest, ?_, out, out'⟩, fun r => ?_, fun u => ?_⟩
      · exact (hands sole).trans (if_pos (show t ∈ Agent.inHand ⟨.trampoline t after, rest⟩ from List.mem_cons_self))
      · rw [state]
        exact concludes.free r
      · rw [joiners_of_becomes found becomes]
        · exact concludes.left u
        · cases result <;> rfl

end Crew

end Tasking
