import Tasking.Proofs.Touching

/-! # What a step of a crew means to one task

While nobody meddles with a task (`Agent.Meddles`), a step of a crew passes it by, or takes it up if it
is ready, or wakes it because a task ended that it joined, or is a step of its own run
(`Crew.Step.regards`).

Whatever the code, outcomes stay, and whoever joins a task is entered behind those who joined before
(`Crew.Step.grows`).
-/

namespace Tasking

variable {V C : Type}

namespace State

variable {st st' st'' : State V C} {touched : TaskId → Prop} {t u : TaskId} {task task' : Task V}

/-- Tasks with an outcome have ended. -/
def Final (st : State V C) : Prop :=
  ∀ u, st.outcome u ≠ none → ∃ life, st.life u = some life ∧ life.isTerminal = true

/-- Outcomes stay, joins that wait go on waiting, and joiners get in line behind each other. -/
structure Grows (st st' : State V C) : Prop where
  final : st'.Final
  outcome : ∀ {u o}, st.outcome u = some o → st'.outcome u = some o
  arrives : ∀ {u o}, st.outcome u = none → st'.outcome u = some o →
    ∃ result, o = outcomeOf u result ∧ Ends st u result st'
  joiners : ∀ {u}, st'.outcome u = none → st.joiners u <+: st'.joiners u
  joined : ∀ {f child}, st.code? f = some (.join child true) → st'.code? f = some (.join child true)

/-- A task was passed by: it stands where it stood, and got in no line. -/
structure Skips (t : TaskId) (st st' : State V C) : Prop where
  stance : st'.stance t = st.stance t
  joins : ∀ u, (st'.joiners u).count t = (st.joiners u).count t
  waits : ∀ r, t ∉ st.waiters r → t ∉ st'.waiters r

theorem Skips.refl (t : TaskId) (st : State V C) : Skips t st st := ⟨rfl, fun _ => rfl, fun _ => id⟩

theorem Touches.grows (touches : Touches touched st st') (final : st.Final) : Grows st st' where
  final u ends := by
    rw [touches.outcome] at ends
    obtain ⟨life, live, terminal⟩ := final u ends
    exact ⟨life, touches.ended live terminal, terminal⟩
  outcome {u _} ended := (touches.outcome u).trans ended
  arrives {u _} none' ended := by
    rw [touches.outcome, none'] at ended
    simp at ended
  joiners {u} _ := by
    obtain ⟨more, same, _⟩ := touches.joiners u
    exact ⟨more, same.symm⟩
  joined := touches.joined

theorem Touches.skips (touches : Touches touched st st') (known : (st.tasks.get? t).isSome = true)
    (spared : ¬ touched t) : Skips t st st' where
  stance := touches.stance known spared
  joins u := by
    obtain ⟨more, same, hit, _⟩ := touches.joiners u
    rw [same, List.count_append, List.count_eq_zero_of_not_mem fun member => spared (hit t member), Nat.add_zero]
  waits r out member := (touches.waiters member).elim out spared

variable {result : Except (Error V) V}

theorem Ends.unfinished (ends : Ends st u result st') (final : st.Final) : st.outcome u = none := by
  by_contra ended
  obtain ⟨life, live, terminal⟩ := final u ended
  obtain rfl : Life.running = life := Option.some.inj (ends.live.symm.trans live)
  simp [Life.isTerminal] at terminal

/-- What had ended before is as it was. -/
theorem Ends.ended (ends : Ends st u result st') {v : TaskId} {life : Life} (live : st.life v = some life)
    (terminal : life.isTerminal = true) : st'.life v = some life := by
  have awake : v ∉ st.joiners u := by
    intro joins
    rcases (ends.awake joins).2 with same | same <;> rw [same] at live <;> obtain rfl := Option.some.inj live <;>
      simp [Life.isTerminal] at terminal
  have other : v ≠ u := by
    rintro rfl
    obtain rfl : Life.running = life := Option.some.inj (ends.live.symm.trans live)
    simp [Life.isTerminal] at terminal
  rw [State.life, ends.others other, List.count_eq_zero_of_not_mem awake]
  simpa [State.life] using live

theorem Ends.grows (ends : Ends st u result st') (final : st.Final) : Grows st st' where
  final v ended := by
    rw [ends.outcome] at ended
    split at ended
    · next here => exact here ▸ ends.terminal
    · obtain ⟨life, live, terminal⟩ := final v ended
      exact ⟨life, ends.ended live terminal, terminal⟩
  outcome {v o} ended := by
    rw [ends.outcome, if_neg]
    · exact ended
    · rintro rfl
      rw [ends.unfinished final] at ended
      simp at ended
  arrives {v o} none' ended := by
    rw [ends.outcome] at ended
    split at ended
    · next here =>
      subst here
      exact ⟨result, (Option.some.inj ended).symm, ends⟩
    · rw [none'] at ended
      simp at ended
  joiners {v} open' := by
    rw [ends.outcome] at open'
    split at open'
    · simp at open'
    · next other => exact (ends.joiners v).trans (if_neg other) ▸ List.prefix_refl _
  joined code := (code?_of_frames ends.frames _).trans code

theorem Ends.skips (ends : Ends st u result st') (other : t ≠ u) (stranger : t ∉ st.joiners u) :
    Skips t st st' where
  stance := by
    rw [State.stance, ends.others other, List.count_eq_zero_of_not_mem stranger]
    simp [State.stance]
  joins v := by
    rw [ends.joiners]
    split
    · next here => rw [here, List.count_eq_zero_of_not_mem stranger, List.count_nil]
    · rfl
  waits r out := by rwa [waiters_of_resources ends.resources]

end State

/-! ## Threads that have a task in hand -/

/-- The task whose run the thread goes on with next. -/
def Agent.running? (a : Agent V C) : Option TaskId :=
  match a.focus, a.stack with
  | .trampoline t _, _ => some t
  | .code (.answer _), .frame t _ _ :: _ => some t
  | _, _ => none

/-- The thread goes on with the run of the task next. -/
def Agent.Runs (a : Agent V C) (t : TaskId) : Prop := a.running? = some t

/-- The thread is about to do something to the task from outside of its run. -/
def Agent.Meddles (a : Agent V C) (t : TaskId) : Prop :=
  a.subject? = some t ∧ a.running? ≠ some t

instance (a : Agent V C) (t : TaskId) : Decidable (a.Meddles t) := inferInstanceAs (Decidable (_ ∧ _))

theorem Agent.Runs.inHand {a : Agent V C} {t : TaskId} (runs : a.Runs t) : t ∈ a.inHand := by
  obtain ⟨focus, stack⟩ := a
  unfold Runs running? at runs
  split at runs
  · next focused =>
    obtain rfl := Option.some.inj runs
    simp [Agent.inHand, show focus = _ from focused, Focus.inHand]
  · next stacked =>
    obtain rfl := Option.some.inj runs
    simp [Agent.inHand, show stack = _ from stacked, Activation.inHand]
  · simp at runs

theorem Agent.subject?_of_resumed? {a : Agent V C} {st : State V C} {t : TaskId} {f : FrameId}
    (resumed : a.resumed? st = some (t, f)) : a.subject? = some t := by
  unfold Agent.resumed? at resumed
  unfold Agent.subject?
  split at resumed
  · next focus =>
    obtain ⟨g, _, same⟩ := Option.map_eq_some_iff.1 resumed
    rw [focus]
    exact congrArg some (congrArg Prod.fst same)
  · next focus stack =>
    rw [focus, stack]
    exact congrArg some (congrArg Prod.fst (Option.some.inj resumed))
  · next focus stack =>
    dsimp only at resumed
    split at resumed
    · simp at resumed
    · obtain ⟨g, _, same⟩ := Option.map_eq_some_iff.1 resumed
      rw [focus, stack]
      exact congrArg some (congrArg Prod.fst same)
  · simp at resumed

namespace Crew

/-- The threads that have a task in hand. -/
def hands (c : Crew V C) (t : TaskId) : List (Agent V C) := c.agents.filter fun a => t ∈ a.inHand

section

variable {st st' : State V C} {before after : List (Agent V C)} {a a' : Agent V C} {t : TaskId}

theorem hands_split (st : State V C) (before after : List (Agent V C)) (a : Agent V C) (t : TaskId) :
    hands ⟨st, before ++ a :: after⟩ t =
      before.filter (fun a => t ∈ a.inHand) ++ (if t ∈ a.inHand then [a] else []) ++
        after.filter fun a => t ∈ a.inHand := by
  rw [hands, List.filter_append, List.filter_cons, List.append_assoc]
  split
  · next mine => rw [if_pos (by simpa using mine)]; rfl
  · next other => rw [if_neg (by simpa using other)]; rfl

theorem hands_other (out : t ∉ a.inHand) (out' : t ∉ a'.inHand) :
    hands ⟨st', before ++ a' :: after⟩ t = hands ⟨st, before ++ a :: after⟩ t := by
  rw [hands_split, hands_split, if_neg out, if_neg out']

theorem hands_own (mine : t ∈ a.inHand) (sole : hands ⟨st, before ++ a :: after⟩ t = [a]) :
    hands ⟨st', before ++ a' :: after⟩ t = if t ∈ a'.inHand then [a'] else [] := by
  rw [hands_split, if_pos mine] at sole
  have lengths := congrArg List.length sole
  simp only [List.length_append, List.length_singleton] at lengths
  rw [hands_split, List.eq_nil_of_length_eq_zero (by omega : (before.filter fun a => t ∈ a.inHand).length = 0),
    List.eq_nil_of_length_eq_zero (by omega : (after.filter fun a => t ∈ a.inHand).length = 0),
    List.nil_append, List.append_nil]

theorem hands_begin (mine : t ∈ a'.inHand) (nobody : hands ⟨st, before ++ a :: after⟩ t = []) :
    t ∉ a.inHand ∧ hands ⟨st', before ++ a' :: after⟩ t = [a'] := by
  rw [hands_split, List.append_eq_nil_iff, List.append_eq_nil_iff] at nobody
  obtain ⟨⟨front, out⟩, behind⟩ := nobody
  refine ⟨fun inside => ?_, ?_⟩
  · rw [if_pos inside] at out
    simp at out
  · rw [hands_split, front, behind, if_pos mine]
    rfl

end

section

variable [Inhabited V] {c c' : Crew V C} {t : TaskId} {label : Option (TaskId × FrameId)}

open State

/-- What a step of a crew means to one task. -/
inductive Regards (t : TaskId) (c : Crew V C) (label : Option (TaskId × FrameId)) (c' : Crew V C) : Prop where
  /-- The task is passed by. -/
  | skips (skips : Skips t c.state c'.state) (hands : c'.hands t = c.hands t) (label : ∀ f, label ≠ some (t, f))
  /-- A thread takes the task up. -/
  | begins {after : Focus V C} {rest : List (Activation V C)} (ready : c.state.life t = some .ready)
      (begun : ∀ {task}, c.state.tasks.get? t = some task →
        c'.state.stance t = some (.running, false, task.top, task.error))
      (joiners : ∀ u, c'.state.joiners u = c.state.joiners u) (resources : c'.state.resources = c.state.resources)
      (hands : c.hands t = [] → c'.hands t = [⟨.trampoline t after, rest⟩] ∧
        t ∉ rest.flatMap Activation.inHand)
      (idle : after.inHand = []) (label : ∀ f, label ≠ some (t, f))
  /-- A task ended that the task had joined. -/
  | wakes {u : TaskId} {result : Except (Error V) V} (ends : Ends c.state u result c'.state)
      (joins : t ∈ c.state.joiners u) (hands : c'.hands t = c.hands t) (label : ∀ f, label ≠ some (t, f))
  /-- A thread goes on with the run of the task. -/
  | acts {a : Agent V C} {config : Config V C} (member : a ∈ c.hands t) (runs : a.Runs t)
      (step : (a.config c.state).step = .ok config) (state : c'.state = config.state)
      (hands : c.hands t = [a] → c'.hands t = if t ∈ config.agent.inHand then [config.agent] else [])
      (label : label = a.resumed? c.state)

/-- What a step means to a task that nobody meddles with, if all threads that have it in hand go on with its
run. -/
theorem Step.regards (step : Step (fun _ a => ¬ a.Meddles t) c label c')
    (known : (c.state.tasks.get? t).isSome = true) (free : ∀ r, t ∉ c.state.waiters r)
    (heads : ∀ a ∈ c.hands t, a.Runs t) : Regards t c label c' := by
  cases step with
  | @act st before after a config permitted step =>
    by_cases mine : t ∈ a.inHand
    · have member : a ∈ hands ⟨st, before ++ a :: after⟩ t := List.mem_filter.2 ⟨by simp, by simpa using mine⟩
      exact .acts member (heads a member) step rfl (hands_own mine) rfl
    · have apart : a.subject? ≠ some t := fun same =>
        permitted ⟨same, fun runs => mine (Agent.Runs.inHand runs)⟩
      have label : ∀ f, a.resumed? st ≠ some (t, f) := fun f resumed =>
        apart (Agent.subject?_of_resumed? resumed)
      have others {a' : Agent V C} (less : ∀ u, u ∈ a'.inHand → u ∈ a.inHand) :
          hands ⟨config.state, before ++ a' :: after⟩ t = hands ⟨st, before ++ a :: after⟩ t :=
        hands_other mine fun inside => mine (less t inside)
      cases Config.affects_of_step step with
      | touches touches less =>
        refine .skips (touches.skips known ?_) (others less) label
        rintro (same | ⟨r, waits⟩ | unknown)
        · exact apart same
        · exact free r waits
        · rw [show st.tasks.get? t = none from unknown] at known
          simp at known
      | @begins u after' ready touches begun joiners resources focus stack idle =>
        have inHand : config.agent.inHand = u :: a.stack.flatMap Activation.inHand := by
          rw [Agent.inHand, show config.agent.focus = _ from focus, show config.agent.stack = a.stack from stack,
            Focus.inHand, idle]
          rfl
        by_cases same : u = t
        · subst same
          refine @Regards.begins _ _ _ _ _ _ _ after' a.stack ready begun joiners resources (fun nobody => ?_)
            idle label
          obtain ⟨out, begins⟩ := @hands_begin _ _ _ config.state _ _ _ config.agent _ (by simp [inHand]) nobody
          refine ⟨begins.trans ?_, fun inside => out (List.mem_append_right _ inside)⟩
          rw [Config.agent, focus, stack]
          rfl
        · refine .skips (touches.skips known (Ne.symm same)) (hands_other mine fun inside => ?_) label
          rcases List.mem_cons.1 (inHand ▸ (inside : t ∈ config.agent.inHand)) with here | behind
          · exact same here.symm
          · exact mine (List.mem_append_right _ behind)
      | @ends u result subject ends less =>
        by_cases joins : t ∈ st.joiners u
        · exact .wakes ends joins (others less) label
        · refine .skips (ends.skips ?_ joins) (others less) label
          rintro rfl
          exact apart subject
  | @join st agents a new =>
    refine .skips (.refl t st) ?_ (by simp)
    have nobody : t ∉ a.inHand := by cases new <;> simp [Agent.inHand, Focus.inHand]
    simp [hands, List.filter_append, nobody]
  | @lapse st before after condition limit next stack =>
    refine .skips (.refl t st) ?_ (by simp)
    by_cases mine : t ∈ Agent.inHand (⟨.waiting condition limit next, stack⟩ : Agent V C)
    · have runs := heads ⟨.waiting condition limit next, stack⟩
        (List.mem_filter.2 ⟨by simp, by simpa using mine⟩)
      simp [Agent.Runs, Agent.running?] at runs
    · exact hands_other mine mine
  | @switch st agents thread => exact .skips ⟨rfl, fun _ => rfl, fun _ => id⟩ rfl (by simp)

variable {allowed : Crew V C → Agent V C → Prop}

/-- Outcomes stay, whatever the code does. -/
theorem Step.grows (step : Step allowed c label c') (final : c.state.Final) : Grows c.state c'.state := by
  cases step with
  | @act st before after a config permitted step =>
    cases Config.affects_of_step step with
    | touches touches => exact touches.grows final
    | begins ready touches => exact touches.grows final
    | ends subject ends => exact ends.grows final
  | join | lapse => exact (Touches.refl _ : Touches (fun _ => False) _ _).grows final
  | @switch st agents thread =>
    have still : Touches (fun _ => False) st { st with running := thread } := .of_tables rfl rfl rfl
    exact still.grows final

namespace Run

variable {i j : Nat} {u : TaskId} {o : Outcome V}

theorem final (run : Run V C allowed) : ∀ i ≤ run.length, (run.crew i).state.Final := by
  intro i
  induction i with
  | zero =>
    intro _ u ended
    obtain ⟨parallelism, starts⟩ := run.starts
    rw [starts] at ended
    exact absurd (by simp [State.outcome, initial, State.initial]) ended
  | succ i inductionHypothesis =>
    intro bound
    exact ((run.steps i bound).grows (inductionHypothesis (by omega))).final

theorem grows (run : Run V C allowed) (bound : i < run.length) :
    Grows (run.crew i).state (run.crew (i + 1)).state :=
  (run.steps i bound).grows (run.final i bound.le)

theorem outcome_stays (run : Run V C allowed) (later : i ≤ j) (bound : j ≤ run.length)
    (ended : (run.crew i).state.outcome u = some o) : (run.crew j).state.outcome u = some o := by
  induction j, later using Nat.le_induction with
  | base => exact ended
  | succ j later inductionHypothesis => exact (run.grows bound).outcome (inductionHypothesis (by omega))

/-- The joiners of a task that has not ended are those of before, and more behind them. -/
theorem joiners_grow (run : Run V C allowed) (later : i ≤ j) (bound : j ≤ run.length)
    (open' : (run.crew j).state.outcome u = none) :
    (run.crew i).state.joiners u <+: (run.crew j).state.joiners u := by
  induction j, later using Nat.le_induction with
  | base => exact List.prefix_refl _
  | succ j later inductionHypothesis =>
    have before : (run.crew j).state.outcome u = none := by
      cases ended : (run.crew j).state.outcome u with
      | none => rfl
      | some o => simp [(run.grows bound).outcome ended] at open'
    exact (inductionHypothesis (by omega) before).trans ((run.grows bound).joiners open')

end Run

end

end Crew

end Tasking
