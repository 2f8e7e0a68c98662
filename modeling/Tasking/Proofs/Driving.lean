import Tasking.Proofs.Arrivals

/-! # Driving a scheduler

A thread that drives a scheduler runs its ready tasks, one after another, until none is ready, and counts
them.  All drivings of a scheduler that are in progress can be read off the threads, each with its count
(`Crew.drives`); those of threads that wait until the scheduler is quiescent, or take a turn as its workers,
have none.

If one thread alone drives a scheduler then it runs the tasks that were ready in the beginning and those that
become ready meanwhile, in this order (`Crew.Run.runs_in_order`).
-/

namespace Tasking

variable {V C : Type}

/-! ## Drivings in progress -/

/-- The driving of a scheduler that a thread goes on with, and how many tasks were run so far if that is
counted. -/
def Focus.drives (s : SchedulerId) : Focus V C → List (Option Nat)
  | .drain u n _ => if u = s then [some n] else []
  | .waiting (.quiescent u) _ _ | .work u _ => if u = s then [none] else []
  | .trampoline _ after => after.drives s
  | _ => []

def Activation.drives (s : SchedulerId) : Activation V C → List (Option Nat)
  | .frame _ _ after | .cancel _ _ _ _ after => after.drives s
  | _ => []

def Agent.drives (s : SchedulerId) (a : Agent V C) : List (Option Nat) :=
  a.focus.drives s ++ a.stack.flatMap (Activation.drives s)

/-- The drivings of a scheduler that are in progress. -/
def Crew.drives (s : SchedulerId) (c : Crew V C) : List (Option Nat) := c.agents.flatMap (Agent.drives s)

namespace Config

open State

variable [Inhabited V] {c config : Config V C} {s : SchedulerId} {st st₁ : State V C} {t : TaskId}
  {focus after otherwise : Focus V C} {stack : List (Activation V C)}

/-- What a step means to the drivings of a scheduler that are in progress on the thread. -/
inductive Drives (s : SchedulerId) (c config : Config V C) : Prop where
  | same (same : config.agent.drives s = c.agent.drives s) (idle : c.focus.takes? ≠ some s)
  | counts {n : Nat} {rest : List (Option Nat)} {t : TaskId} {w : Worker} {st₁ : State V C}
      (before : c.agent.drives s = some n :: rest) (after : config.agent.drives s = some (n + 1) :: rest)
      (taken : c.state.takeReady s = .ok (some t, st₁)) (begun : st₁.beginRun t w = .ok config.state)
  /-- A driving begins or ends. -/
  | turns (turns : (config.agent.drives s).length ≠ (c.agent.drives s).length) (idle : c.agent.drives s = [] →
      c.focus.takes? ≠ some s)
  | uncounted (uncounted : none ∈ c.agent.drives s)

omit [Inhabited V] in
theorem drives_ne_nil {a : Agent V C} (takes : a.focus.takes? = some s) : a.drives s ≠ [] := by
  obtain ⟨focus, stack⟩ := a
  cases focus with
  | drain u n next =>
    obtain rfl : u = s := Option.some.inj takes
    simp [Agent.drives, Focus.drives]
  | work u index =>
    obtain rfl : u = s := Option.some.inj takes
    simp [Agent.drives, Focus.drives]
  | waiting condition limit next =>
    cases condition with
    | quiescent u =>
      obtain rfl : u = s := Option.some.inj takes
      simp [Agent.drives, Focus.drives]
    | outcome | stage => cases takes
  | code | trampoline | own | rest => cases takes

omit [Inhabited V] in
theorem drives_opened (opened : Option ExclusiveId) (stack : List (Activation V C)) :
    ((opened.map Activation.opened).toList ++ stack).flatMap (Activation.drives s) =
      stack.flatMap (Activation.drives s) := by
  cases opened <;> rfl

theorem drives_of_deliver {a : Answer V}
    (step : (⟨st, .code (.answer a), stack⟩ : Config V C).deliver a = .ok config) :
    Drives s ⟨st, .code (.answer a), stack⟩ config := by
  cases does_of_deliver step with
  | passes detours => exact absurd rfl ((detours.2 _ rfl).1 a)
  | begins _ busy => exact absurd rfl (busy _)
  | rests | hands | closes | suspends | returns | finishes | lands | unwinds => exact .same rfl (by rintro ⟨⟩)
  | leaps | cancels =>
    refine .same ?_ (by rintro ⟨⟩)
    simp only [Agent.drives, Config.agent, drives_opened]
    rfl

theorem drives_of_unwind {u : TaskId} {target : FrameId} {value : V} {next : Program V C}
    (step : (⟨st, .code (.unwind u target value next), stack⟩ : Config V C).unwind u target value (.code next) =
      .ok config) : Drives s ⟨st, .code (.unwind u target value next), stack⟩ config := by
  simp only [unwind, bind_ok, check_ok] at step
  obtain ⟨task, _, _, step⟩ := step
  split at step
  · next doomed _ =>
    cases doomed with
    | nil =>
      obtain rfl := pure_ok.1 step
      exact .same rfl (by rintro ⟨⟩)
    | cons f rest =>
      obtain ⟨resumption, st', _, rfl⟩ := Crew.Sound.resumeFrame_ok
        (show (⟨st, .code (.unwind u target value next), stack⟩ : Config V C).resumeFrame u f default
          (some .cancelled) (.cancel u rest target value (.code next)) = .ok config from step)
      refine .same ?_ (by rintro ⟨⟩)
      simp only [Agent.drives, Config.agent, drives_opened]
      rfl
  · simp at step

theorem drives_of_stepCode {p : Program V C}
    (step : (⟨st, .code p, stack⟩ : Config V C).stepCode p = .ok config) :
    Drives s ⟨st, .code p, stack⟩ config := by
  cases p with
  | answer a => exact drives_of_deliver step
  | unwind u target value next => exact drives_of_unwind step
  | ask request next =>
    simp only [stepCode, bind_ok, pure_ok] at step
    obtain ⟨⟨reply, st'⟩, _, rfl⟩ := step
    exact .same rfl (by rintro ⟨⟩)
  | newFrame | newActor =>
    simp only [stepCode, pure_ok] at step
    subst step
    exact .same rfl (by rintro ⟨⟩)
  | register g name native next =>
    simp only [stepCode, bind_ok, pure_ok] at step
    obtain ⟨⟨reply, st'⟩, _, rfl⟩ := step
    exact .same rfl (by rintro ⟨⟩)
  | callNative g name context arguments next =>
    simp only [stepCode, bind_ok] at step
    obtain ⟨registry, _, step⟩ := step
    split at step <;> obtain rfl := pure_ok.1 step <;> exact .same rfl (by rintro ⟨⟩)
  | within x t inside next =>
    simp only [stepCode, bind_ok] at step
    obtain ⟨opens, _, step⟩ := step
    split at step <;> obtain rfl := pure_ok.1 step <;> exact .same rfl (by rintro ⟨⟩)
  | drive u next =>
    obtain rfl := pure_ok.1 step
    by_cases here : u = s
    · subst here
      refine .turns ?_ fun _ => by rintro ⟨⟩
      simp [Agent.drives, Config.agent, goTo, Focus.drives]
    · refine .same ?_ (by rintro ⟨⟩)
      simp [Agent.drives, Config.agent, goTo, Focus.drives, here]
  | await condition limit next =>
    obtain rfl := pure_ok.1 step
    by_cases here : condition = .quiescent s
    · subst here
      refine .turns ?_ fun _ => by rintro ⟨⟩
      simp [Agent.drives, Config.agent, goTo, Focus.drives]
    · refine .same ?_ (by rintro ⟨⟩)
      cases condition with
      | quiescent u =>
        have other : u ≠ s := fun same => here (congrArg _ same)
        simp [Agent.drives, Config.agent, goTo, Focus.drives, other]
      | outcome | stage => rfl

omit [Inhabited V] in
/-- A thread that drives another scheduler. -/
theorem drives_of_runReady {u : SchedulerId} {w : Worker} (takes : focus.takes? = some u) (other : u ≠ s)
    (out : focus.drives s = []) (out' : after.drives s = []) (out'' : otherwise.drives s = [])
    (step : (⟨st, focus, stack⟩ : Config V C).runReady u w after otherwise = .ok config) :
    Drives s ⟨st, focus, stack⟩ config := by
  have idle : focus.takes? ≠ some s := by simp [takes, other]
  simp only [runReady, bind_ok] at step
  obtain ⟨⟨next, st₁⟩, taken, step⟩ := step
  cases next with
  | none =>
    obtain rfl := pure_ok.1 step
    refine .same ?_ idle
    simp [Agent.drives, Config.agent, goTo, out, out'']
  | some t =>
    simp only [beginRun, tryState, bind_ok, pure_ok] at step
    obtain ⟨_, ⟨st₂, begun, rfl⟩, rfl⟩ := step
    refine .same ?_ idle
    simp [Agent.drives, Config.agent, goTo, Focus.drives, out, out']

theorem drives_of_drain {n : Nat} {next : Nat → Program V C}
    (step : (⟨st, .drain s n next, stack⟩ : Config V C).step = .ok config) :
    Drives s ⟨st, .drain s n next, stack⟩ config := by
  simp only [Config.step, runReady, bind_ok] at step
  obtain ⟨⟨taken?, st₁⟩, taken, step⟩ := step
  cases taken? with
  | none =>
    obtain rfl := pure_ok.1 step
    refine .turns ?_ fun none' => ?_
    · simp [Agent.drives, Config.agent, goTo, Focus.drives]
    · simp [Agent.drives, Config.agent, Focus.drives] at none'
  | some t =>
    simp only [beginRun, tryState, bind_ok, pure_ok] at step
    obtain ⟨_, ⟨st₂, begun, rfl⟩, rfl⟩ := step
    have before : (⟨st, .drain s n next, stack⟩ : Config V C).agent.drives s =
        some n :: stack.flatMap (Activation.drives s) := by simp [Agent.drives, Config.agent, Focus.drives]
    refine .counts before ?_ taken begun
    simp [Agent.drives, Config.agent, goTo, Focus.drives]

theorem drives_of_step (step : c.step = .ok config) : Drives s c config := by
  by_cases uncounted : none ∈ c.agent.drives s
  · exact .uncounted uncounted
  obtain ⟨st, focus, stack⟩ := c
  cases focus with
  | code p => exact drives_of_stepCode step
  | trampoline t after =>
    simp only [Config.step, resumeTop, bind_ok] at step
    obtain ⟨task, _, step⟩ := step
    split at step
    · simp at step
    · obtain ⟨resumption, st', _, rfl⟩ := Crew.Sound.resumeFrame_ok step
      refine .same ?_ (by rintro ⟨⟩)
      simp only [Agent.drives, Config.agent, drives_opened]
      rfl
  | drain u n next =>
    by_cases here : u = s
    · subst here
      exact drives_of_drain step
    · exact drives_of_runReady rfl here (by simp [Focus.drives, here]) (by simp [Focus.drives, here]) rfl step
  | work u index =>
    have other : u ≠ s := by
      rintro rfl
      simp [Agent.drives, Config.agent, Focus.drives] at uncounted
    exact drives_of_runReady rfl other (by simp [Focus.drives, other]) rfl rfl step
  | waiting condition limit next =>
    have out : (Focus.waiting condition limit next).drives s = [] ∧
        (Focus.waiting condition limit next).takes? ≠ some s := by
      cases condition with
      | quiescent u =>
        by_cases here : u = s
        · simp [Agent.drives, Config.agent, Focus.drives, here] at uncounted
        · simp [Focus.drives, Focus.takes?, here]
      | outcome | stage => exact ⟨rfl, by rintro ⟨⟩⟩
    simp only [Config.step, keepWaiting] at step
    split at step
    · obtain rfl := pure_ok.1 step
      refine .same ?_ out.2
      simp [Agent.drives, Config.agent, goTo, Focus.drives, out.1]
    · split at step
      · next u driven =>
        have takes : (Focus.waiting condition limit next).takes? = some u := takes?_of_driven driven
        have other : u ≠ s := by
          rintro rfl
          exact out.2 takes
        exact drives_of_runReady takes other out.1 out.1 out.1 step
      · obtain rfl := pure_ok.1 step
        exact .same rfl out.2
  | own t index =>
    simp only [Config.step, beginRun, tryState, bind_ok, pure_ok] at step
    obtain ⟨_, ⟨st₂, begun, rfl⟩, rfl⟩ := step
    exact .same rfl (by rintro ⟨⟩)
  | rest =>
    obtain rfl := pure_ok.1 step
    exact .same rfl (by rintro ⟨⟩)

end Config

/-! ## Whole runs -/

namespace Crew

variable [Inhabited V] {c c' : Crew V C} {s : SchedulerId} {label : Option (TaskId × FrameId)} {m n : Nat}

omit [Inhabited V] in
theorem taken_of_aside {st st' : State V C} (accounts : st.Accounts) (aside : State.Aside st st') :
    st.taken st' s = [] :=
  State.taken_eq_nil accounts (accounts.aside aside).1 fun _ inside => aside.queue s ▸ inside

omit [Inhabited V] in
theorem drives_act {st : State V C} {before after : List (Agent V C)} {a : Agent V C} :
    drives s ⟨st, before ++ a :: after⟩ =
      before.flatMap (Agent.drives s) ++ (a.drives s ++ after.flatMap (Agent.drives s)) := by
  simp [drives]

/-- Nobody takes up tasks of a scheduler that nobody drives. -/
theorem Step.taken_eq_nil (accountable : c.Accountable) (step : Step Unforced c label c')
    (undriven : c.drives s = []) : c.state.taken c'.state s = [] := by
  cases step with
  | @act st before after a config unforced step =>
    rw [drives_act, List.append_eq_nil_iff, List.append_eq_nil_iff] at undriven
    refine (conserves_act accountable.accounts unforced step s).2 fun takes => ?_
    exact Config.drives_ne_nil takes undriven.2.1
  | join | lapse => exact taken_of_aside accountable.accounts (.refl _)
  | switch thread =>
    exact taken_of_aside accountable.accounts (.of_tables rfl rfl (fun _ => rfl) fun _ => rfl)

/-- A thread that alone drives a scheduler counts whom it takes up. -/
theorem Step.counts (accountable : c.Accountable) (step : Step Unforced c label c')
    (before : c.drives s = [some m]) (after : (c'.drives s).length = 1) :
    c'.drives s = [some (m + (c.state.taken c'.state s).length)] := by
  have rest : c'.drives s = c.drives s → c.state.taken c'.state s = [] →
      c'.drives s = [some (m + (c.state.taken c'.state s).length)] := by
    intro same nobody
    rw [same, before, nobody]
    rfl
  cases step with
  | @act st left right a config unforced step =>
    obtain ⟨_, nobody⟩ := conserves_act accountable.accounts unforced step s
    -- There is one driving before and after, of this thread or of another.
    have here := congrArg List.length before
    rw [drives_act, List.length_append, List.length_append, List.length_singleton] at here
    have there := after
    rw [drives_act, List.length_append, List.length_append] at there
    cases Config.drives_of_step step with
    | same same idle =>
      refine rest ?_ (nobody idle)
      rw [drives_act, drives_act]
      exact congrArg (fun l => left.flatMap (Agent.drives s) ++ (l ++ right.flatMap (Agent.drives s))) same
    | @counts k others t w st₁ earlier later taken begun =>
      replace earlier : a.drives s = some k :: others := earlier
      replace later : (⟨config.focus, config.stack⟩ : Agent V C).drives s = some (k + 1) :: others := later
      rw [earlier, List.length_cons] at here
      have out : left.flatMap (Agent.drives s) = [] := List.eq_nil_of_length_eq_zero (by omega)
      have out' : right.flatMap (Agent.drives s) = [] := List.eq_nil_of_length_eq_zero (by omega)
      obtain rfl : others = [] := List.eq_nil_of_length_eq_zero (by omega)
      rw [drives_act, earlier, out, out'] at before
      obtain rfl : k = m := by simpa using before
      rw [drives_act, later, out, out', (accountable.accounts.takes taken begun).1]
      rfl
    | turns turns =>
      have turns : ((⟨config.focus, config.stack⟩ : Agent V C).drives s).length ≠ (a.drives s).length := turns
      omega
    | uncounted uncounted =>
      have member : none ∈ drives s ⟨st, left ++ a :: right⟩ := by
        rw [drives_act]
        exact List.mem_append_right _ (List.mem_append_left _ uncounted)
      simp [before] at member
  | @join st agents a new =>
    refine rest ?_ (taken_of_aside accountable.accounts (.refl _))
    have here := congrArg List.length before
    simp only [drives, List.flatMap_append, List.length_append, List.length_singleton] at here after
    have out : [a].flatMap (Agent.drives s) = [] := List.eq_nil_of_length_eq_zero (by omega)
    rw [drives, List.flatMap_append, out, List.append_nil, drives]
  | @lapse st left right condition limit next stack =>
    refine rest ?_ (taken_of_aside accountable.accounts (.refl _))
    have here := congrArg List.length before
    rw [drives_act, List.length_append, List.length_append, List.length_singleton] at here
    rw [drives_act, List.length_append, List.length_append] at after
    have out : (Focus.waiting condition limit next).drives s = [] := by
      simp only [Agent.drives, Focus.drives, List.length_append, List.nil_append] at here after
      exact List.eq_nil_of_length_eq_zero (by omega)
    rw [drives_act, drives_act, Agent.drives, Agent.drives, out]
    rfl
  | switch thread =>
    exact rest rfl (taken_of_aside accountable.accounts (.of_tables rfl rfl (fun _ => rfl) fun _ => rfl))

namespace Run

variable {allowed : Crew V C → Agent V C → Prop} {i j a b : Nat} {t : TaskId}

/-- A thread begins to drive a scheduler in a step, and nobody else drives it until the thread goes on after
it ran so many tasks. -/
structure Call (run : Run V C allowed) (s : SchedulerId) (a b n : Nat) : Prop where
  later : a < b
  bound : b ≤ run.length
  idle : (run.crew a).drives s = []
  begins : (run.crew (a + 1)).drives s = [some 0]
  alone : ∀ k, a < k → k ≤ b → ((run.crew k).drives s).length = 1
  returns : ∃ next stack st, ⟨.drain s n next, stack⟩ ∈ (run.crew b).agents ∧
    (⟨(run.crew b).state, .drain s n next, stack⟩ : Config V C).step = .ok ⟨st, .code (next n), stack⟩

variable {run : Run V C Unforced}

/-- While a thread drives a scheduler, its count tells how many tasks it ran. -/
theorem Call.counted (call : run.Call s a b n) (after : a + 1 ≤ j) (within : j ≤ b) :
    ∃ m, (run.crew j).drives s = [some m] ∧ (run.picks s j).length = (run.picks s a).length + m := by
  induction j, after using Nat.le_induction with
  | base =>
    have bound : a < run.length := Nat.lt_of_lt_of_le call.later call.bound
    have nobody := (run.steps a bound).taken_eq_nil (run.accountable a bound.le) call.idle
    exact ⟨0, call.begins, by rw [picks, nobody, List.append_nil]; rfl⟩
  | succ j after inductionHypothesis =>
    obtain ⟨m, drives, picked⟩ := inductionHypothesis (by omega)
    have bound : j < run.length := Nat.lt_of_lt_of_le (by omega) call.bound
    have counts := (run.steps j bound).counts (run.accountable j bound.le) drives (call.alone _ (by omega) within)
    refine ⟨_, counts, ?_⟩
    rw [picks, List.length_append, picked, Nat.add_assoc]

theorem Call.empty (call : run.Call s a b n) : (run.crew b).state.queue s = [] := by
  obtain ⟨next, stack, st, _, returns⟩ := call.returns
  exact (Config.empty_of_drain returns).2

/-- A thread that goes on after it drove a scheduler tells how many tasks it ran. -/
theorem Call.length_picks (call : run.Call s a b n) :
    (run.picks s b).length = (run.picks s a).length + n := by
  obtain ⟨m, drives, picked⟩ := call.counted call.later (Nat.le_refl b)
  obtain ⟨next, stack, st, member, _⟩ := call.returns
  have inside : some n ∈ (run.crew b).drives s := by
    refine List.mem_flatMap.2 ⟨_, member, ?_⟩
    simp [Agent.drives, Focus.drives]
  rw [drives, List.mem_singleton, Option.some.injEq] at inside
  rw [picked, inside]

/-- Ready tasks are run in the order in which they became ready, each once for each time; those that are not
yet run are exactly the ones that are ready now.  A task that yields is run again when all that were ready
then have been run, each once.  A call that drives a scheduler, alone, runs the tasks that were ready and those
that become ready meanwhile, tells their number, and leaves none ready. -/
theorem runs_in_order (run : Run V C Unforced) (s : SchedulerId) :
    (∀ i ≤ run.length, run.arrivals s i = run.picks s i ++ (run.crew i).state.queue s ∧
      ((run.crew i).state.queue s).Nodup ∧
      ∀ t, t ∈ (run.crew i).state.queue s ↔ (run.crew i).state.readyOn s t = true) ∧
    (∀ i j t, i < j → j < run.length → run.Yields s t i → run.Begins s t j →
      (∀ k, i < k → k < j → ¬ run.Begins s t k) →
      run.picks s (j + 1) = run.picks s i ++ (run.crew i).state.queue s ++ [t]) ∧
    ∀ a b n, run.Call s a b n → ∃ entries, run.arrivals s b = run.arrivals s a ++ entries ∧
      run.picks s b = run.picks s a ++ (run.crew a).state.queue s ++ entries ∧
      n = ((run.crew a).state.population s fun task => task.life = .ready) + entries.length ∧
      ∀ t, (run.crew b).state.readyOn s t = false := by
  refine ⟨fun i bound => ?_, fun i j t later bound yields begins first => ?_, fun a b n call => ?_⟩
  · have accounts := (run.accountable i bound).accounts
    exact ⟨run.arrivals_eq s i bound, accounts.filed.distinct s, fun t => accounts.readyOn_iff_mem.symm⟩
  · exact picks_of_yields yields later bound begins first
  · have before : a ≤ run.length := Nat.le_trans call.later.le call.bound
    have accounts := (run.accountable b call.bound).accounts
    obtain ⟨entries, arrived⟩ := prefix_of_steps (fun i => rfl : ∀ i, run.arrivals s (i + 1) = _) call.later.le
    have picked : run.picks s b = run.picks s a ++ (run.crew a).state.queue s ++ entries := by
      rw [← run.arrivals_eq s a before, arrived, run.arrivals_eq s b call.bound, call.empty, List.append_nil]
    refine ⟨entries, arrived.symm, picked, ?_, fun t => ?_⟩
    · have length := call.length_picks
      rw [picked, List.append_assoc, List.length_append, List.length_append, Nat.add_left_cancel_iff] at length
      rw [← length, (run.accountable a before).accounts.length_queue]
    · refine Bool.not_eq_true _ ▸ fun ready => ?_
      simpa [call.empty] using accounts.readyOn_iff_mem.1 ready

end Run

/-! ### A task that yields, and one that does not -/

def dawdle : Program Unit Bool :=
  .ask (.newCell false) fun again =>
  .ask .newRegistry fun g =>
  .ask (.newScheduler .manual g) fun
    | .error _ => .answer .suspended
    | .ok s => .newFrame "slow" (fun context _ _ =>
        .ask (.read again) fun
        | true => .answer (.done ())
        | false => .ask (.write again true) fun _ => .ask (.yield context.task) fun _ => .answer .suspended) fun slow =>
      .newFrame "quick" (fun _ _ _ => .answer (.done ())) fun quick =>
      .ask (.spawn s slow) fun
      | .error _ => .answer .suspended
      | .ok t => .ask (.spawn s quick) fun
        | .error _ => .answer .suspended
        | .ok u => .ask (.start t) fun _ => .ask (.start u) fun _ => .drive s fun _ => .answer (.done ())

/-- The host of the two tasks after so many steps. -/
def dawdleHost (n : Nat) : Config Unit Bool := (Config.start (.initial 1) dawdle).after n

theorem dawdle_ok : ∀ n < 24, (dawdleHost n).step.isOk = true := by decide +kernel

theorem dawdle_unforced : ∀ n < 23, Unforced (dawdleHost n).alone (dawdleHost n).agent := by
  intro n bound
  interval_cases n
  all_goals trivial

def dawdleRun : Run Unit Bool Unforced :=
  .ofHost 1 dawdle 23 (fun n bound => dawdle_ok n (by omega)) dawdle_unforced

theorem dawdle_call : dawdleRun.Call ⟨1⟩ 10 24 3 where
  later := by decide
  bound := by decide
  idle := by decide +kernel
  begins := by decide +kernel
  alone k after within := by
    have each : ∀ k < 25, 10 < k → ((dawdleRun.crew k).drives ⟨1⟩).length = 1 := by decide +kernel
    exact each k (by omega) after
  returns := ⟨_, _, _, List.mem_singleton.2 rfl, Config.step_after (dawdle_ok 23 (by omega))⟩

/-- The second task runs before the first one does again.  Two tasks were ready, one became ready again, and
three runs are counted. -/
theorem dawdle_in_order :
    dawdleRun.picks ⟨1⟩ 21 = dawdleRun.picks ⟨1⟩ 16 ++ (dawdleRun.crew 16).state.queue ⟨1⟩ ++ [⟨1⟩] ∧
    (dawdleRun.crew 16).state.queue ⟨1⟩ = [⟨2⟩] ∧
    ∃ entries, dawdleRun.arrivals ⟨1⟩ 24 = dawdleRun.arrivals ⟨1⟩ 10 ++ entries ∧ entries.length = 1 := by
  obtain ⟨_, yields, call⟩ := dawdleRun.runs_in_order ⟨1⟩
  have first : ∀ k < 20, 16 < k → ¬ dawdleRun.Begins ⟨1⟩ ⟨1⟩ k := by
    unfold Run.Begins
    decide +kernel
  have begins : dawdleRun.Begins ⟨1⟩ ⟨1⟩ 20 := by
    unfold Run.Begins
    decide +kernel
  have parks : dawdleRun.Yields ⟨1⟩ ⟨1⟩ 16 := ⟨by decide +kernel, by decide +kernel⟩
  obtain ⟨entries, arrived, _, counted, _⟩ := call 10 24 3 dawdle_call
  have ready : ((dawdleRun.crew 10).state.population ⟨1⟩ fun task => task.life = .ready) = 2 := by decide +kernel
  refine ⟨yields 16 20 ⟨1⟩ (by decide) (by decide) parks begins fun k after within => first k within after,
    by decide +kernel, entries, arrived, ?_⟩
  omega

/-! ### A task that is forced to be ready

Nobody puts it in line, so it is not run. -/

def shove : Program Unit Empty :=
  .ask .newRegistry fun g =>
  .ask (.newScheduler .manual g) fun
    | .error _ => .answer .suspended
    | .ok s => .newFrame "idle" (fun _ _ _ => .answer (.done ())) fun entry =>
      .ask (.spawn s entry) fun
      | .error _ => .answer .suspended
      | .ok t => .ask (.move t .ready) fun _ => .drive s fun _ => .answer (.done ())

/-- The host of the task after so many steps. -/
def shoveHost (n : Nat) : Config Unit Empty := (Config.start (.initial 1) shove).after n

theorem shove_ok : ∀ n < 7, (shoveHost n).step.isOk = true := by decide +kernel

def shoveRun : Run Unit Empty fun _ _ => True :=
  .ofHost 1 shove 6 (fun n bound => shove_ok n (by omega)) fun _ _ => trivial

/-- One task is ready, none is run, and the task is ready still. -/
theorem shove_missed : shoveRun.Call ⟨1⟩ 6 7 0 ∧
    ((shoveRun.crew 6).state.population ⟨1⟩ fun task => task.life = .ready) = 1 ∧
    (shoveRun.crew 7).state.readyOn ⟨1⟩ ⟨1⟩ = true := by
  refine ⟨⟨by decide, by decide, by decide +kernel, by decide +kernel, fun k after within => ?_, ?_⟩,
    by decide +kernel, by decide +kernel⟩
  · obtain rfl : k = 7 := by omega
    decide +kernel
  · exact ⟨_, _, _, List.mem_singleton.2 rfl, Config.step_after (shove_ok 6 (by omega))⟩

end Crew

end Tasking
