import Tasking.Proofs.Rally.Parts

/-! # Whole rallies

A host that is about to run the program of the scenario is the beginning of a crew (`kickOff`).  Whatever strides the crew
makes, players only make runs that they have to make, and each of them can be the next to make one as long as it has
any left.  When all runs were made, every shot was counted, and the program of the host comes to its end.
-/

namespace Tasking

namespace Crew

variable {V C : Type} [Inhabited V] {c c' c'' : Crew V C} {order order' : List TaskId} {label : Option TaskId}

theorem Strides.trans (first : Strides c order c') (second : Strides c' order' c'') : Strides c (order ++ order') c'' := by
  induction second with
  | refl => rwa [List.append_nil]
  | next _ stride inductionHypothesis =>
    rw [← List.append_assoc]
    exact .next inductionHypothesis stride

theorem Stride.strides (stride : Stride c label c') : Strides c label.toList c' := by
  simpa using Strides.next .refl stride

/-- A thread that runs no task makes a step. -/
theorem Strides.quiet {st : State V C} {before after : List (Agent V C)} {a : Agent V C} {config : Config V C}
    (quiet : a.runs = []) (step : (a.config st).step = .ok config) :
    Strides ⟨st, before ++ a :: after⟩ [] ⟨config.state, before ++ config.agent :: after⟩ := by
  have stride : Stride ⟨st, before ++ a :: after⟩ (a.runs.getLast?.map Prod.fst)
      ⟨config.state, before ++ config.agent :: after⟩ := .act (.step (not_not_intro quiet) step)
  rw [quiet] at stride
  exact stride.strides

/-- So does a thread on its own. -/
theorem Strides.alone {c c' : Config V C} (quiet : c.agent.runs = []) (step : c.step = .ok c') :
    Strides c.alone [] c'.alone :=
  @Strides.quiet V C _ c.state [] [] c.agent c' quiet step

end Crew

namespace Scenario.Pingpong

open State

/-! ## The beginning -/

variable {rounds workers : Nat} {settings : Settings} {parallelism : Nat}

/-- The host is about to run the program of the scenario, and nothing exists yet. -/
def kickOff (rounds : Nat) (settings : Settings) (parallelism : Nat) : Crew Datum Nat :=
  ⟨.initial parallelism, [⟨.code (program settings (work rounds)), []⟩]⟩

/-- There are only a registry and a scheduler, if they are there. -/
def dawnState (parallelism : Nat) (registries : Table .registry (Registry (Native Datum Nat)))
    (schedulers : Table .scheduler Scheduler) (thread : Thread) : State Datum Nat :=
  { State.initial parallelism with registries := registries, schedulers := schedulers, running := thread }

/-- The scheduler of the scenario before it has any work. -/
def newScheduler (settings : Settings) (parallelism : Nat) : Scheduler :=
  .new settings ⟨1⟩ (settings.resolvedWorkers parallelism)

/-- The program of the host from where there is a registry. -/
def arranging (rounds : Nat) (settings : Settings) (g : RegistryId) : Program Datum Nat := Code.program do
  match ← Code.ask (.newScheduler settings g) with
  | .error _ => return .done default
  | .ok s =>
    work rounds s
    Code.shutdown s
    return .done default

theorem program_eq (rounds : Nat) (settings : Settings) :
    program settings (work rounds) = .ask .newRegistry (arranging rounds settings) := by
  refine congrArg (Program.ask .newRegistry) (funext fun g => ?_)
  refine congrArg (Program.ask (.newScheduler settings g)) (funext fun reply => ?_)
  cases reply <;> rfl

/-- The host creates the registry, the scheduler and the actor; so many steps come before the last of them. -/
inductive Dawn (rounds : Nat) (settings : Settings) (parallelism : Nat) : Nat → Crew Datum Nat → Prop where
  | registry (thread : Thread) : Dawn rounds settings parallelism 2
      ⟨dawnState parallelism .empty .empty thread, [⟨.code (program settings (work rounds)), []⟩]⟩
  | scheduler (thread : Thread) : Dawn rounds settings parallelism 1
      ⟨dawnState parallelism (Table.empty.add .new) .empty thread, [⟨.code (arranging rounds settings ⟨1⟩), []⟩]⟩
  | actor (thread : Thread) : Dawn rounds settings parallelism 0
      ⟨dawnState parallelism (Table.empty.add .new) (Table.empty.add (newScheduler settings parallelism)) thread,
        [⟨.code (work rounds Scenario.scheduler fun _ =>
          Code.shutdown Scenario.scheduler fun _ => .answer (.done default)), []⟩]⟩

/-- The state when the actor was created. -/
def morning (settings : Settings) (parallelism : Nat) (thread : Thread) : State Datum Nat :=
  ((dawnState parallelism (Table.empty.add .new) (Table.empty.add (newScheduler settings parallelism)) thread).addActor
    (.rally .initial) handler).2

/-- Nothing exists of the players. -/
def blank : Board := ⟨fun _ => .absent, [], false⟩

theorem shows_morning (thread : Thread) :
    Shows rounds (settings.resolvedWorkers parallelism) blank (morning settings parallelism thread) where
  cell _ := by simp [morning, dawnState, addActor, addResource, addExclusive, State.initial, blank, Place.cell?]
  task _ := by simp [morning, dawnState, addActor, addResource, addExclusive, State.initial, blank, Place.task?]
  entry _ _ here := by cases here
  sent p := by
    rw [Board.shots, show (blank.place p).turns = 0 from rfl, Nat.zero_min]
    rfl
  free := rfl
  counted := by
    have nothing : blank.rally rounds = .initial := by simp [Board.rally, Board.shots, blank, Place.turns, Rally.initial]
    rw [nothing]
    rfl
  serves := rfl
  scheduler := ⟨newScheduler settings parallelism, rfl, rfl, rfl, rfl, rfl, rfl, rfl, rfl⟩
  everyone t known := by
    simp [morning, dawnState, addActor, addResource, addExclusive, State.initial] at known
  alone s known := by
    obtain ⟨positive, few⟩ := (Table.isSome_get?_iff _ s).1 known
    obtain ⟨n⟩ := s
    have one : n = 1 := le_antisymm few positive
    rw [one]
    rfl

theorem fair_blank : Fair rounds blank where
  queue _ := by simp [blank, Place.isReady]
  nodup := List.nodup_nil
  turns _ := Nat.zero_le _
  complete _ := by
    refine ⟨fun replied => (by cases replied), fun all => ?_⟩
    have some_runs : 0 < runsOf rounds := lt_of_lt_of_le Nat.one_pos (le_max_right _ _)
    exact absurd all some_runs.ne
  replies _ _ here := by cases here
  last all := absurd (all .ping) (by simp [blank, Place.reply?])

/-! ## What strides keep -/

/-- A crew has what a board says, after tasks ran in this order. -/
structure Stands (rounds workers : Nat) (order : List TaskId) (board : Board) (crew : Crew Datum Nat) : Prop where
  shows : Shows rounds workers board crew.state
  fair : Fair rounds board
  people : ∃ left host others, crew.agents = host :: others ∧ HostAt rounds board left host ∧ ∀ a ∈ others, WorkerAt a
  players : ∀ t ∈ order, ∃ p, t = Shot.task p
  turns : ∀ p, order.count (Shot.task p) = (board.place p).turns
  running : ∀ p, crew.runs.count (Shot.task p, .next) = (board.place p).running

variable {order : List TaskId} {board board' : Board} {crew crew' : Crew Datum Nat} {label : Option TaskId}
  {before after others : List (Agent Datum Nat)} {a host : Agent Datum Nat} {config : Config Datum Nat} {left : Nat}
  {st : State Datum Nat}

theorem Shows.switch (shows : Shows rounds workers board st) (thread : Thread) :
    Shows rounds workers board { st with running := thread } where
  cell := shows.cell
  task := shows.task
  entry := shows.entry
  sent := shows.sent
  free := shows.free
  counted := shows.counted
  serves := shows.serves
  scheduler := shows.scheduler
  everyone := shows.everyone
  alone := shows.alone

namespace Stands

variable (stands : Stands rounds workers order board crew)
include stands

/-- Only running players are run. -/
theorem runs_le (here : crew.agents = before ++ a :: after) (p : Shot) :
    a.runs.count (p.task, .next) ≤ (board.place p).running := by
  rw [← stands.running, Crew.runs, here]
  simp only [List.flatMap_append, List.flatMap_cons, List.count_append]
  omega

/-- A thread makes its stride. -/
theorem goes (here : crew.agents = before ++ a :: after) (goes : Goes rounds workers board a crew.state board' config)
    (labels : ∀ t, a.runs.getLast?.map Prod.fst = some t → ∃ p, t = Shot.task p)
    (people : ∃ left host others, before ++ config.agent :: after = host :: others ∧ HostAt rounds board' left host ∧
      ∀ a ∈ others, WorkerAt a) :
    Stands rounds workers (order ++ (a.runs.getLast?.map Prod.fst).toList) board'
      ⟨config.state, before ++ config.agent :: after⟩ where
  shows := goes.shows
  fair := goes.fair
  people := people
  players t member := by
    rcases List.mem_append.1 member with member | member
    · exact stands.players t member
    · exact labels t (Option.mem_toList.1 member)
  turns p := by rw [List.count_append, stands.turns, goes.tracks.turns]
  running p := by
    have before' := stands.running p
    have tracks := goes.tracks.running p
    rw [Crew.runs, here] at before'
    simp only [Crew.runs, List.flatMap_append, List.flatMap_cons, List.count_append] at before' ⊢
    omega

/-- The host makes its stride. -/
theorem host_goes (here : crew.agents = host :: others) (hostAt : HostAt rounds board left host)
    (workersAt : ∀ a ∈ others, WorkerAt a) :
    ∃ board' left' config, HostGoes rounds workers board left host crew.state board' left' config ∧
      Stands rounds workers (order ++ (host.runs.getLast?.map Prod.fst).toList) board'
        ⟨config.state, config.agent :: others⟩ := by
  have first : crew.agents = [] ++ host :: others := here
  obtain ⟨board', left', config, goes⟩ := hostAt.strides stands.shows stands.fair (stands.runs_le first)
  refine ⟨board', left', config, goes, stands.goes first goes.goes (fun t ran => ?_)
    ⟨left', _, others, rfl, goes.hostAt, workersAt⟩⟩
  cases hostAt with
  | driving => exact ⟨_, (Option.some.inj ran).symm⟩
  | cell | frame | spawn | start | await | waiting | stop | answer => cases ran

/-- A worker makes its stride. -/
theorem worker_goes (here : crew.agents = host :: others) (split : others = before ++ a :: after)
    (hostAt : HostAt rounds board left host) (workersAt : ∀ a ∈ others, WorkerAt a) :
    ∃ board' config, Goes rounds workers board a crew.state board' config ∧
      Stands rounds workers (order ++ (a.runs.getLast?.map Prod.fst).toList) board'
        ⟨config.state, host :: before ++ config.agent :: after⟩ := by
  have here' : crew.agents = (host :: before) ++ a :: after := by rw [here, split, List.cons_append]
  have workerAt := workersAt a (by simp [split])
  obtain ⟨board', config, goes, grows, workerAt'⟩ := workerAt.strides stands.shows stands.fair (stands.runs_le here')
  refine ⟨board', config, goes, stands.goes here' goes (fun t ran => ?_)
    ⟨left, host, before ++ config.agent :: after, rfl, hostAt.grows grows, fun b member => ?_⟩⟩
  · cases workerAt with
    | run p => exact ⟨p, (Option.some.inj ran).symm⟩
    | work | rest => cases ran
  · rcases List.mem_append.1 member with member | member
    · exact workersAt b (by simp [split, member])
    · rcases List.mem_cons.1 member with same | member
      · exact same ▸ workerAt'
      · exact workersAt b (by simp [split, member])

/-- Every thread makes its stride. -/
theorem agent_goes (here : crew.agents = before ++ a :: after) :
    ∃ board' config, Goes rounds workers board a crew.state board' config ∧
      Stands rounds workers (order ++ (a.runs.getLast?.map Prod.fst).toList) board'
        ⟨config.state, before ++ config.agent :: after⟩ := by
  obtain ⟨left, host, others, all, hostAt, workersAt⟩ := stands.people
  cases before with
  | nil =>
    obtain ⟨rfl, rfl⟩ := List.cons_eq_cons.1 (here.symm.trans all)
    obtain ⟨board', left', config, goes, stands'⟩ := stands.host_goes all hostAt workersAt
    exact ⟨board', config, goes.goes, stands'⟩
  | cons first before =>
    obtain ⟨rfl, split⟩ := List.cons_eq_cons.1 (all.symm.trans here)
    exact stands.worker_goes all split hostAt workersAt

theorem join (index : Nat) : Stands rounds workers order board
    ⟨crew.state, crew.agents ++ [⟨.work Scenario.scheduler index, []⟩]⟩ where
  shows := stands.shows
  fair := stands.fair
  people := by
    obtain ⟨left, host, others, all, hostAt, workersAt⟩ := stands.people
    refine ⟨left, host, others ++ [_], by rw [all, List.cons_append], hostAt, fun a member => ?_⟩
    rcases List.mem_append.1 member with member | member
    · exact workersAt a member
    · rw [List.mem_singleton.1 member]
      exact .work index
  players := stands.players
  turns := stands.turns
  running p := by
    rw [← stands.running, Crew.runs, List.flatMap_append]
    simp [Crew.runs, Agent.runs, Focus.run?]

theorem stride (stride : Crew.Stride crew label crew') :
    ∃ board', Stands rounds workers (order ++ label.toList) board' crew' := by
  cases stride with
  | act stride =>
    obtain ⟨board', config, goes, stands'⟩ := stands.agent_goes rfl
    exact ⟨board', stride.unique goes.stride ▸ stands'⟩
  | join index found =>
    obtain rfl := stands.shows.alone _ (by rw [found]; rfl)
    exact ⟨board, by simpa using stands.join index⟩
  | switch thread =>
    exact ⟨board, by simpa using { stands with shows := stands.shows.switch thread }⟩

end Stands

namespace Dawn

variable {n : Nat} (dawn : Dawn rounds settings parallelism n crew)
include dawn

/-- Only the host is there, and it makes its step. -/
theorem host_goes (accepted : settings.obstacle? parallelism = none) :
    ∃ a config, crew.agents = [a] ∧ a.runs = [] ∧ (a.config crew.state).step = .ok config ∧
      ((∃ m < n, Dawn rounds settings parallelism m config.alone) ∨
        config.agent = ⟨.code (upcoming rounds [.ping, .pong]), []⟩ ∧
          Stands rounds (settings.resolvedWorkers parallelism) [] blank config.alone) := by
  cases dawn with
  | registry thread =>
    refine ⟨_, ⟨_, .code (arranging rounds settings ⟨1⟩), []⟩, rfl, rfl, ?_, .inl ⟨1, by decide, .scheduler thread⟩⟩
    rw [program_eq]
    rfl
  | scheduler thread =>
    refine ⟨_, ⟨_, .code (work rounds Scenario.scheduler fun _ =>
      Code.shutdown Scenario.scheduler fun _ => .answer (.done default)), []⟩, rfl, rfl, bind_ok.2 ⟨(.ok ⟨1⟩, _), ?_, rfl⟩,
      .inl ⟨0, by decide, .actor thread⟩⟩
    simp only [State.serve, State.addScheduler, dawnState, State.initial, accepted]
    rfl
  | actor thread =>
    refine ⟨_, ⟨morning settings parallelism thread, .code (upcoming rounds [.ping, .pong]), []⟩, rfl, rfl, rfl,
      .inr ⟨rfl, ?_⟩⟩
    exact {
      shows := shows_morning thread
      fair := fair_blank
      people := ⟨_, _, [], rfl, .cell ⟨List.suffix_refl _, rfl, fun _ _ => rfl, fun q first second =>
        by cases q <;> simp at first second, rfl⟩, fun _ member => absurd member List.not_mem_nil⟩
      players := by simp
      turns := fun p => rfl
      running := fun p => rfl }

theorem switch (thread : Thread) : Dawn rounds settings parallelism n ⟨{ crew.state with running := thread }, crew.agents⟩ := by
  cases dawn with
  | registry => exact .registry thread
  | scheduler => exact .scheduler thread
  | actor => exact .actor thread

/-- Nobody is ready. -/
theorem ready (s : SchedulerId) (scheduler : Scheduler) (found : crew.state.schedulers.get? s = some scheduler) :
    scheduler.ready.isEmpty = true := by
  cases dawn with
  | registry | scheduler => simp [dawnState] at found
  | actor =>
    rw [dawnState, Table.get?_add_eq] at found
    split at found
    · obtain rfl := Option.some.inj found
      rfl
    · simp at found

theorem stride (accepted : settings.obstacle? parallelism = none) (stride : Crew.Stride crew label crew') :
    label = none ∧ ((∃ n, Dawn rounds settings parallelism n crew') ∨
      ∃ board, Stands rounds (settings.resolvedWorkers parallelism) [] board crew') := by
  cases stride with
  | @act st before after a config stride =>
    obtain ⟨host, config', alone, quiet, step, next⟩ := dawn.host_goes accepted
    obtain ⟨rfl, rfl, rfl⟩ : before = [] ∧ a = host ∧ after = [] := by
      cases before with
      | nil => simpa using alone
      | cons first before => simp at alone
    obtain rfl := stride.unique (.step (not_not_intro quiet) step)
    refine ⟨by rw [quiet]; rfl, ?_⟩
    rcases next with ⟨m, _, dawn'⟩ | ⟨_, stands⟩
    · exact .inl ⟨m, dawn'⟩
    · exact .inr ⟨_, stands⟩
  | join index found works =>
    rw [dawn.ready _ _ found] at works
    cases works
  | switch thread => exact ⟨rfl, .inl ⟨n, dawn.switch thread⟩⟩

/-- The host comes to where it makes the players. -/
theorem onward (accepted : settings.obstacle? parallelism = none) :
    ∃ crew' board, Crew.Strides crew [] crew' ∧
      Stands rounds (settings.resolvedWorkers parallelism) [] board crew' := by
  induction n using Nat.strong_induction_on generalizing crew with
  | _ n inductionHypothesis =>
    obtain ⟨host, config, alone, quiet, step, next⟩ := dawn.host_goes accepted
    have strides : Crew.Strides crew [] config.alone := by
      obtain ⟨st, agents⟩ := crew
      obtain rfl : agents = [host] := alone
      exact .alone (c := host.config st) quiet step
    rcases next with ⟨m, less, dawn'⟩ | ⟨_, stands⟩
    · obtain ⟨crew', board, strides', stands⟩ := inductionHypothesis m less dawn'
      exact ⟨crew', board, strides.trans strides', stands⟩
    · exact ⟨_, _, strides, stands⟩

end Dawn

/-- Whatever strides were made, the host is still at the beginning, or the crew has what some board says. -/
theorem stands_of_strides (accepted : settings.obstacle? parallelism = none)
    (strides : Crew.Strides (kickOff rounds settings parallelism) order crew) :
    (order = [] ∧ ∃ n, Dawn rounds settings parallelism n crew) ∨
      ∃ board, Stands rounds (settings.resolvedWorkers parallelism) order board crew := by
  induction strides with
  | refl => exact .inl ⟨rfl, 2, .registry .host⟩
  | next _ stride inductionHypothesis =>
    rcases inductionHypothesis with ⟨rfl, n, dawn⟩ | ⟨board, stands⟩
    · obtain ⟨rfl, dawn' | ⟨board, stands⟩⟩ := dawn.stride accepted stride
      · exact .inl ⟨rfl, dawn'⟩
      · exact .inr ⟨board, stands⟩
    · exact .inr (stands.stride stride)

/-! ## What a crew can come to -/

namespace HostAt

variable (hostAt : HostAt rounds board left host)
include hostAt

theorem launched (late : left ≤ 3) (p : Shot) : (board.place p).Launched := by
  have finished : (∀ p, (board.place p).reply?.isSome = true) → (board.place p).Launched := fun complete => by
    have done := complete p
    revert done
    cases board.place p with
    | seated seat =>
      obtain ⟨entry, _ | _ | _ | reply, turns⟩ := seat
      case done => exact fun _ => ⟨entry, .done reply, turns, rfl, by simp⟩
      all_goals rintro ⟨⟩
    | absent | counting | framed => rintro ⟨⟩
  cases hostAt with
  | cell | frame | spawn | start => omega
  | await all | waiting all | driving all => exact all p
  | stop complete | answer complete => exact finished complete

theorem quiet_of_early (early : 3 < left) : host.runs = [] := by
  cases hostAt with
  | driving => omega
  | cell | frame | spawn | start | await | waiting | stop | answer => rfl

theorem quiet_of_complete (complete : ∀ p, (board.place p).reply?.isSome = true)
    (runs : ∀ p : Shot, host.runs.count (p.task, .next) ≤ (board.place p).running) : host.runs = [] := by
  cases hostAt with
  | @driving p =>
    obtain ⟨entry, w, turns, running⟩ :=
      Place.exists_of_running (lt_of_lt_of_le (by simp [Agent.runs, Focus.run?]) (runs p))
    have done := complete p
    rw [running] at done
    cases done
  | cell | frame | spawn | start | await | waiting | stop | answer => rfl

theorem eq_answer (last : left = 0) : host = ⟨.code (.answer (.done default)), []⟩ := by
  cases hostAt with
  | answer => rfl
  | cell | frame | spawn | start | await | waiting | driving | stop => omega

end HostAt

/-- The program of the host has answered. -/
def Answered (crew : Crew Datum Nat) : Prop :=
  ∃ others, crew.agents = ⟨.code (.answer (.done default)), []⟩ :: others

namespace Stands

/-- The host makes its stride, and nobody runs. -/
theorem host_strides (stands : Stands rounds workers order board ⟨st, host :: others⟩)
    (hostAt : HostAt rounds board left host) (workersAt : ∀ a ∈ others, WorkerAt a) (quiet : host.runs = []) :
    ∃ board' left' config, HostGoes rounds workers board left host st board' left' config ∧
      Stands rounds workers order board' ⟨config.state, config.agent :: others⟩ ∧
      Crew.Strides ⟨st, host :: others⟩ [] ⟨config.state, config.agent :: others⟩ := by
  obtain ⟨board', left', config, goes, stands'⟩ := stands.host_goes rfl hostAt workersAt
  have stride : Crew.Stride ⟨st, [] ++ host :: others⟩ (host.runs.getLast?.map Prod.fst)
      ⟨config.state, [] ++ config.agent :: others⟩ := .act goes.goes.stride
  rw [quiet] at stride stands'
  exact ⟨board', left', config, goes, by simpa using stands', stride.strides⟩

/-- The host makes all players. -/
theorem launches (stands : Stands rounds workers order board crew) :
    ∃ crew' board', Crew.Strides crew [] crew' ∧ Stands rounds workers order board' crew' ∧
      ∀ p, (board'.place p).Launched := by
  obtain ⟨left, host, others, all, hostAt, workersAt⟩ := stands.people
  obtain ⟨st, agents⟩ := crew
  obtain rfl : agents = host :: others := all
  induction left using Nat.strong_induction_on generalizing st board host with
  | _ left inductionHypothesis =>
    by_cases early : 3 < left
    · obtain ⟨board', left', config, goes, stands', strides⟩ :=
        stands.host_strides hostAt workersAt (hostAt.quiet_of_early early)
      have less : left' < left := goes.progress.resolve_right fun waits => early.not_ge (waits.1.trans (by decide))
      obtain ⟨crew', board'', strides', stands'', launched⟩ :=
        inductionHypothesis left' less _ goes.hostAt _ stands'
      exact ⟨crew', board'', strides.trans strides', stands'', launched⟩
    · exact ⟨_, board, .refl, stands, hostAt.launched (not_lt.1 early)⟩

/-- When all runs were made, the host comes to the end of its program. -/
theorem answers (stands : Stands rounds workers order board crew)
    (all : ∀ p, order.count (Shot.task p) = runsOf rounds) :
    ∃ crew', Crew.Strides crew [] crew' ∧ Answered crew' := by
  obtain ⟨left, host, others, here, hostAt, workersAt⟩ := stands.people
  obtain ⟨st, agents⟩ := crew
  obtain rfl : agents = host :: others := here
  induction left using Nat.strong_induction_on generalizing st board host with
  | _ left inductionHypothesis =>
    have complete : ∀ p, (board.place p).reply?.isSome = true := fun p =>
      (stands.fair.complete p).2 ((stands.turns p).symm.trans (all p))
    by_cases last : left = 0
    · exact ⟨_, .refl, others, by rw [hostAt.eq_answer last]⟩
    · obtain ⟨board', left', config, goes, stands', strides⟩ :=
        stands.host_strides hostAt workersAt (hostAt.quiet_of_complete complete (stands.runs_le (List.nil_append _).symm))
      have less : left' < left := goes.progress.resolve_right fun waits => last (waits.2 complete)
      obtain ⟨crew', strides', answered⟩ := inductionHypothesis left' less _ goes.hostAt _ stands'
      exact ⟨crew', strides.trans strides', answered⟩

variable (stands : Stands rounds workers order board crew) {p : Shot}
include stands

/-- Who is running can make its run. -/
theorem runs_next (member : a ∈ crew.agents) (runs : (p.task, .next) ∈ a.runs) :
    ∃ crew', Crew.Strides crew [p.task] crew' := by
  obtain ⟨before, after, here⟩ := List.append_of_mem member
  obtain ⟨board', config, goes, _⟩ := stands.agent_goes here
  have label : a.runs.getLast?.map Prod.fst = some p.task := by
    obtain ⟨left, host, others, all, hostAt, workersAt⟩ := stands.people
    rw [all] at member
    rcases List.mem_cons.1 member with rfl | member
    · cases hostAt with
      | driving => exact congrArg (some ∘ Prod.fst) (List.mem_singleton.1 runs).symm
      | cell | frame | spawn | start | await | waiting | stop | answer => cases runs
    · cases workersAt a member with
      | run q => exact congrArg (some ∘ Prod.fst) (List.mem_singleton.1 runs).symm
      | work | rest => cases runs
  obtain ⟨st, agents⟩ := crew
  obtain rfl : agents = before ++ a :: after := here
  have stride : Crew.Stride ⟨st, before ++ a :: after⟩ (a.runs.getLast?.map Prod.fst)
      ⟨config.state, before ++ config.agent :: after⟩ := .act goes.stride
  rw [label] at stride
  exact ⟨_, stride.strides⟩

/-- Workers join until somebody takes the player up. -/
theorem takes_up (ready : p ∈ board.queue) :
    ∃ crew' board', Crew.Strides crew [] crew' ∧ Stands rounds workers order board' crew' ∧
      ∃ a ∈ crew'.agents, (p.task, .next) ∈ a.runs := by
  generalize line : board.queue = queue at ready
  induction queue generalizing crew board with
  | nil => cases ready
  | cons q rest inductionHypothesis =>
    obtain ⟨st, agents⟩ := crew
    obtain ⟨left, host, others, all, hostAt, workersAt⟩ := stands.people
    obtain ⟨scheduler, found, runs⟩ := stands.shows.scheduler
    have works : scheduler.ready.isEmpty = false := by
      rw [← Bool.not_eq_true, Line.isEmpty_iff, runs.queue, line]
      simp
    obtain ⟨board', config, goes, grows, left', there⟩ := @Goes.take rounds workers board st
      ⟨.work Scenario.scheduler 0, []⟩ stands.shows stands.fair (.thread 0) .rest .rest rfl rfl rfl rfl
    rw [line] at left' there
    have stands' : Stands rounds workers (order ++ []) board' ⟨config.state, agents ++ [config.agent]⟩ :=
      (stands.join 0).goes rfl goes (fun t ran => by cases ran) ⟨left, host, others ++ [config.agent], by rw [all]; rfl, hostAt.grows grows,
        fun a member => ?_⟩
    · rw [List.append_nil] at stands'
      have act : Crew.Stride ⟨st, agents ++ ⟨.work Scenario.scheduler 0, []⟩ :: []⟩ none
          ⟨config.state, agents ++ config.agent :: []⟩ := .act goes.stride
      have strides : Crew.Strides ⟨st, agents⟩ [] ⟨config.state, agents ++ [config.agent]⟩ :=
        (Crew.Stride.join 0 found works).strides.trans act.strides
      rcases List.mem_cons.1 ready with rfl | waits
      · refine ⟨_, board', strides, stands', config.agent, by simp, ?_⟩
        rw [there]
        exact List.mem_singleton.2 rfl
      · obtain ⟨crew', board'', strides', stands'', taken⟩ := inductionHypothesis stands' left' waits
        exact ⟨crew', board'', strides.trans strides', stands'', taken⟩
    · rcases List.mem_append.1 member with member | member
      · exact workersAt a member
      · rw [List.mem_singleton.1 member, there]
        exact .run q

/-- Any player that has runs left can be the next to make one. -/
theorem next (left : order.count p.task < runsOf rounds) : ∃ crew', Crew.Strides crew [p.task] crew' := by
  obtain ⟨crew₁, board₁, strides₁, stands₁, launched⟩ := stands.launches
  have some_left : (board₁.place p).turns < runsOf rounds := stands₁.turns p ▸ left
  obtain ⟨entry, _ | _ | w | reply, turns, seated, early⟩ := launched p
  case spawned => exact absurd rfl early
  case ready =>
    have ready : p ∈ board₁.queue := (stands₁.fair.queue p).2 (by rw [seated]; rfl)
    obtain ⟨crew₂, board₂, strides₂, stands₂, a, member, runs⟩ := stands₁.takes_up ready
    obtain ⟨crew', strides'⟩ := stands₂.runs_next member runs
    exact ⟨crew', (strides₁.trans strides₂).trans strides'⟩
  case running =>
    have count := stands₁.running p
    rw [seated] at count
    have runs : (p.task, .next) ∈ crew₁.runs := List.count_pos_iff.1 (by rw [count]; exact Nat.one_pos)
    obtain ⟨a, member, runs⟩ := List.mem_flatMap.1 runs
    obtain ⟨crew', strides'⟩ := stands₁.runs_next member runs
    exact ⟨crew', strides₁.trans strides'⟩
  case done =>
    have all := (stands₁.fair.complete p).1 (by rw [seated]; rfl)
    exact absurd all some_left.ne

end Stands

end Scenario.Pingpong

end Tasking
