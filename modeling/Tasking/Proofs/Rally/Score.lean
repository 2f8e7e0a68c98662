import Tasking.Cli.Run
import Tasking.Proofs.Rally.Match
import Tasking.Proofs.Solo

/-! # The score of a rally

Whatever the order of the runs is, every shot is counted, and the command says so (`counts_every_shot`).  When the
scheduler has no workers the host runs both players itself, in turns; this is a rally like any other.
-/

namespace Tasking.Scenario.Pingpong

open State

variable {rounds workers n m : Nat} {order order' : List TaskId} {c c' c'' : Config Datum Nat} {st : State Datum Nat}
  {board : Board} {p : Shot} {rest : List Shot} {place : Place} {queue : List Shot} {settings : Settings} {parallelism : Nat}

/-! ## The host on its own -/

/-- A host on its own makes so many steps, and these tasks run meanwhile. -/
structure Plays (n : Nat) (order : List TaskId) (c c' : Config Datum Nat) : Prop where
  rolls : c.Rolls Pool.Solo n c'
  strides : Crew.Strides c.alone order c'.alone

namespace Plays

theorem refl (c : Config Datum Nat) : Plays 0 [] c c := ⟨.refl c, .refl⟩

theorem trans (first : Plays m order c c') (second : Plays n order' c' c'') : Plays (n + m) (order ++ order') c c'' :=
  ⟨first.rolls.trans second.rolls, first.strides.trans second.strides⟩

/-- The host makes a step, and nobody runs. -/
theorem step (solo : Pool.Solo c) (quiet : c.agent.runs = []) (step : c.step = .ok c') : Plays 1 [] c c' :=
  ⟨.step solo step (.refl _), .alone quiet step⟩

/-- The host runs a player. -/
theorem run {st' : State Datum Nat} {after : Focus Datum Nat} (lonely : Pool.Lonely st.schedulers)
    (rolls : Config.Rolls (Playing st.schedulers) n ⟨st, .trampoline p.task after, []⟩ ⟨st', after, []⟩)
    (stride : Config.Stride ⟨st, .trampoline p.task after, []⟩ ⟨st', after, []⟩) :
    Plays n [p.task] ⟨st, .trampoline p.task after, []⟩ ⟨st', after, []⟩ := by
  refine ⟨rolls.mono fun c playing => ⟨playing.able, playing.same.symm ▸ lonely⟩, ?_⟩
  have act : Crew.Stride (Config.alone ⟨st, .trampoline p.task after, []⟩) (some p.task) (Config.alone ⟨st', after, []⟩) :=
    @Crew.Stride.act Datum Nat _ st [] [] ⟨.trampoline p.task after, []⟩ ⟨st', after, []⟩ stride
  exact act.strides

end Plays

/-- The scheduler has no workers. -/
theorem Shows.lonely (shows : Shows rounds 0 board st) : Pool.Lonely st.schedulers := fun s scheduler found => by
  obtain rfl := shows.alone s (by rw [found]; rfl)
  obtain ⟨_, found', runs⟩ := shows.scheduler
  obtain rfl := Option.some.inj (found.symm.trans found')
  exact ⟨runs.workers, runs.bound⟩

theorem Board.set_set {place' : Place} {queue' : List Shot} :
    (board.set p place queue).set p place' queue' = board.set p place' queue' := by
  simp [Board.set]

/-- The host makes a player. -/
theorem plays_making (shows : Shows rounds 0 board st) (fair : Fair rounds board) (making : Making board p rest .absent) :
    ∃ st' entry, Plays 4 [] ⟨st, .code (upcoming rounds (p :: rest)), []⟩ ⟨st', .code (upcoming rounds rest), []⟩ ∧
      Shows rounds 0 (board.set p (.seated ⟨entry, .ready, 0⟩) (board.queue ++ [p])) st' ∧
      Fair rounds (board.set p (.seated ⟨entry, .ready, 0⟩) (board.queue ++ [p])) := by
  obtain ⟨number, shows₁⟩ := shows.newCell making.here making.before
  have shows₂ := shows₁.newFrame Board.place_set_self
  have making₂ := making.set (.framed st.frames.next) board.queue
  rw [Board.set_set] at shows₂
  obtain ⟨st₃, spawned, shows₃⟩ := shows₂.spawn making₂.here making₂.before making₂.going
  rw [Board.set_set] at shows₃
  obtain ⟨st₄, started, shows₄⟩ := shows₃.start Board.place_set_self
  rw [Board.set_set] at shows₄
  have absent : p ∉ board.queue := fair.notMem (by rw [making.here]; rfl)
  refine ⟨st₄, st.frames.next, ?_, shows₄, fair.keep (by rw [making.here]; rfl) (by rw [making.here]; rfl) rfl ?_
    (by simp [Place.isReady]) fun q other => by simp [other]⟩
  · have cell : Plays 1 [] ⟨st, .code (upcoming rounds (p :: rest)), []⟩ ⟨{ st with cells := st.cells.add 0 },
        .code (.newFrame "player" (player actor p rounds p.cell) (launching rounds rest)), []⟩ :=
      .step ⟨rfl, shows.lonely⟩ rfl (by rw [← number]; rfl)
    have frame : Plays 1 [] ⟨{ st with cells := st.cells.add 0 },
        .code (.newFrame "player" (player actor p rounds p.cell) (launching rounds rest)), []⟩
        ⟨_, .code (launching rounds rest st.frames.next), []⟩ := .step ⟨rfl, shows₁.lonely⟩ rfl rfl
    have spawn : Plays 1 [] ⟨_, .code (launching rounds rest st.frames.next), []⟩
        ⟨st₃, .code (.ask (.start p.task) fun _ => upcoming rounds rest), []⟩ :=
      .step ⟨rfl, shows₂.lonely⟩ rfl (bind_ok.2 ⟨_, spawned, rfl⟩)
    have start : Plays 1 [] ⟨st₃, .code (.ask (.start p.task) fun _ => upcoming rounds rest), []⟩
        ⟨st₄, .code (upcoming rounds rest), []⟩ :=
      .step ⟨rfl, shows₃.lonely⟩ rfl (bind_ok.2 ⟨_, bind_ok.2 ⟨_, started, rfl⟩, rfl⟩)
    exact ((cell.trans frame).trans spawn).trans start
  · rw [List.nodup_append_comm]
    exact List.nodup_cons.2 ⟨absent, fair.nodup⟩

/-- The host runs the oldest ready player while it waits. -/
theorem standby_step (shows : Shows rounds 0 board st) (line : board.queue = p :: rest) :
    Pool.Solo ⟨st, standby, []⟩ ∧ Config.step ⟨st, standby, []⟩ =
      (⟨st, standby, []⟩ : Config Datum Nat).runReady Scenario.scheduler .embedded standby standby := by
  obtain ⟨scheduler, known, runs⟩ := shows.scheduler
  have works : scheduler.ready.isEmpty = false := by
    rw [← Bool.not_eq_true, Line.isEmpty_iff, runs.queue, line]
    simp
  have waits : Config.holds st (.quiescent Scenario.scheduler) = false := by
    simp [Config.holds, known, runs.workers, works]
  have drives : Config.driven? st (.quiescent Scenario.scheduler) = some Scenario.scheduler := by
    simp [Config.driven?, known, runs.workers, works]
  refine ⟨⟨?_, shows.lonely⟩, ?_⟩
  · simp [Pool.status, Config.answer?, standby, Config.mustWait, waits, drives]
  · simp [Config.step, standby, Config.keepWaiting, waits, drives]

/-- The host runs a player, which then is ready again or has finished. -/
theorem plays_turn {entry : FrameId} {turns : Nat} (shows : Shows rounds 0 board st) (fair : Fair rounds board)
    (line : board.queue = p :: rest) (ready : board.place p = .seated ⟨entry, .ready, turns⟩) :
    ∃ k ≤ 22, ∃ st' progress queue, Plays k [p.task] ⟨st, standby, []⟩ ⟨st', standby, []⟩ ∧
      Shows rounds 0 (board.set p (.seated ⟨entry, progress, turns + 1⟩) queue) st' ∧
      Fair rounds (board.set p (.seated ⟨entry, progress, turns + 1⟩) queue) ∧
      (turns + 1 < rounds → progress = .ready ∧ queue = rest ++ [p]) ∧ (turns + 1 = runsOf rounds → queue = rest) := by
  obtain ⟨solo, step⟩ := standby_step shows line
  obtain ⟨st₁, taken, takes⟩ :=
    @Goes.take_first rounds 0 board st p rest ⟨standby, []⟩ shows fair entry turns .embedded standby standby rfl rfl step
      line ready
  have take : Plays 1 [] ⟨st, standby, []⟩ ⟨st₁, .trampoline p.task standby, []⟩ := .step solo rfl taken
  by_cases further : turns + 1 < rounds
  · obtain ⟨st', rolls, goes⟩ := Goes.run_on takes.shows takes.fair standby rfl Board.place_set_self further
    have shows' := goes.shows
    have fair' := goes.fair
    rw [Board.set_set] at shows' fair'
    refine ⟨22, le_refl _, st', .ready, rest ++ [p], take.trans (.run takes.shows.lonely rolls goes.stride), shows', fair',
      fun _ => ⟨rfl, rfl⟩, fun last => ?_⟩
    rw [runsOf] at last
    omega
  · have few := fair.turns p
    have more : (board.place p).turns ≠ runsOf rounds := fun all => by
      have complete := (fair.complete p).2 all
      rw [ready] at complete
      cases complete
    rw [ready] at few more
    have last : turns + 1 = runsOf rounds := by
      simp only [Place.turns, runsOf] at few more ⊢
      omega
    obtain ⟨k, st', reply, small, rolls, goes⟩ := Goes.run_last takes.shows takes.fair standby rfl Board.place_set_self last
    have shows' := goes.shows
    have fair' := goes.fair
    rw [Board.set_set] at shows' fair'
    exact ⟨k + 1, by omega, st', .done reply, rest, take.trans (.run takes.shows.lonely rolls goes.stride), shows', fair',
      fun further' => absurd further' further, fun _ => rfl⟩

/-- Both players have made so many runs and are ready, the first one before the second. -/
structure Level (turns : Nat) (board : Board) : Prop where
  line : board.queue = [.ping, .pong]
  ready : ∀ p, ∃ entry, board.place p = .seated ⟨entry, .ready, turns⟩

/-- Who runs in what order when there are no workers: the players take turns. -/
def turnOrder (runs : Nat) : List TaskId := (List.replicate runs [Shot.ping.task, Shot.pong.task]).flatten

/-- Both players make a run. -/
theorem plays_round {turns : Nat} (shows : Shows rounds 0 board st) (fair : Fair rounds board) (level : Level turns board) :
    ∃ k ≤ 44, ∃ st' board', Plays k [Shot.ping.task, Shot.pong.task] ⟨st, standby, []⟩ ⟨st', standby, []⟩ ∧
      Shows rounds 0 board' st' ∧ Fair rounds board' ∧ (∀ p, (board'.place p).turns = turns + 1) ∧
      (turns + 1 < rounds → Level (turns + 1) board') := by
  obtain ⟨entry, first⟩ := level.ready .ping
  obtain ⟨entry', second⟩ := level.ready .pong
  obtain ⟨k, few, st₁, progress, queue, plays, shows₁, fair₁, on, last⟩ := plays_turn shows fair level.line first
  let board₁ := board.set .ping (.seated ⟨entry, progress, turns + 1⟩) queue
  have second' : board₁.place .pong = .seated ⟨entry', .ready, turns⟩ := by
    rw [Board.place_set_ne (by decide), second]
  have bound : turns + 1 ≤ runsOf rounds := by
    have most := fair₁.turns .ping
    rwa [Board.place_set_self] at most
  obtain ⟨rest, line⟩ : ∃ rest, queue = .pong :: rest := by
    by_cases further : turns + 1 < rounds
    · exact ⟨_, (on further).2⟩
    · refine ⟨[], last ?_⟩
      rw [runsOf] at bound ⊢
      omega
  obtain ⟨k', few', st₂, progress', queue', plays', shows₂, fair₂, on', _⟩ := plays_turn shows₁ fair₁ line second'
  refine ⟨k' + k, by omega, st₂, _, plays.trans plays', shows₂, fair₂, fun p => ?_, fun further => ?_⟩
  · cases p with
    | ping => rw [Board.place_set_ne (by decide), Board.place_set_self]; rfl
    | pong => rw [Board.place_set_self]; rfl
  · obtain ⟨rfl, rfl⟩ := on further
    obtain ⟨rfl, rfl⟩ := on' further
    refine ⟨by cases line; rfl, fun p => ?_⟩
    cases p with
    | ping => exact ⟨entry, by rw [Board.place_set_ne (by decide), Board.place_set_self]⟩
    | pong => exact ⟨entry', Board.place_set_self⟩

/-- The players make all of their runs. -/
theorem plays_rounds {turns left : Nat} (shows : Shows rounds 0 board st) (fair : Fair rounds board)
    (level : Level turns board) (some_left : turns + (left + 1) = runsOf rounds) :
    ∃ k ≤ 44 * (left + 1), ∃ st' board', Plays k (turnOrder (left + 1)) ⟨st, standby, []⟩ ⟨st', standby, []⟩ ∧
      Shows rounds 0 board' st' ∧ Fair rounds board' ∧ ∀ p, (board'.place p).turns = runsOf rounds := by
  obtain ⟨k, few, st₁, board₁, plays, shows₁, fair₁, played, next⟩ := plays_round shows fair level
  induction left generalizing turns st board k st₁ board₁ with
  | zero => exact ⟨k, few, st₁, board₁, plays, shows₁, fair₁, fun p => (played p).trans some_left⟩
  | succ left inductionHypothesis =>
    have further : turns + 1 < rounds := by
      rw [runsOf] at some_left
      omega
    obtain ⟨k₂, few₂, st₂, board₂, plays₂, shows₂, fair₂, played₂, next₂⟩ := plays_round shows₁ fair₁ (next further)
    obtain ⟨k', few', st', board', plays', all⟩ := inductionHypothesis shows₁ fair₁ (next further) (by omega) k₂ few₂ st₂
      board₂ plays₂ shows₂ fair₂ played₂ next₂
    exact ⟨k' + k, by omega, st', board', plays.trans plays', all⟩

/-- The host stops the scheduler when all runs were made. -/
theorem plays_ending (shows : Shows rounds 0 board st) (fair : Fair rounds board)
    (all : ∀ p, (board.place p).turns = runsOf rounds) :
    ∃ st', Plays 2 [] ⟨st, standby, []⟩ ⟨st', .code (.answer (.done default)), []⟩ := by
  have complete : ∀ p, (board.place p).reply?.isSome = true := fun p => (fair.complete p).2 (all p)
  have launched : ∀ p, (board.place p).Launched := (HostAt.stop complete : HostAt rounds board 1 _).launched (by decide)
  have holds := (holds_iff shows fair launched).2 complete
  obtain ⟨st', stopped, shows'⟩ := shows.stop (fair.queue_eq_nil complete)
  have able : Pool.status (⟨st, standby, []⟩ : Config Datum Nat) = .busy := by
    simp [Pool.status, Config.answer?, standby, Config.mustWait, holds]
  have wait : Plays 1 [] ⟨st, standby, []⟩ ⟨st, .code stopping, []⟩ := .step ⟨able, shows.lonely⟩ rfl (if_pos holds)
  have stop : Plays 1 [] ⟨st, .code stopping, []⟩ ⟨st', .code (.answer (.done default)), []⟩ :=
    .step ⟨rfl, shows.lonely⟩ rfl (bind_ok.2 ⟨_, bind_ok.2 ⟨_, stopped, rfl⟩, rfl⟩)
  exact ⟨st', wait.trans stop⟩

/-- At the beginning the host is on its own if it asks for no workers. -/
theorem Dawn.solo {crew : Crew Datum Nat} {a : Agent Datum Nat} (dawn : Dawn rounds settings parallelism n crew)
    (manual : settings.workers = some 0) (alone : crew.agents = [a]) : Pool.Solo (a.config crew.state) := by
  have nobody : ∀ registries thread, Pool.Lonely (dawnState parallelism registries .empty thread).schedulers :=
    fun _ _ s scheduler found => by simp [dawnState] at found
  cases dawn with
  | registry thread =>
    obtain rfl := List.singleton_inj.1 alone
    exact ⟨by rw [program_eq]; rfl, nobody _ thread⟩
  | scheduler thread =>
    obtain rfl := List.singleton_inj.1 alone
    exact ⟨rfl, nobody _ thread⟩
  | actor thread =>
    obtain rfl := List.singleton_inj.1 alone
    refine ⟨rfl, fun s scheduler found => ?_⟩
    simp only [Agent.config, dawnState, Table.get?_add_eq, Table.get?_empty] at found
    split at found
    · obtain rfl := Option.some.inj found
      exact ⟨by simp [newScheduler, Scheduler.new, Settings.resolvedWorkers, manual], rfl⟩
    · cases found

/-- The host creates the registry, the scheduler and the actor. -/
theorem plays_dawn (manual : settings.workers = some 0) (accepted : settings.obstacle? parallelism = none)
    (dawn : Dawn rounds settings parallelism n c.alone) :
    ∃ k ≤ n + 1, ∃ st, Plays k [] c ⟨st, .code (upcoming rounds [.ping, .pong]), []⟩ ∧ Shows rounds 0 blank st := by
  have workers : settings.resolvedWorkers parallelism = 0 := by rw [Settings.resolvedWorkers, manual]; rfl
  induction n using Nat.strong_induction_on generalizing c with
  | _ n inductionHypothesis =>
    obtain ⟨host, config, alone, quiet, step, next⟩ := dawn.host_goes accepted
    obtain rfl : c.agent = host := List.singleton_inj.1 alone
    have first : Plays 1 [] c config := .step (dawn.solo manual rfl) quiet step
    rcases next with ⟨m, less, dawn'⟩ | ⟨there, stands⟩
    · obtain ⟨k, few, st, plays, shows⟩ := inductionHypothesis m less dawn'
      exact ⟨k + 1, by omega, st, first.trans plays, shows⟩
    · have shows := stands.shows
      rw [workers] at shows
      obtain ⟨st, focus, stack⟩ := config
      obtain ⟨rfl, rfl⟩ := Agent.mk.inj there
      exact ⟨1, by omega, st, first, shows⟩

/-- A host on its own runs both players in turns and comes to its answer in time. -/
theorem plays_rally (manual : settings.workers = some 0) (accepted : settings.obstacle? parallelism = none) :
    ∃ k st, 2 * k < stepLimit rounds ∧
      Plays k (turnOrder (runsOf rounds)) (.start (.initial parallelism) (program settings (work rounds)))
        ⟨st, .code (.answer (.done default)), []⟩ := by
  obtain ⟨k₀, few₀, st₀, dawn, shows₀⟩ :=
    plays_dawn (c := .start (.initial parallelism) (program settings (work rounds))) manual accepted (.registry .host)
  have making : Making blank .ping [.pong] .absent :=
    ⟨List.suffix_refl _, rfl, fun _ _ => rfl, fun q first second => by cases q <;> simp at first second, rfl⟩
  obtain ⟨st₁, entry, ping, shows₁, fair₁⟩ := plays_making shows₀ fair_blank making
  let board₁ := blank.set .ping (.seated ⟨entry, .ready, 0⟩) [.ping]
  have making₁ : Making board₁ .pong [] .absent := by
    refine ⟨List.suffix_cons _ _, Board.place_set_ne (by decide), by simp, fun q other _ => ?_, rfl⟩
    cases q with
    | ping => exact ⟨_, _, _, Board.place_set_self, by simp⟩
    | pong => exact absurd rfl other
  obtain ⟨st₂, entry', pong, shows₂, fair₂⟩ := plays_making shows₁ fair₁ making₁
  let board₂ := board₁.set .pong (.seated ⟨entry', .ready, 0⟩) [.ping, .pong]
  have level : Level 0 board₂ := by
    refine ⟨rfl, fun p => ?_⟩
    cases p with
    | ping => exact ⟨entry, (Board.place_set_ne (by decide)).trans Board.place_set_self⟩
    | pong => exact ⟨entry', Board.place_set_self⟩
  have waits : Plays 1 [] ⟨st₂, .code (upcoming rounds []), []⟩ ⟨st₂, standby, []⟩ := .step ⟨rfl, shows₂.lonely⟩ rfl rfl
  obtain ⟨left, some_left⟩ : ∃ left, runsOf rounds = left + 1 := ⟨runsOf rounds - 1, by rw [runsOf]; omega⟩
  obtain ⟨k₃, few₃, st₃, board₃, rally, shows₃, fair₃, all⟩ :=
    plays_rounds shows₂ fair₂ level (show 0 + (left + 1) = runsOf rounds by rw [Nat.zero_add, some_left])
  obtain ⟨st', ending⟩ := plays_ending shows₃ fair₃ all
  have whole := ((((dawn.trans ping).trans pong).trans waits).trans rally).trans ending
  rw [← some_left] at whole
  refine ⟨_, st', ?_, by simpa using whole⟩
  rw [runsOf] at some_left
  rw [stepLimit]
  omega

/-! ## All orders -/

/-- What holds however the runs were interleaved so far.  Whoever is to do something can do it, and meets no fault; no
counter reaches what fits into a word; and players make their runs, until everything is counted and reported. -/
structure Outlook (rounds : Nat) (order : List TaskId) (crew : Crew Datum Nat) : Prop where
  players : ∀ t ∈ order, ∃ p, t = Shot.task p
  able : ∀ a ∈ crew.agents, ∃ config, (a.config crew.state).Stride config
  few : ∀ p, order.count (Shot.task p) ≤ runsOf rounds
  next : ∀ p, order.count (Shot.task p) < runsOf rounds → ∃ crew', Crew.Strides crew [Shot.task p] crew'
  sent : ∀ p, messages p crew.state.frames = min (order.count (Shot.task p)) rounds
  fits : (∀ p k, crew.state.cells.get? (Shot.cell p) = some k → k < 2 ^ 64) ∧
    ∀ x, crew.state.exclusives.get? score = some x → x.payload.toRally.total < 2 ^ 64
  ends : (∀ p, order.count (Shot.task p) = runsOf rounds) → ∃ crew', Crew.Strides crew [] crew' ∧ Answered crew'
  counted : (∀ p, order.count (Shot.task p) = runsOf rounds) → Tallied rounds crew.state
  answered : Answered crew → ∀ p, order.count (Shot.task p) = runsOf rounds

theorem runsOf_pos (rounds : Nat) : 0 < runsOf rounds := lt_of_lt_of_le Nat.one_pos (le_max_right _ _)

/-- The host is at the beginning. -/
theorem Dawn.outlook {crew : Crew Datum Nat} (dawn : Dawn rounds settings parallelism n crew)
    (accepted : settings.obstacle? parallelism = none) : Outlook rounds [] crew where
  players := by simp
  able a member := by
    obtain ⟨host, config, alone, quiet, step, _⟩ := dawn.host_goes accepted
    rw [alone, List.mem_singleton] at member
    exact ⟨config, member ▸ .step (not_not_intro quiet) step⟩
  few _ := Nat.zero_le _
  next p _ := by
    obtain ⟨crew', board, strides, stands⟩ := dawn.onward accepted
    obtain ⟨crew'', strides'⟩ := stands.next (p := p) (runsOf_pos rounds)
    exact ⟨crew'', strides.trans strides'⟩
  sent p := by cases dawn <;> simp [messages, dawnState, State.initial, Table.empty]
  fits := by cases dawn <;> exact ⟨fun p k found => by simp [dawnState, State.initial] at found,
    fun x found => by simp [dawnState, State.initial] at found⟩
  ends all := absurd (all .ping) (runsOf_pos rounds).ne
  counted all := absurd (all .ping) (runsOf_pos rounds).ne
  answered done := by
    obtain ⟨others, same⟩ := done
    exfalso
    cases dawn with
    | registry =>
      rw [program_eq] at same
      cases same
    | scheduler | actor => cases same

/-- The crew has what some board says. -/
theorem Stands.outlook {crew : Crew Datum Nat} (stands : Stands rounds workers order board crew) (small : rounds < 2 ^ 62) :
    Outlook rounds order crew where
  players := stands.players
  able a member := by
    obtain ⟨before, after, here⟩ := List.append_of_mem member
    obtain ⟨_, config, goes, _⟩ := stands.agent_goes here
    exact ⟨config, goes.stride⟩
  few p := stands.turns p ▸ stands.fair.turns p
  next _ left := stands.next left
  sent p := by rw [stands.shows.sent, Board.shots, stands.turns]
  fits := by
    have shots : ∀ p, board.shots rounds p ≤ rounds := fun p => min_le_right _ _
    refine ⟨fun p k found => ?_, fun x found => ?_⟩
    · rw [stands.shows.cell] at found
      have few := stands.fair.turns p
      have most : k ≤ 2 * runsOf rounds := by
        revert found few
        cases board.place p with
        | absent => rintro ⟨⟩
        | counting | framed => rintro ⟨⟩ _; exact Nat.zero_le _
        | seated seat =>
          rintro ⟨⟩ few
          simp only [Place.turns] at few
          rw [Seat.resumes]
          split <;> omega
      rw [runsOf] at most
      omega
    · obtain rfl := Option.some.inj (found.symm.trans stands.shows.counted)
      have ping := shots .ping
      have pong := shots .pong
      simp only [Datum.toRally, Board.rally, Rally.total]
      omega
  ends := stands.answers
  counted all := stands.fair.tallied stands.shows fun p => (stands.turns p).symm.trans (all p)
  answered done p := by
    obtain ⟨left, host, others, here, hostAt, _⟩ := stands.people
    obtain ⟨others', same⟩ := done
    obtain ⟨rfl, _⟩ := List.cons_eq_cons.1 (here.symm.trans same)
    rw [stands.turns, ← stands.fair.complete]
    cases hostAt with
    | answer complete => exact complete p

/-- However the runs of the players are interleaved, every shot is counted and reported.  When the scheduler has no
workers, they take turns. -/
theorem counts_every_shot (rounds : Nat) (settings : Settings) (parallelism : Nat) (small : rounds < 2 ^ 62)
    (accepted : settings.obstacle? parallelism = none) :
    (∀ order crew, Crew.Strides (kickOff rounds settings parallelism) order crew → Outlook rounds order crew) ∧
    (∀ st, Tallied rounds st → ∀ d load, Cli.rallyReport d ⟨rounds, outcomes st, load⟩ = fullScore d rounds load) ∧
    (settings.workers = some 0 → ∃ crew, Crew.Strides (kickOff rounds settings parallelism) (turnOrder (runsOf rounds)) crew ∧
      Answered crew ∧ Tallied rounds crew.state ∧
      ∀ d, (⟨.pingpong, rounds, settings⟩ : Cli.Plan).report d parallelism = fullScore d rounds (.ofState crew.state)) := by
  have outlook : ∀ order crew, Crew.Strides (kickOff rounds settings parallelism) order crew → Outlook rounds order crew :=
    fun order crew strides => by
      rcases stands_of_strides accepted strides with ⟨rfl, n, dawn⟩ | ⟨board, stands⟩
      · exact dawn.outlook accepted
      · exact stands.outlook small
  refine ⟨outlook, fun st tallied d load => tallied.report d load, fun manual => ?_⟩
  obtain ⟨k, st, enough, plays⟩ := @plays_rally rounds settings parallelism manual accepted
  have answered : Answered (Config.alone ⟨st, .code (.answer (.done default)), []⟩) := ⟨[], rfl⟩
  have whole := outlook _ _ plays.strides
  have tallied := whole.counted (whole.answered answered)
  refine ⟨_, plays.strides, answered, tallied, fun d => ?_⟩
  have final := finalState_eq plays.rolls rfl enough
  rw [Cli.Plan.report, run, final]
  exact tallied.report d _

theorem counts_every_shot_twice : 2 < 2 ^ 62 ∧ Settings.manual.obstacle? 1 = none ∧
    ∃ crew, Crew.Strides (kickOff 2 .manual 1) [⟨1⟩, ⟨2⟩, ⟨1⟩, ⟨2⟩] crew ∧ Answered crew ∧ Tallied 2 crew.state ∧
      ∀ d, (⟨.pingpong, 2, .manual⟩ : Cli.Plan).report d 1 = fullScore d 2 (.ofState crew.state) :=
  ⟨by decide, by decide, (counts_every_shot 2 .manual 1 (by decide) (by decide)).2.2 rfl⟩

end Tasking.Scenario.Pingpong
