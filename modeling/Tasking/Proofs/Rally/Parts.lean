import Tasking.Proofs.Rally.Tally

/-! # The parts in a rally

The host makes one player after the other, waits until the scheduler is quiescent, and stops it; meanwhile it runs
players itself if the scheduler has no workers.  A worker takes a ready player up and runs it.  `HostAt` and
`WorkerAt` say where they can be, and there is one lemma for each stride that they make from there.
-/

namespace Tasking

namespace Config

variable {V C : Type}

/-- A run that is in progress is made in one stride. -/
theorem Stride.of_rolls [Inhabited V] {c c' : Config V C} {n : Nat} (busy : c.Busy) (rolls : c.Rolls Busy n c') (complete : ¬ c'.Busy) :
    c.Stride c' := by
  cases n with
  | zero =>
    cases rolls
    exact absurd busy complete
  | succ n => exact .run rolls complete

/-- The oldest ready task is taken up. -/
theorem runReady_eq {c : Config V C} {s : SchedulerId} {t : TaskId} {w : Worker} {st st' : State V C}
    (taken : c.state.takeReady s = .ok (some t, st)) (begins : st.beginRun t w = .ok st') (after otherwise : Focus V C) :
    c.runReady s w after otherwise = .ok ⟨st', .trampoline t after, c.stack⟩ :=
  bind_ok.2 ⟨_, taken, bind_ok.2 ⟨_, bind_ok.2 ⟨_, begins, rfl⟩, rfl⟩⟩

/-- Nobody is ready. -/
theorem runReady_none {c : Config V C} {s : SchedulerId} {st : State V C}
    (nobody : c.state.takeReady s = .ok (none, st)) (w : Worker) (after otherwise : Focus V C) :
    c.runReady s w after otherwise = .ok ⟨st, otherwise, c.stack⟩ :=
  bind_ok.2 ⟨_, nobody, rfl⟩

end Config

namespace Scenario.Pingpong

open State

/-! ## What the host does -/

/-- The end of the program of the host. -/
def stopping : Program Datum Nat := .ask (.stop Scenario.scheduler) fun _ => .answer (.done default)

/-- The program of the host from where these players are still to be made. -/
def upcoming (rounds : Nat) : List Shot → Program Datum Nat
  | [] => .await (.quiescent Scenario.scheduler) none stopping
  | p :: rest => startPlayer Scenario.scheduler actor p rounds fun _ => upcoming rounds rest

/-- The program of the host from where a player has its frame. -/
def launching (rounds : Nat) (rest : List Shot) (entry : FrameId) : Program Datum Nat :=
  (Code.run Scenario.scheduler entry : Piece _) fun _ => upcoming rounds rest

/-- The host waits until the scheduler is quiescent. -/
def standby : Focus Datum Nat := .waiting (.quiescent Scenario.scheduler) none stopping

/-! ## Where the host and the workers are -/

/-- The task of the player was made ready at some time. -/
def Place.Launched (place : Place) : Prop :=
  ∃ entry progress turns, place = .seated ⟨entry, progress, turns⟩ ∧ progress ≠ .spawned

/-- Whether the task of the player is running, as a count. -/
def Place.running : Place → Nat
  | .seated ⟨_, .running _, _⟩ => 1
  | _ => 0

/-- The host is making a player, and makes the rest after it. -/
structure Making (board : Board) (p : Shot) (rest : List Shot) (place : Place) : Prop where
  order : p :: rest <:+ [.ping, .pong]
  here : board.place p = place
  absent : ∀ q ∈ rest, board.place q = .absent
  launched : ∀ q, q ≠ p → q ∉ rest → (board.place q).Launched
  going : board.isShutDown = false

/-- Where the host is, and how many strides it has to make until its program answers, but for those in which it waits
or runs a player. -/
inductive HostAt (rounds : Nat) (board : Board) : Nat → Agent Datum Nat → Prop where
  | cell {p : Shot} {rest : List Shot} (making : Making board p rest .absent) :
      HostAt rounds board (4 * rest.length + 7) ⟨.code (upcoming rounds (p :: rest)), []⟩
  | frame {p : Shot} {rest : List Shot} (making : Making board p rest .counting) :
      HostAt rounds board (4 * rest.length + 6)
        ⟨.code (.newFrame "player" (player actor p rounds p.cell) (launching rounds rest)), []⟩
  | spawn {p : Shot} {rest : List Shot} {entry : FrameId} (making : Making board p rest (.framed entry)) :
      HostAt rounds board (4 * rest.length + 5) ⟨.code (launching rounds rest entry), []⟩
  | start {p : Shot} {rest : List Shot} {entry : FrameId} (making : Making board p rest (.seated ⟨entry, .spawned, 0⟩)) :
      HostAt rounds board (4 * rest.length + 4) ⟨.code (.ask (.start p.task) fun _ => upcoming rounds rest), []⟩
  | await (all : ∀ p, (board.place p).Launched) : HostAt rounds board 3 ⟨.code (upcoming rounds []), []⟩
  | waiting (all : ∀ p, (board.place p).Launched) : HostAt rounds board 2 ⟨standby, []⟩
  | driving {p : Shot} (all : ∀ p, (board.place p).Launched) : HostAt rounds board 2 ⟨.trampoline p.task standby, []⟩
  | stop (complete : ∀ p, (board.place p).reply?.isSome = true) : HostAt rounds board 1 ⟨.code stopping, []⟩
  | answer (complete : ∀ p, (board.place p).reply?.isSome = true) : HostAt rounds board 0 ⟨.code (.answer (.done default)), []⟩

/-- Where a worker is. -/
inductive WorkerAt : Agent Datum Nat → Prop where
  | work (index : Nat) : WorkerAt ⟨.work Scenario.scheduler index, []⟩
  | run (p : Shot) : WorkerAt ⟨.trampoline p.task .rest, []⟩
  | rest : WorkerAt ⟨.rest, []⟩

/-- Nothing changed but what launched players did. -/
structure Board.Grows (board board' : Board) : Prop where
  places : ∀ p, board'.place p = board.place p ∨ (board.place p).Launched ∧ (board'.place p).Launched
  complete : ∀ p, (board.place p).reply?.isSome = true → (board'.place p).reply?.isSome = true
  going : board'.isShutDown = board.isShutDown

/-- How often tasks ran and which are running, before and after a stride of a thread. -/
structure Tracks (board : Board) (a : Agent Datum Nat) (label : Option TaskId) (board' : Board) (a' : Agent Datum Nat) :
    Prop where
  turns : ∀ p, (board'.place p).turns = (board.place p).turns + label.toList.count p.task
  running : ∀ p, (board'.place p).running + a.runs.count (p.task, .next) =
    (board.place p).running + a'.runs.count (p.task, .next)

variable {rounds workers : Nat} {board board' : Board} {st : State Datum Nat} {p : Shot} {rest : List Shot}
  {place : Place} {queue : List Shot} {a a' : Agent Datum Nat}

/-! ## What follows from the places -/

namespace Making

variable (making : Making board p rest place)
include making

theorem notMem : p ∉ rest := by
  have distinct : (p :: rest).Nodup := making.order.sublist.nodup (by decide)
  exact (List.nodup_cons.1 distinct).1

/-- The first player has its task before the second one is made. -/
theorem before (second : p = .pong) : ∃ seat, board.place .ping = .seated seat := by
  subst second
  have order := making.order
  have last : rest = [] := by
    rw [List.suffix_cons_iff, List.suffix_cons_iff] at order
    simpa using order
  obtain ⟨entry, progress, turns, seated, _⟩ := making.launched .ping (by decide) (by simp [last])
  exact ⟨_, seated⟩

theorem set (place' : Place) (queue : List Shot) : Making (board.set p place' queue) p rest place' where
  order := making.order
  here := Board.place_set_self
  absent q member := by
    have other : q ≠ p := fun same => making.notMem (same ▸ member)
    rw [Board.place_set_ne other]
    exact making.absent q member
  launched q other notMem := by
    rw [Board.place_set_ne other]
    exact making.launched q other notMem
  going := making.going

/-- Other players play meanwhile. -/
theorem grows (early : ¬ place.Launched) (grows : board.Grows board') : Making board' p rest place where
  order := making.order
  here := by
    rcases grows.places p with same | ⟨launched, _⟩
    · rw [same, making.here]
    · exact absurd (making.here ▸ launched) early
  absent q member := by
    rcases grows.places q with same | ⟨launched, _⟩
    · rw [same, making.absent q member]
    · rw [making.absent q member] at launched
      obtain ⟨_, _, _, seated, _⟩ := launched
      cases seated
  launched q other notMem := by
    rcases grows.places q with same | ⟨_, launched⟩
    · rw [same]
      exact making.launched q other notMem
    · exact launched
  going := grows.going.trans making.going

/-- The player was started, and the host goes on with the next one. -/
theorem started (rounds : Nat) (entry : FrameId) (queue : List Shot) :
    ∃ left', HostAt rounds (board.set p (.seated ⟨entry, .ready, 0⟩) queue) left' ⟨.code (upcoming rounds rest), []⟩ ∧
      left' < 4 * rest.length + 4 := by
  let board' := board.set p (.seated ⟨entry, .ready, 0⟩) queue
  have launched : ∀ q, q ∉ rest → (board'.place q).Launched := fun q notMem => by
    by_cases same : q = p
    · rw [same, Board.place_set_self]
      exact ⟨_, _, _, rfl, by simp⟩
    · rw [Board.place_set_ne same]
      exact making.launched q same notMem
  have absent : ∀ q ∈ rest, board'.place q = .absent := fun q member => by
    have other : q ≠ p := fun same => making.notMem (same ▸ member)
    rw [Board.place_set_ne other]
    exact making.absent q member
  cases rest with
  | nil => exact ⟨3, .await fun q => launched q List.not_mem_nil, by decide⟩
  | cons next rest =>
    refine ⟨_, .cell ⟨(List.suffix_cons p _).trans making.order, absent next (by simp), fun q member => ?_,
      fun q other notMem => launched q (by simp [other, notMem]), making.going⟩, by simp only [List.length_cons]; omega⟩
    exact absent q (by simp [member])

end Making

theorem Place.Launched.replied (launched : place.Launched) (rests : place.runnable ≤ 0) : place.reply?.isSome = true := by
  obtain ⟨entry, _ | _ | _ | reply, turns, rfl, early⟩ := launched
  case spawned => exact absurd rfl early
  case ready | running => exact absurd (show (1 : Int) ≤ 0 from rests) (by decide)
  case done => rfl

/-- A running player is in the middle of a run. -/
theorem Place.exists_of_running (running : 0 < place.running) :
    ∃ entry w turns, place = .seated ⟨entry, .running w, turns⟩ := by
  unfold Place.running at running
  split at running
  · exact ⟨_, _, _, rfl⟩
  · exact absurd running (lt_irrefl 0)

theorem Board.Grows.launched (grows : board.Grows board') (all : ∀ p, (board.place p).Launched) (p : Shot) :
    (board'.place p).Launched := by
  rcases grows.places p with same | ⟨_, launched⟩
  · exact same ▸ all p
  · exact launched

/-- What players do meanwhile does not move the host. -/
theorem HostAt.grows {left : Nat} (hostAt : HostAt rounds board left a) (grows : board.Grows board') :
    HostAt rounds board' left a := by
  cases hostAt with
  | cell making => exact .cell (making.grows (by rintro ⟨_, _, _, ⟨⟩, _⟩) grows)
  | frame making => exact .frame (making.grows (by rintro ⟨_, _, _, ⟨⟩, _⟩) grows)
  | spawn making => exact .spawn (making.grows (by rintro ⟨_, _, _, ⟨⟩, _⟩) grows)
  | start making => exact .start (making.grows (by rintro ⟨_, _, _, ⟨⟩, early⟩; exact early rfl) grows)
  | await all => exact .await (grows.launched all)
  | waiting all => exact .waiting (grows.launched all)
  | driving all => exact .driving (grows.launched all)
  | stop complete => exact .stop fun p => grows.complete p (complete p)
  | answer complete => exact .answer fun p => grows.complete p (complete p)

namespace Tracks

/-- One player gets to another place. -/
theorem of_set {label : Option TaskId} (turns : place.turns = (board.place p).turns + label.toList.count p.task)
    (running : place.running + a.runs.count (p.task, .next) = (board.place p).running + a'.runs.count (p.task, .next))
    (others : ∀ q, q ≠ p → label.toList.count q.task = 0 ∧ a.runs.count (q.task, .next) = a'.runs.count (q.task, .next)) :
    Tracks board a label (board.set p place queue) a' where
  turns q := by
    by_cases same : q = p
    · rw [same, Board.place_set_self, turns]
    · rw [Board.place_set_ne same, (others q same).1, Nat.add_zero]
  running q := by
    by_cases same : q = p
    · rw [same, Board.place_set_self, running]
    · rw [Board.place_set_ne same, (others q same).2]

/-- Nobody ran or runs. -/
theorem idle (turns : place.turns = (board.place p).turns) (running : place.running = (board.place p).running)
    (before : a.runs = []) (after : a'.runs = []) : Tracks board a none (board.set p place queue) a' :=
  .of_set turns (by rw [running, before, after]) fun _ _ => ⟨rfl, by rw [before, after]⟩

theorem refl (same : a.runs = a'.runs) : Tracks board a none board a' :=
  ⟨fun _ => rfl, fun _ => by rw [same]⟩

end Tracks

/-! ## Strides -/

/-- A thread makes a stride, and afterwards the board is another one. -/
structure Goes (rounds workers : Nat) (board : Board) (a : Agent Datum Nat) (st : State Datum Nat) (board' : Board)
    (config : Config Datum Nat) : Prop where
  stride : (a.config st).Stride config
  shows : Shows rounds workers board' config.state
  fair : Fair rounds board'
  tracks : Tracks board a (a.runs.getLast?.map Prod.fst) board' config.agent

section

variable (shows : Shows rounds workers board st) (fair : Fair rounds board)
include shows fair

omit shows fair in
/-- A player has made a run. -/
theorem Goes.ran {w : Worker} {entry : FrameId} {turns n : Nat} {st' : State Datum Nat} {progress : Progress}
    {after : Focus Datum Nat} (idle : after.run? = none) (running : board.place p = .seated ⟨entry, .running w, turns⟩)
    (rests : Place.running (.seated ⟨entry, progress, turns + 1⟩) = 0)
    (rolls : Config.Rolls (Playing st.schedulers) n ⟨st, .trampoline p.task after, []⟩ ⟨st', after, []⟩)
    (shows : Shows rounds workers (board.set p (.seated ⟨entry, progress, turns + 1⟩) queue) st')
    (fair : Fair rounds (board.set p (.seated ⟨entry, progress, turns + 1⟩) queue)) :
    Goes rounds workers board ⟨.trampoline p.task after, []⟩ st (board.set p (.seated ⟨entry, progress, turns + 1⟩) queue)
      ⟨st', after, []⟩ where
  stride := by
    have runs : (⟨after, []⟩ : Agent Datum Nat).runs = [] := by simp [Agent.runs, idle]
    exact .of_rolls (List.cons_ne_nil _ _) (rolls.mono fun _ playing => playing.running) (not_not_intro runs)
  shows := shows
  fair := fair
  tracks := by
    have runs : (⟨st', after, []⟩ : Config Datum Nat).agent.runs = [] := by simp [Config.agent, Agent.runs, idle]
    refine .of_set ?_ ?_ fun q other => ?_
    · simp [running, Place.turns, Agent.runs, Focus.run?]
    · rw [rests, running, runs]
      simp [Agent.runs, Focus.run?, Place.running]
    · have apart : p.task ≠ q.task := fun same => other (Shot.task_inj same).symm
      rw [runs]
      simp [Agent.runs, Focus.run?, apart]

/-- A player that has further shots to send makes a run. -/
theorem Goes.run_on {w : Worker} {entry : FrameId} {turns : Nat} (after : Focus Datum Nat) (idle : after.run? = none)
    (running : board.place p = .seated ⟨entry, .running w, turns⟩) (further : turns + 1 < rounds) :
    ∃ st', Config.Rolls (Playing st.schedulers) 21 ⟨st, .trampoline p.task after, []⟩ ⟨st', after, []⟩ ∧
      Goes rounds workers board ⟨.trampoline p.task after, []⟩ st
        (board.set p (.seated ⟨entry, .ready, turns + 1⟩) (board.queue ++ [p])) ⟨st', after, []⟩ := by
  obtain ⟨st', rolls, shows'⟩ := shows.plays_on running further
  exact ⟨st', rolls, .ran idle running rfl rolls shows' (fair.goes_on running further)⟩

/-- A player makes its last run. -/
theorem Goes.run_last {w : Worker} {entry : FrameId} {turns : Nat} (after : Focus Datum Nat) (idle : after.run? = none)
    (running : board.place p = .seated ⟨entry, .running w, turns⟩) (last : turns + 1 = runsOf rounds) :
    ∃ n st' reply, n ≤ 21 ∧
      Config.Rolls (Playing st.schedulers) n ⟨st, .trampoline p.task after, []⟩ ⟨st', after, []⟩ ∧
      Goes rounds workers board ⟨.trampoline p.task after, []⟩ st
        (board.set p (.seated ⟨entry, .done reply, turns + 1⟩) board.queue) ⟨st', after, []⟩ := by
  have last' : rounds = turns + 1 ∨ rounds = 0 ∧ turns = 0 := by
    rw [runsOf] at last
    omega
  obtain ⟨n, st', reply, few, rolls, shows', newest⟩ := shows.plays_last running last'
  exact ⟨n, st', reply, few, rolls, .ran idle running rfl rolls shows' (fair.ends running last newest)⟩

/-- A player makes a run. -/
theorem Goes.run {w : Worker} {entry : FrameId} {turns : Nat} (after : Focus Datum Nat) (idle : after.run? = none)
    (running : board.place p = .seated ⟨entry, .running w, turns⟩) :
    ∃ board' st', Goes rounds workers board ⟨.trampoline p.task after, []⟩ st board' ⟨st', after, []⟩ ∧
      board.Grows board' := by
  have grows : ∀ {progress : Progress} {queue : List Shot}, progress ≠ .spawned →
      board.Grows (board.set p (.seated ⟨entry, progress, turns + 1⟩) queue) := by
    intro progress queue launched
    refine ⟨fun q => ?_, fun q done => ?_, rfl⟩
    · by_cases same : q = p
      · rw [same, Board.place_set_self, running]
        exact .inr ⟨⟨_, _, _, rfl, by simp⟩, ⟨_, _, _, rfl, launched⟩⟩
      · exact .inl (Board.place_set_ne same)
    · rw [Board.place_set_ne fun same => by rw [same, running] at done; cases done]
      exact done
  have few := fair.turns p
  have more : (board.place p).turns ≠ runsOf rounds := fun all => by
    have complete := (fair.complete p).2 all
    rw [running] at complete
    cases complete
  simp only [running, Place.turns] at few more
  by_cases further : turns + 1 < rounds
  · obtain ⟨st', _, goes⟩ := Goes.run_on shows fair after idle running further
    exact ⟨_, st', goes, grows (by simp)⟩
  · have last : turns + 1 = runsOf rounds := by
      rw [runsOf] at few more ⊢
      omega
    obtain ⟨_, st', _, _, _, goes⟩ := Goes.run_last shows fair after idle running last
    exact ⟨_, st', goes, grows (by simp)⟩

/-- A ready player is taken up. -/
theorem Goes.take_first {entry : FrameId} {turns : Nat} (w : Worker) {after otherwise : Focus Datum Nat}
    (quiet : a.runs = []) (alone : a.stack = [])
    (step : (a.config st).step = (a.config st).runReady Scenario.scheduler w after otherwise)
    (line : board.queue = p :: rest) (ready : board.place p = .seated ⟨entry, .ready, turns⟩) :
    ∃ st', (a.config st).step = .ok ⟨st', .trampoline p.task after, []⟩ ∧
      Goes rounds workers board a st (board.set p (.seated ⟨entry, .running w, turns⟩) rest)
        ⟨st', .trampoline p.task after, []⟩ := by
  obtain ⟨st₁, st', taken, begins, shows'⟩ := shows.take line ready w
  have taken' := step.trans (Config.runReady_eq taken begins after otherwise)
  have distinct : (p :: rest).Nodup := line ▸ fair.nodup
  have runs : (⟨st', .trampoline p.task after, []⟩ : Config Datum Nat).agent.runs = [(p.task, .next)] := rfl
  rw [show (a.config st).stack = [] from alone] at taken'
  refine ⟨st', taken', .step (not_not_intro quiet) taken', shows', ?_, ?_⟩
  · refine fair.keep (by rw [ready]; rfl) (by rw [ready]; rfl) rfl (List.nodup_cons.1 distinct).2 ?_ fun q other => ?_
    · simp [(List.nodup_cons.1 distinct).1, Place.isReady]
    · simp [line, other]
  · rw [quiet]
    refine .of_set (by simp [ready, Place.turns]) ?_ fun q other => ⟨rfl, ?_⟩
    · rw [quiet, runs, ready]
      simp [Place.running]
    · have apart : p.task ≠ q.task := fun same => other (Shot.task_inj same).symm
      rw [quiet, runs]
      simp [apart]

/-- The oldest ready player is taken up, if there is one. -/
theorem Goes.take (w : Worker) {after otherwise : Focus Datum Nat} (quiet : a.runs = []) (alone : a.stack = [])
    (idle : otherwise.run? = none)
    (step : (a.config st).step = (a.config st).runReady Scenario.scheduler w after otherwise) :
    ∃ board' config, Goes rounds workers board a st board' config ∧ board.Grows board' ∧ board'.queue = board.queue.tail ∧
      config.agent = ⟨board.queue.head?.elim otherwise fun p => .trampoline p.task after, []⟩ := by
  have calm : ¬ (a.config st).Busy := not_not_intro quiet
  cases line : board.queue with
  | nil =>
    have nobody := Config.runReady_none (c := a.config st) (shows.take_none line) w after otherwise
    have runs : (⟨otherwise, a.stack⟩ : Agent Datum Nat).runs = [] := by simp [Agent.runs, idle, alone]
    refine ⟨board, _, ⟨.step calm (step.trans nobody), shows, fair, ?_⟩, ⟨fun _ => .inl rfl, fun _ => id, rfl⟩,
      by rw [line, List.tail_nil], by rw [← alone]; rfl⟩
    rw [quiet]
    exact .refl (quiet.trans runs.symm)
  | cons p rest =>
    obtain ⟨entry, turns, ready⟩ : ∃ entry turns, board.place p = .seated ⟨entry, .ready, turns⟩ := by
      have ready := (fair.queue p).1 (by simp [line])
      revert ready
      cases board.place p with
      | seated seat =>
        obtain ⟨entry, _ | _ | _ | _, turns⟩ := seat
        case ready => exact fun _ => ⟨entry, turns, rfl⟩
        all_goals rintro ⟨⟩
      | absent | counting | framed => rintro ⟨⟩
    obtain ⟨st', _, goes⟩ := Goes.take_first shows fair w quiet alone step line ready
    refine ⟨_, _, goes, ⟨fun q => ?_, fun q done => ?_, rfl⟩, rfl, rfl⟩
    · by_cases same : q = p
      · rw [same, Board.place_set_self, ready]
        exact .inr ⟨⟨_, _, _, rfl, by simp⟩, ⟨_, _, _, rfl, by simp⟩⟩
      · exact .inl (Board.place_set_ne same)
    · rw [Board.place_set_ne fun same => by rw [same, ready] at done; cases done]
      exact done

end

/-- The host does something for a player, and nobody runs. -/
theorem Goes.quiet (fair : Fair rounds board) {config : Config Datum Nat} {old : Place} (here : board.place p = old)
    (step : (a.config st).step = .ok config) (quiet : a.runs = []) (still : config.agent.runs = [])
    (shows' : Shows rounds workers (board.set p place board.queue) config.state)
    (turns : place.turns = old.turns) (running : place.running = old.running) (unfinished : old.reply? = none)
    (going : place.reply? = none) (early : old.isReady = false) (unready : place.isReady = false) :
    Goes rounds workers board a st (board.set p place board.queue) config where
  stride := .step (not_not_intro quiet) step
  shows := shows'
  fair := by
    subst here
    refine fair.keep unfinished turns going fair.nodup ?_ fun _ _ => Iff.rfl
    rw [fair.queue, early, unready]
  tracks := by
    subst here
    rw [quiet]
    exact .idle turns running quiet still

/-- Nobody is ready when all players have finished. -/
theorem Fair.queue_eq_nil (fair : Fair rounds board) (complete : ∀ p, (board.place p).reply?.isSome = true) :
    board.queue = [] := by
  refine List.eq_nil_iff_forall_not_mem.2 fun p => fair.notMem ?_
  have done := complete p
  revert done
  cases board.place p with
  | seated seat => obtain ⟨_, _ | _ | _ | _, _⟩ := seat <;> simp [Place.reply?, Place.isReady]
  | absent | counting | framed => rintro ⟨⟩

/-- The scheduler is quiescent when all players have finished. -/
theorem holds_iff (shows : Shows rounds workers board st) (fair : Fair rounds board) (all : ∀ p, (board.place p).Launched) :
    Config.holds st (.quiescent Scenario.scheduler) = true ↔ ∀ p, (board.place p).reply?.isSome = true := by
  obtain ⟨scheduler, known, runs⟩ := shows.scheduler
  simp only [Config.holds, known, Option.any_some, Bool.and_eq_true, Scheduler.isQuiescent, decide_eq_true_eq,
    runs.runnable, runs.external]
  constructor
  · rintro ⟨⟨quiet, _⟩, _⟩ p
    have ping := (board.place .ping).runnable_nonneg
    have pong := (board.place .pong).runnable_nonneg
    refine (all p).replied ?_
    cases p <;> omega
  · intro complete
    have rests : ∀ p, (board.place p).runnable = 0 := fun p => by
      have done := complete p
      revert done
      cases board.place p with
      | seated seat => obtain ⟨_, _ | _ | _ | _, _⟩ := seat <;> simp [Place.reply?, Place.runnable]
      | absent | counting | framed => rintro ⟨⟩
    have empty : scheduler.ready.isEmpty = true := by
      rw [Line.isEmpty_iff, runs.queue, fair.queue_eq_nil complete, List.map_nil]
    simp [rests, empty]

/-- A step of the host after which everything is as before. -/
theorem Goes.stay (a' : Agent Datum Nat) (shows : Shows rounds workers board st) (fair : Fair rounds board)
    (quiet : a.runs = []) (still : a'.runs = []) (step : (a.config st).step = .ok (a'.config st)) :
    Goes rounds workers board a st board (a'.config st) := by
  refine ⟨.step (not_not_intro quiet) step, shows, fair, ?_⟩
  rw [quiet]
  exact .refl (quiet.trans still.symm)

/-- Where the host is after a stride, and that it made progress unless it waits for players. -/
structure HostGoes (rounds workers : Nat) (board : Board) (left : Nat) (a : Agent Datum Nat) (st : State Datum Nat)
    (board' : Board) (left' : Nat) (config : Config Datum Nat) : Prop where
  goes : Goes rounds workers board a st board' config
  hostAt : HostAt rounds board' left' config.agent
  progress : left' < left ∨ left ≤ 2 ∧ ((∀ p, (board.place p).reply?.isSome = true) → left = 0)

section

variable (shows : Shows rounds workers board st) (fair : Fair rounds board)
include shows fair

/-- The host waits, and goes on when all players have finished. -/
theorem HostAt.keepsWaiting (all : ∀ p, (board.place p).Launched) :
    ∃ board' left' config, HostGoes rounds workers board 2 ⟨standby, []⟩ st board' left' config := by
  have finished := holds_iff shows fair all
  by_cases holds : Config.holds st (.quiescent Scenario.scheduler) = true
  · exact ⟨board, 1, _, .stay ⟨.code stopping, []⟩ shows fair rfl rfl (if_pos holds), .stop (finished.1 holds),
      .inl (by decide)⟩
  · have waits : Config.holds st (.quiescent Scenario.scheduler) = false := Bool.not_eq_true _ ▸ holds
    have unfinished := mt finished.2 holds
    by_cases drives : ((st.schedulers.get? Scenario.scheduler).any fun scheduler =>
        scheduler.workers = 0 && !scheduler.ready.isEmpty) = true
    · have step : Config.step ⟨st, standby, []⟩ =
          (⟨st, standby, []⟩ : Config Datum Nat).runReady Scenario.scheduler .embedded standby standby := by
        have driven : Config.driven? st (.quiescent Scenario.scheduler) = some Scenario.scheduler := if_pos drives
        simp only [Config.step, standby, Config.keepWaiting, waits, driven, Bool.false_eq_true, if_false]
      obtain ⟨board', config, goes, grows, _, there⟩ :=
        @Goes.take rounds workers board st ⟨standby, []⟩ shows fair .embedded standby standby rfl rfl rfl step
      refine ⟨board', 2, config, goes, ?_, .inr ⟨le_refl _, fun complete => absurd complete unfinished⟩⟩
      rw [there]
      cases board.queue with
      | nil => exact .waiting (grows.launched all)
      | cons p rest => exact .driving (grows.launched all)
    · refine ⟨board, 2, _, .stay ⟨standby, []⟩ shows fair rfl rfl ?_, .waiting all,
        .inr ⟨le_refl _, fun complete => absurd complete unfinished⟩⟩
      have driven : Config.driven? st (.quiescent Scenario.scheduler) = none := if_neg drives
      simp only [Agent.config, Config.step, standby, Config.keepWaiting, waits, driven, Bool.false_eq_true, if_false,
        pure_ok]

/-- The host makes its stride. -/
theorem HostAt.strides {left : Nat} (hostAt : HostAt rounds board left a)
    (runs : ∀ p : Shot, a.runs.count (p.task, .next) ≤ (board.place p).running) :
    ∃ board' left' config, HostGoes rounds workers board left a st board' left' config := by
  cases hostAt with
  | @cell p rest making =>
    obtain ⟨number, shows'⟩ := shows.newCell making.here making.before
    refine ⟨_, _, ⟨{ st with cells := st.cells.add 0 },
      .code (.newFrame "player" (player actor p rounds p.cell) (launching rounds rest)), []⟩,
      .quiet fair making.here ?_ rfl rfl shows' rfl rfl rfl rfl rfl rfl, .frame (making.set _ _), .inl (by omega)⟩
    rw [← number]
    rfl
  | @frame p rest making =>
    exact ⟨_, _, ⟨(st.addFrame (playerSheet rounds p)).2, .code (launching rounds rest st.frames.next), []⟩,
      .quiet fair making.here rfl rfl rfl (shows.newFrame making.here) rfl rfl rfl rfl rfl rfl,
      .spawn (making.set _ _), .inl (by omega)⟩
  | @spawn p rest entry making =>
    obtain ⟨st', spawned, shows'⟩ := shows.spawn making.here making.before making.going
    exact ⟨_, _, ⟨st', .code (.ask (.start p.task) fun _ => upcoming rounds rest), []⟩,
      .quiet fair making.here (bind_ok.2 ⟨_, spawned, rfl⟩) rfl rfl shows' rfl rfl rfl rfl rfl rfl,
      .start (making.set _ _), .inl (by omega)⟩
  | @start p rest entry making =>
    obtain ⟨st', started, shows'⟩ := shows.start making.here
    have absent : p ∉ board.queue := fair.notMem (by rw [making.here]; rfl)
    obtain ⟨left', hostAt', less⟩ := making.started rounds entry (board.queue ++ [p])
    refine ⟨_, left', ⟨st', .code (upcoming rounds rest), []⟩,
      ⟨.step (fun busy => busy rfl) (bind_ok.2 ⟨_, bind_ok.2 ⟨_, started, rfl⟩, rfl⟩), shows', ?_, ?_⟩, hostAt', .inl less⟩
    · refine fair.keep (by rw [making.here]; rfl) (by rw [making.here]; rfl) rfl ?_ (by simp [Place.isReady])
        fun q other => by simp [other]
      rw [List.nodup_append_comm]
      exact List.nodup_cons.2 ⟨absent, fair.nodup⟩
    · exact .idle (by rw [making.here]; rfl) (by rw [making.here]; rfl) rfl rfl
  | await all =>
    exact ⟨board, 2, _, .stay ⟨standby, []⟩ shows fair rfl rfl rfl, .waiting all, .inl (by decide)⟩
  | waiting all => exact HostAt.keepsWaiting shows fair all
  | @driving p all =>
    have busy : 0 < (board.place p).running := lt_of_lt_of_le (by simp [Agent.runs, Focus.run?]) (runs p)
    obtain ⟨entry, w, turns, running⟩ := Place.exists_of_running busy
    obtain ⟨board', st', goes, grows⟩ := Goes.run shows fair standby rfl running
    refine ⟨board', 2, _, goes, .waiting (grows.launched all), .inr ⟨le_refl _, fun complete => ?_⟩⟩
    have done := complete p
    rw [running] at done
    cases done
  | stop complete =>
    obtain ⟨st', stopped, shows'⟩ := shows.stop (fair.queue_eq_nil complete)
    exact ⟨{ board with isShutDown := true }, 0, ⟨st', .code (.answer (.done default)), []⟩,
      ⟨.step (fun busy => busy rfl) (bind_ok.2 ⟨_, bind_ok.2 ⟨_, stopped, rfl⟩, rfl⟩), shows', ⟨fair.queue, fair.nodup,
        fair.turns, fair.complete, fair.replies, fair.last⟩, ⟨fun _ => rfl, fun _ => rfl⟩⟩, .answer complete, .inl (by decide)⟩
  | answer complete =>
    exact ⟨board, 0, _, .stay ⟨.code (.answer (.done default)), []⟩ shows fair rfl rfl rfl, .answer complete,
      .inr ⟨by decide, fun _ => rfl⟩⟩

/-- A worker makes its stride. -/
theorem WorkerAt.strides (workerAt : WorkerAt a)
    (runs : ∀ p : Shot, a.runs.count (p.task, .next) ≤ (board.place p).running) :
    ∃ board' config, Goes rounds workers board a st board' config ∧ board.Grows board' ∧ WorkerAt config.agent := by
  cases workerAt with
  | work index =>
    obtain ⟨board', config, goes, grows, _, there⟩ :=
      @Goes.take rounds workers board st ⟨.work Scenario.scheduler index, []⟩ shows fair (.thread index) .rest .rest rfl
        rfl rfl rfl
    refine ⟨board', config, goes, grows, ?_⟩
    rw [there]
    cases board.queue with
    | nil => exact .rest
    | cons p rest => exact .run p
  | run p =>
    have busy : 0 < (board.place p).running := lt_of_lt_of_le (by simp [Agent.runs, Focus.run?]) (runs p)
    obtain ⟨entry, w, turns, running⟩ := Place.exists_of_running busy
    obtain ⟨board', st', goes, grows⟩ := Goes.run shows fair .rest rfl running
    exact ⟨board', _, goes, grows, .rest⟩
  | rest =>
    exact ⟨board, _, .stay ⟨.rest, []⟩ shows fair rfl rfl rfl, ⟨fun _ => .inl rfl, fun _ => id, rfl⟩, .rest⟩

end

end Scenario.Pingpong

end Tasking
