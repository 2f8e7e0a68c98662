import Tasking.Proofs.Rally.Shots

/-! # The board

Between two runs a state has for each player what the host has made of it so far, how far its task has come and how
many runs it has made.  A `Board` says all this, and `Shows` that a state has it.  There is one lemma for each thing
that changes a board: the host makes a player step by step, workers take players up, and players run.
-/

namespace Tasking

namespace State

variable {V C : Type} {st : State V C} {t : TaskId} {task : Task V} {s : SchedulerId} {scheduler : Scheduler}

/-- A new task that shares the threads of its scheduler gets to the end of the queue. -/
theorem start_eq (found : st.tasks.get? t = some task) (new : task.life = .init) (shared : task.bound = none)
    (free : task.linked = false) (known : st.schedulers.get? task.scheduler = some scheduler)
    (count : 0 ≤ scheduler.runnable) :
    st.start t = .ok ((st.modifyTask t fun task => { task with life := .ready, notified := false, linked := true })
      |>.modifyScheduler task.scheduler fun s => { s with runnable := s.runnable + 1, ready := s.ready.push t }) := by
  let moved := st.setLife t .ready
  have found' : moved.tasks.get? t = some { task with life := .ready, notified := false } := by
    simp [moved, setLife, get?_modifyTask, found]
  have advances : st.advance t .init .ready = .ok moved :=
    bind_ok.2 ⟨_, task_ok.2 found, check_ok.2 ⟨by simp [new, Life.canMove], rfl⟩⟩
  have counts : moved.adjust task.scheduler .runnable 1 =
      .ok (moved.modifyScheduler task.scheduler fun s => { s with runnable := s.runnable + 1 }) :=
    adjust_eq _ known (by simp only [Scheduler.count]; omega) rfl
  refine bind_ok.2 ⟨_, task_ok.2 found, bind_ok.2 ⟨_, advances, bind_ok.2 ⟨_, counts, ?_⟩⟩⟩
  refine bind_ok.2 ⟨{ task with life := .ready, notified := false }, task_ok.2 found', ?_⟩
  rw [if_neg (by simp [shared])]
  refine bind_ok.2 ⟨_, bind_ok.2 ⟨_, task_ok.2 found', check_ok.2 ⟨by simp [free], rfl⟩⟩, ?_⟩
  simp only [moved, setLife, modifyTask, modifyScheduler, Table.modify_modify, pure_ok]

/-- The oldest ready task is taken up. -/
theorem take_eq {rest : Line TaskId} (known : st.schedulers.get? s = some scheduler)
    (oldest : scheduler.ready.pop? = some (t, rest)) :
    st.takeReady s = .ok (some t, (st.modifyTask t fun task => { task with linked := false }).modifyScheduler s
      fun s => { s with ready := rest }) := by
  refine bind_ok.2 ⟨_, scheduler_ok.2 known, ?_⟩
  rw [oldest]
  rfl

theorem beginRun_eq (found : st.tasks.get? t = some task) (ready : task.life = .ready) (w : Worker) :
    st.beginRun t w = .ok (st.modifyTask t fun task =>
      { task with life := .running, notified := false, worker := some w }) := by
  refine bind_ok.2 ⟨_, bind_ok.2 ⟨_, task_ok.2 found, check_ok.2 ⟨by simp [ready, Life.canMove], rfl⟩⟩, ?_⟩
  rw [setLife, modifyTask_modifyTask]
  rfl

end State

namespace Scenario.Pingpong

open State

/-- How far the task of a player has come. -/
inductive Progress where
  | spawned
  | ready
  | running (w : Worker)
  | done (reply : Datum)

/-- A player with a task: the frame in which it begins, how far it has come, and how many runs it has made. -/
structure Seat where
  entry : FrameId
  progress : Progress
  turns : Nat

namespace Seat

/-- The task of the player. -/
def task (seat : Seat) : Task Datum :=
  let new : Task Datum := { Task.new Scenario.scheduler seat.entry none with listed := true }
  match seat.progress with
  | .spawned => new
  | .ready => { new with life := .ready, linked := true }
  | .running w => { new with life := .running, worker := some w }
  | .done reply => ended new reply

/-- How often the player was resumed: twice in each run, but once in the one run of a player that has nothing
to send. -/
def resumes (rounds : Nat) (seat : Seat) : Nat := if rounds = 0 then seat.turns else 2 * seat.turns

end Seat

/-- What there is of a player: nothing, its cell, its frame too, or its task too. -/
inductive Place where
  | absent
  | counting
  | framed (entry : FrameId)
  | seated (seat : Seat)

namespace Place

def cell? (rounds : Nat) : Place → Option Nat
  | absent => none
  | counting | framed _ => some 0
  | seated seat => some (seat.resumes rounds)

def task? : Place → Option (Task Datum)
  | seated seat => some seat.task
  | _ => none

def opening? : Place → Option FrameId
  | framed entry => some entry
  | seated seat => some seat.entry
  | _ => none

/-- How many runs the player has made. -/
def turns : Place → Nat
  | seated seat => seat.turns
  | _ => 0

/-- Whether the task is unfinished, as a count. -/
def unfinished : Place → Int
  | seated ⟨_, .done _, _⟩ => 0
  | seated _ => 1
  | _ => 0

/-- Whether the task is ready or running, as a count. -/
def runnable : Place → Int
  | seated ⟨_, .ready, _⟩ | seated ⟨_, .running _, _⟩ => 1
  | _ => 0

theorem runnable_nonneg (place : Place) : 0 ≤ place.runnable := by
  unfold runnable
  split <;> omega

theorem unfinished_nonneg (place : Place) : 0 ≤ place.unfinished := by
  unfold unfinished
  split <;> omega

end Place

/-- What there is of both players, who is ready in which order, and whether the scheduler was stopped. -/
structure Board where
  place : Shot → Place
  queue : List Shot
  isShutDown : Bool

namespace Board

/-- The board with another place for a player, and another queue. -/
def set (board : Board) (p : Shot) (place : Place) (queue : List Shot) : Board :=
  { board with place := Function.update board.place p place, queue := queue }

/-- How many shots a player has sent. -/
def shots (rounds : Nat) (board : Board) (p : Shot) : Nat := min (board.place p).turns rounds

/-- The shots of both players. -/
def rally (rounds : Nat) (board : Board) : Rally := ⟨board.shots rounds .ping, board.shots rounds .pong⟩

variable {board : Board} {p q : Shot} {place : Place} {queue : List Shot} {rounds : Nat}

@[simp] theorem place_set_self : (board.set p place queue).place p = place := Function.update_self ..

theorem place_set_ne (other : q ≠ p) : (board.set p place queue).place q = board.place q :=
  Function.update_of_ne other ..

theorem shots_set : (board.set p place queue).shots rounds q =
    if q = p then min place.turns rounds else board.shots rounds q := by
  by_cases same : q = p
  · rw [if_pos same, same, shots, place_set_self]
  · rw [if_neg same, shots, place_set_ne same, shots]

/-- Nothing was sent. -/
theorem shots_set_keep (same : place.turns = (board.place p).turns) :
    (board.set p place queue).shots rounds q = board.shots rounds q := by
  rw [shots_set]
  split
  · next same' => rw [same, same', shots]
  · rfl

theorem rally_set_keep (same : place.turns = (board.place p).turns) :
    (board.set p place queue).rally rounds = board.rally rounds := by
  simp only [rally, shots_set_keep same]

/-- A shot was sent. -/
theorem rally_set_count (shot : min place.turns rounds = board.shots rounds p + 1) :
    (board.set p place queue).rally rounds = (board.rally rounds).count p := by
  cases p <;> simp [rally, shots_set, Rally.count, shot]

/-- A sum over both players. -/
theorem sum_set (count : Place → Int) :
    count ((board.set p place queue).place .ping) + count ((board.set p place queue).place .pong) =
      count (board.place .ping) + count (board.place .pong) - count (board.place p) + count place := by
  cases p
  · rw [place_set_self, place_set_ne (by decide)]
    omega
  · rw [place_set_self, place_set_ne (by decide)]
    omega

end Board

/-- Whether a frame delivers the shot of a player. -/
def sends (p : Shot) (sheet : Sheet) : Bool :=
  match sheet.code with
  | .message _ (.shot q) _ => q = p
  | _ => false

/-- How many messages with the shot of a player were made. -/
def messages (p : Shot) (frames : Table .frame Sheet) : Nat := frames.entries.toList.countP (sends p)

theorem messages_add (p : Shot) (frames : Table .frame Sheet) (sheet : Sheet) :
    messages p (frames.add sheet) = messages p frames + if sends p sheet then 1 else 0 := by
  simp [messages, Table.add, List.countP_append, List.countP_singleton]

/-- The counters and the queue of a scheduler are those of a board. -/
structure Runs (workers : Nat) (board : Board) (scheduler : Scheduler) : Prop where
  workers : scheduler.workers = workers
  bound : scheduler.bound = []
  stopped : scheduler.isShutDown = board.isShutDown
  tasks : scheduler.tasks = (board.place .ping).unfinished + (board.place .pong).unfinished
  runnable : scheduler.runnable = (board.place .ping).runnable + (board.place .pong).runnable
  external : scheduler.external = 0
  queue : scheduler.ready.toList = board.queue.map Shot.task

/-- A state has what a board says, and neither tasks nor schedulers besides. -/
structure Shows (rounds workers : Nat) (board : Board) (st : State Datum Nat) : Prop where
  cell : ∀ p, st.cells.get? p.cell = (board.place p).cell? rounds
  task : ∀ p, st.tasks.get? p.task = (board.place p).task?
  entry : ∀ p f, (board.place p).opening? = some f → st.frames.get? f = some (playerSheet rounds p)
  sent : ∀ p, messages p st.frames = board.shots rounds p
  free : st.resources.get? lock = some (.new none)
  counted : st.exclusives.get? score = some ⟨lock, .rally (board.rally rounds), false⟩
  serves : st.actors.get? actor = some ⟨score, handler⟩
  scheduler : ∃ scheduler, st.schedulers.get? Scenario.scheduler = some scheduler ∧ Runs workers board scheduler
  everyone : ∀ t, (st.tasks.get? t).isSome = true → ∃ p, t = Shot.task p
  alone : ∀ s, (st.schedulers.get? s).isSome = true → s = Scenario.scheduler

namespace Shows

variable {rounds workers : Nat} {board : Board} {st st' : State Datum Nat} {p : Shot} {place : Place} {queue : List Shot}

/-- Something changed for one player. -/
theorem update (shows : Shows rounds workers board st)
    (cells : ∀ i, st'.cells.get? i = if i = p.cell then place.cell? rounds else st.cells.get? i)
    (tasks : ∀ t, st'.tasks.get? t = if t = p.task then place.task? else st.tasks.get? t)
    (frames : ∀ f sheet, st.frames.get? f = some sheet → st'.frames.get? f = some sheet)
    (entry : ∀ f, place.opening? = some f → st'.frames.get? f = some (playerSheet rounds p))
    (sent : ∀ q, messages q st'.frames = (board.set p place queue).shots rounds q)
    (free : st'.resources.get? lock = some (.new none))
    (counted : st'.exclusives.get? score = some ⟨lock, .rally ((board.set p place queue).rally rounds), false⟩)
    (actors : st'.actors = st.actors)
    (scheduler : ∃ scheduler, st'.schedulers.get? Scenario.scheduler = some scheduler ∧
      Runs workers (board.set p place queue) scheduler)
    (alone : ∀ s, (st'.schedulers.get? s).isSome = true → s = Scenario.scheduler) :
    Shows rounds workers (board.set p place queue) st' where
  cell q := by
    rw [cells]
    by_cases same : q = p
    · rw [same, if_pos rfl, Board.place_set_self]
    · rw [if_neg fun equal => same (Shot.cell_inj equal), Board.place_set_ne same, shows.cell]
  task q := by
    rw [tasks]
    by_cases same : q = p
    · rw [same, if_pos rfl, Board.place_set_self]
    · rw [if_neg fun equal => same (Shot.task_inj equal), Board.place_set_ne same, shows.task]
  entry q f here := by
    by_cases same : q = p
    · subst same
      rw [Board.place_set_self] at here
      exact entry f here
    · rw [Board.place_set_ne same] at here
      exact frames f _ (shows.entry q f here)
  sent := sent
  free := free
  counted := counted
  serves := by rw [actors, shows.serves]
  scheduler := scheduler
  everyone t known := by
    rw [tasks] at known
    split at known
    · next same => exact ⟨p, same⟩
    · exact shows.everyone t known
  alone := alone

/-- Players are made in their order, so the numbers of the next one are known. -/
theorem next_number (kind : Kind) {α : Type} (table : Table kind α) (p : Shot)
    (before : p = .pong → (table.get? ⟨Shot.ping.number⟩).isSome = true) (missing : table.get? ⟨p.number⟩ = none) :
    table.next = ⟨p.number⟩ := by
  have few : ¬ (0 < p.number ∧ p.number ≤ table.size) := by
    rw [← table.isSome_get?_iff ⟨p.number⟩, missing]
    simp
  have size : table.size + 1 = p.number := by
    cases p with
    | ping =>
      simp only [Shot.number] at few ⊢
      omega
    | pong =>
      have enough := (table.isSome_get?_iff _).1 (before rfl)
      simp only [Shot.number] at few enough ⊢
      omega
  rw [← size]
  rfl

/-! ## The host makes a player -/

section

variable (shows : Shows rounds workers board st) {entry : FrameId} {turns : Nat} {rest : List Shot}
include shows

/-- What the scheduler counts when one player changes. -/
theorem runs_set {change : Scheduler → Scheduler} (place : Place) (queue : List Shot)
    (same : ∀ s : Scheduler, (change s).workers = s.workers ∧ (change s).bound = s.bound ∧
      (change s).isShutDown = s.isShutDown ∧ (change s).external = s.external)
    (tasks : ∀ s : Scheduler, (change s).tasks = s.tasks - (board.place p).unfinished + place.unfinished)
    (runnable : ∀ s : Scheduler, (change s).runnable = s.runnable - (board.place p).runnable + place.runnable)
    (line : ∀ s : Scheduler, s.ready.toList = board.queue.map Shot.task → (change s).ready.toList = queue.map Shot.task) :
    ∃ scheduler, (st.schedulers.modify Scenario.scheduler change).get? Scenario.scheduler = some scheduler ∧
      Runs workers (board.set p place queue) scheduler := by
  obtain ⟨scheduler, found, runs⟩ := shows.scheduler
  obtain ⟨workers', bound, stopped, external⟩ := same scheduler
  refine ⟨change scheduler, by simp [found], workers'.trans runs.workers, bound.trans runs.bound,
    stopped.trans runs.stopped, ?_, ?_, external.trans runs.external, line scheduler runs.queue⟩
  · rw [Board.sum_set Place.unfinished, tasks, runs.tasks]
  · rw [Board.sum_set Place.runnable, runnable, runs.runnable]

/-- Neither counts when the task of the player does not change. -/
theorem runs_keep (place : Place) (tasks : place.unfinished = (board.place p).unfinished)
    (runnable : place.runnable = (board.place p).runnable) :
    ∃ scheduler, st.schedulers.get? Scenario.scheduler = some scheduler ∧
      Runs workers (board.set p place board.queue) scheduler := by
  obtain ⟨scheduler, found, runs⟩ := shows.scheduler
  refine ⟨scheduler, found, runs.workers, runs.bound, runs.stopped, ?_, ?_, runs.external, runs.queue⟩
  · rw [Board.sum_set Place.unfinished, runs.tasks, tasks]
    omega
  · rw [Board.sum_set Place.runnable, runs.runnable, runnable]
    omega

theorem cells_keep (same : place.cell? rounds = (board.place p).cell? rounds) (i : CellId) :
    st.cells.get? i = if i = p.cell then place.cell? rounds else st.cells.get? i := by
  split
  · next here => rw [here, shows.cell, same]
  · rfl

theorem tasks_keep (same : place.task? = (board.place p).task?) (t : TaskId) :
    st.tasks.get? t = if t = p.task then place.task? else st.tasks.get? t := by
  split
  · next here => rw [here, shows.task, same]
  · rfl

theorem sent_keep (same : place.turns = (board.place p).turns) (q : Shot) :
    messages q st.frames = (board.set p place queue).shots rounds q := by
  rw [shows.sent, Board.shots_set_keep same]

theorem counted_keep (same : place.turns = (board.place p).turns) :
    st.exclusives.get? score = some ⟨lock, .rally ((board.set p place queue).rally rounds), false⟩ := by
  rw [shows.counted, Board.rally_set_keep same]

theorem newCell (absent : board.place p = .absent)
    (before : p = .pong → ∃ seat, board.place .ping = .seated seat) :
    st.cells.next = p.cell ∧
      Shows rounds workers (board.set p .counting board.queue) { st with cells := st.cells.add 0 } := by
  have number : st.cells.next = p.cell := by
    refine next_number .cell st.cells p (fun second => ?_) ((shows.cell p).trans (by rw [absent]; rfl))
    obtain ⟨seat, seated⟩ := before second
    exact (congrArg Option.isSome (shows.cell .ping)).trans (by rw [seated]; rfl)
  refine ⟨number, shows.update ?_ (shows.tasks_keep ?_) (fun f sheet => id) (fun f here => by cases here) (shows.sent_keep ?_) shows.free
    (shows.counted_keep ?_) rfl (shows.runs_keep _ ?_ ?_) shows.alone⟩
  · intro i
    rw [Table.get?_add_eq, number]
    rfl
  all_goals rw [absent]; rfl

theorem newFrame (counting : board.place p = .counting) :
    Shows rounds workers (board.set p (.framed st.frames.next) board.queue) (st.addFrame (playerSheet rounds p)).2 := by
  refine shows.update (shows.cells_keep ?_) (shows.tasks_keep ?_) (fun f sheet known => ?_) ?_ (fun q => ?_) shows.free
    (shows.counted_keep ?_) rfl (shows.runs_keep _ ?_ ?_) shows.alone
  case refine_3 => exact (Table.get?_add _ _ (Table.ne_next_of_get? known)).trans known
  case refine_4 =>
    rintro f ⟨⟩
    exact Table.get?_add_new ..
  case refine_5 =>
    rw [Board.shots_set_keep (by rw [counting]; rfl), ← shows.sent]
    exact messages_add ..
  all_goals rw [counting]; rfl

theorem spawn (framed : board.place p = .framed entry) (before : p = .pong → ∃ seat, board.place .ping = .seated seat)
    (accepts : board.isShutDown = false) :
    ∃ st', st.spawn Scenario.scheduler entry = .ok (.ok p.task, st') ∧
      Shows rounds workers (board.set p (.seated ⟨entry, .spawned, 0⟩) board.queue) st' := by
  have number : st.tasks.next = p.task := by
    refine next_number .task st.tasks p (fun second => ?_) ((shows.task p).trans (by rw [framed]; rfl))
    obtain ⟨seat, seated⟩ := before second
    exact (congrArg Option.isSome (shows.task .ping)).trans (by rw [seated]; rfl)
  obtain ⟨scheduler, found, runs⟩ := shows.scheduler
  refine ⟨(st.addTask Scenario.scheduler entry none).2.enlist Scenario.scheduler p.task, ?_, ?_⟩
  · refine bind_ok.2 ⟨_, scheduler_ok.2 found, ?_⟩
    rw [if_neg (by simp [runs.stopped, accepts]), ← number]
    rfl
  refine shows.update (shows.cells_keep ?_) (fun t => ?_) (fun f sheet => id) (fun f here => ?_) (shows.sent_keep ?_)
    shows.free (shows.counted_keep ?_) rfl
    (shows.runs_set _ _ (fun _ => ⟨rfl, rfl, rfl, rfl⟩) (fun s => ?_) (fun s => ?_) fun _ => id) (fun s known => ?_)
  case refine_2 =>
    simp only [State.enlist, State.modifyTask, State.modifyScheduler, State.addTask, Table.get?_modify, Table.get?_add_eq,
      number, if_true]
    split <;> rfl
  case refine_3 =>
    obtain rfl : entry = f := Option.some.inj here
    exact shows.entry p entry (by rw [framed]; rfl)
  case refine_6 =>
    rw [framed]
    simp [Place.unfinished]
  case refine_7 =>
    rw [framed]
    simp [Place.runnable]
  case refine_8 => exact shows.alone s ((isSome_modifyScheduler ..).symm.trans known)
  all_goals rw [framed]; simp [Place.cell?, Place.turns, Seat.resumes]

theorem start (spawned : board.place p = .seated ⟨entry, .spawned, 0⟩) :
    ∃ st', st.start p.task = .ok st' ∧
      Shows rounds workers (board.set p (.seated ⟨entry, .ready, 0⟩) (board.queue ++ [p])) st' := by
  have found : st.tasks.get? p.task = some (Seat.task ⟨entry, .spawned, 0⟩) :=
    (shows.task p).trans (by rw [spawned]; rfl)
  obtain ⟨scheduler, known, runs⟩ := shows.scheduler
  have count : 0 ≤ scheduler.runnable := by
    rw [runs.runnable]
    exact Int.add_nonneg (board.place .ping).runnable_nonneg (board.place .pong).runnable_nonneg
  refine ⟨_, start_eq found rfl rfl rfl known count, ?_⟩
  refine shows.update (shows.cells_keep ?_) (fun t => ?_) (fun f sheet => id) (fun f here => ?_) (shows.sent_keep ?_)
    shows.free (shows.counted_keep ?_) rfl
    (shows.runs_set _ _ (fun _ => ⟨rfl, rfl, rfl, rfl⟩) (fun s => ?_) (fun s => ?_) fun s line => ?_) (fun s known => ?_)
  case refine_2 =>
    refine (get?_modifyTask ..).trans ?_
    rw [found]
    rfl
  case refine_3 =>
    obtain rfl : entry = f := Option.some.inj here
    exact shows.entry p entry (by rw [spawned]; rfl)
  case refine_6 =>
    rw [spawned]
    simp [Place.unfinished]
  case refine_7 =>
    rw [spawned]
    simp [Place.runnable]
  case refine_8 => simp [line]
  case refine_9 => exact shows.alone s ((isSome_modifyScheduler ..).symm.trans known)
  all_goals rw [spawned]; simp [Place.cell?, Place.turns, Seat.resumes]

/-! ## A worker takes a player up -/

theorem take (queue : board.queue = p :: rest) (ready : board.place p = .seated ⟨entry, .ready, turns⟩)
    (w : Worker) :
    ∃ st₁ st', st.takeReady Scenario.scheduler = .ok (some p.task, st₁) ∧ st₁.beginRun p.task w = .ok st' ∧
      Shows rounds workers (board.set p (.seated ⟨entry, .running w, turns⟩) rest) st' := by
  have found : st.tasks.get? p.task = some (Seat.task ⟨entry, .ready, turns⟩) :=
    (shows.task p).trans (by rw [ready]; rfl)
  obtain ⟨scheduler, known, runs⟩ := shows.scheduler
  have line : scheduler.ready.toList = p.task :: rest.map Shot.task := by rw [runs.queue, queue, List.map_cons]
  obtain ⟨others, oldest, left⟩ := Line.exists_pop? line
  have found' : ((st.modifyTask p.task fun task => { task with linked := false }).modifyScheduler Scenario.scheduler
      fun s => { s with ready := others }).tasks.get? p.task =
        some { Seat.task ⟨entry, .ready, turns⟩ with linked := false } := by
    refine (get?_modifyTask ..).trans ?_
    rw [if_pos rfl, found]
    rfl
  refine ⟨_, _, take_eq known oldest, beginRun_eq found' rfl w, ?_⟩
  refine shows.update (shows.cells_keep ?_) (fun t => ?_) (fun f sheet => id) (fun f here => ?_) (shows.sent_keep ?_)
    shows.free (shows.counted_keep ?_) rfl
    ⟨{ scheduler with ready := others }, by simp [modifyScheduler, modifyTask, known], runs.workers, runs.bound,
      runs.stopped, ?_, ?_, runs.external, left⟩ (fun s known => ?_)
  case refine_2 =>
    rw [get?_modifyTask, found']
    refine if_congr Iff.rfl rfl (get?_modifyTask ..) |>.trans ?_
    split <;> rfl
  case refine_3 =>
    obtain rfl : entry = f := Option.some.inj here
    exact shows.entry p entry (by rw [ready]; rfl)
  case refine_6 =>
    rw [Board.sum_set Place.unfinished, ready]
    simp [Place.unfinished, runs.tasks]
  case refine_7 =>
    rw [Board.sum_set Place.runnable, ready]
    simp [Place.runnable, runs.runnable]
  case refine_8 => exact shows.alone s ((isSome_modifyScheduler ..).symm.trans known)
  all_goals rw [ready]; rfl

/-- Nobody is ready. -/
theorem take_none (queue : board.queue = []) : st.takeReady Scenario.scheduler = .ok (none, st) := by
  obtain ⟨scheduler, known, runs⟩ := shows.scheduler
  refine bind_ok.2 ⟨scheduler, scheduler_ok.2 known, ?_⟩
  rw [(Line.pop?_eq_none_iff _).2 (by rw [runs.queue, queue]; rfl)]
  rfl

/-! ## Players run -/

/-- What a player finds when its run begins. -/
theorem laid {progress : Progress} (seated : board.place p = .seated ⟨entry, progress, turns⟩) : Laid rounds p entry st where
  task := by rw [shows.task, seated]; rfl
  cell := by rw [shows.cell, seated]; rfl
  entry := shows.entry p entry (by rw [seated]; rfl)
  lock := by rw [shows.free]; rfl
  score := by rw [shows.counted]; rfl
  actor := shows.serves

/-- What a player has in hand when its run begins. -/
theorem dealt {w : Worker} (runs : board.place p = .seated ⟨entry, .running w, turns⟩) :
    (⟨Seat.task ⟨entry, .running w, turns⟩, entry, .unit, Seat.resumes rounds ⟨entry, .running w, turns⟩, none, none,
      board.rally rounds, false⟩ : Hand).on p st = st := by
  have task := (shows.task p).trans (congrArg Place.task? runs)
  have cell := (shows.cell p).trans (congrArg (Place.cell? rounds) runs)
  simp only [Hand.on, withLetter]
  rw [Table.modify_self task rfl, Table.modify_self cell rfl, Table.modify_self shows.free rfl,
    Table.modify_self shows.counted rfl]

/-- The run of a player is over, and what it had in hand is put back. -/
theorem put {progress : Progress} (seated : board.place p = .seated ⟨entry, progress, turns⟩) (hand : Hand) {change : Scheduler → Scheduler} {task : Task Datum}
    (cell : place.cell? rounds = some hand.resumes) (here : place.task? = some task)
    (begins : place.opening? = some entry) (free : hand.owner = none) (closed : hand.inUse = false)
    (sent : ∀ q, messages q (withLetter st.frames hand.letter) = (board.set p place queue).shots rounds q)
    (rally : hand.rally = (board.set p place queue).rally rounds)
    (runs : ∃ scheduler, (st.schedulers.modify Scenario.scheduler change).get? Scenario.scheduler = some scheduler ∧
      Runs workers (board.set p place queue) scheduler) :
    Shows rounds workers (board.set p place queue)
      (((hand.on p st).modifyTask p.task fun _ => task).modifyScheduler Scenario.scheduler change) := by
  have laid := shows.laid seated
  have older : ∀ f sheet, st.frames.get? f = some sheet → (withLetter st.frames hand.letter).get? f = some sheet := by
    intro f sheet known
    cases hand.letter with
    | none => exact known
    | some letter =>
      have old := ((st.frames.isSome_get?_iff f).1 (by simp [known])).2
      have apart : f ≠ ⟨st.frames.size + 2⟩ := fun same => by
        simp only [same] at old
        omega
      refine (get?_letter ..).trans ?_
      rw [if_neg apart, if_neg (Table.ne_next_of_get? known), known]
  refine shows.update (fun i => ?_) (fun t => ?_) older (fun f this => ?_) sent ?_ ?_ rfl runs (fun s known => ?_)
  · refine (Table.get?_modify ..).trans ?_
    rw [cell, shows.cell, seated]
    rfl
  · refine (get?_modifyTask ..).trans ?_
    rw [here, Hand.get?_task laid]
    refine if_congr Iff.rfl rfl (Table.get?_modify ..) |>.trans ?_
    split <;> rfl
  · obtain rfl : entry = f := Option.some.inj (begins.symm.trans this)
    exact older _ _ (shows.entry p _ (by rw [seated]; rfl))
  · refine (Hand.get?_lock laid hand).trans ?_
    rw [free]
    rfl
  · refine (Hand.get?_score laid hand).trans ?_
    rw [rally, closed]
  · exact shows.alone s ((isSome_modifyScheduler ..).symm.trans known)

/-- What the scheduler counts while a task is running. -/
theorem counts {w : Worker} (running : board.place p = .seated ⟨entry, .running w, turns⟩) :
    ∃ scheduler, st.schedulers.get? Scenario.scheduler = some scheduler ∧ 1 ≤ scheduler.tasks ∧ 1 ≤ scheduler.runnable := by
  obtain ⟨scheduler, found, runs⟩ := shows.scheduler
  have unfinished : (board.place p).unfinished = 1 := by rw [running]; rfl
  have runnable : (board.place p).runnable = 1 := by rw [running]; rfl
  have others := (board.place .ping).unfinished_nonneg
  have others' := (board.place .pong).unfinished_nonneg
  have ready := (board.place .ping).runnable_nonneg
  have ready' := (board.place .pong).runnable_nonneg
  refine ⟨scheduler, found, ?_, ?_⟩
  · rw [runs.tasks]
    cases p <;> omega
  · rw [runs.runnable]
    cases p <;> omega

/-- The frames of one more message. -/
theorem sent_one {place : Place} (shot : min place.turns rounds = board.shots rounds p + 1) (caller : FrameId) (q : Shot) :
    messages q (withLetter st.frames (some (delivered p caller (nextGuard st)))) =
      (board.set p place queue).shots rounds q := by
  have guard : sends q (delivered p caller (nextGuard st)).guard = false := rfl
  have body : sends q (delivered p caller (nextGuard st)).body = decide (p = q) := rfl
  simp only [withLetter, messages_add, guard, body, shows.sent, Board.shots_set]
  by_cases same : q = p
  · simp [same, shot]
  · simp [same, Ne.symm same]

variable {w : Worker} {after : Focus Datum Nat} {stack : List (Activation Datum Nat)}

/-- A player that has further shots to send runs. -/
theorem plays_on (running : board.place p = .seated ⟨entry, .running w, turns⟩)
    (more : turns + 1 < rounds) :
    ∃ st', Config.Rolls (Playing st.schedulers) 21 ⟨st, .trampoline p.task after, stack⟩ ⟨st', after, stack⟩ ∧
      Shows rounds workers (board.set p (.seated ⟨entry, .ready, turns + 1⟩)
        (board.queue ++ [p])) st' := by
  have shot : min (Place.seated ⟨entry, .ready, turns + 1⟩).turns rounds =
      board.shots rounds p + 1 := by
    simp only [Board.shots, running, Place.turns]
    omega
  let hand : Hand := ⟨Seat.task ⟨entry, .ready, turns⟩, entry, .unit, 2 * (turns + 1),
    some (delivered p entry (nextGuard st)), none, (board.rally rounds).count p, false⟩
  have run := @yields st p rounds entry after stack (board.rally rounds) (shows.laid running)
    (Seat.task ⟨entry, .running w, turns⟩) ⟨rfl, rfl, rfl, rfl⟩ turns more
  have begins := shows.dealt running
  rw [Seat.resumes, if_neg (by omega)] at begins
  rw [begins] at run
  have still : (hand.on p st).modifyTask p.task (fun _ => Seat.task ⟨entry, .ready, turns⟩) = hand.on p st :=
    Hand.modifyTask hand hand.base hand.top hand.value rfl
  refine ⟨(hand.on p st).modifyScheduler Scenario.scheduler fun s => { s with ready := s.ready.push p.task }, run, ?_⟩
  rw [← still]
  refine shows.put running hand ?_ rfl rfl rfl rfl (shows.sent_one shot _) (Board.rally_set_count shot).symm
    (shows.runs_set _ _ (fun _ => ⟨rfl, rfl, rfl, rfl⟩) (fun s => ?_) (fun s => ?_) fun s line => ?_)
  · simp only [Place.cell?, Seat.resumes, hand]
    rw [if_neg (by omega)]
  · rw [running]
    simp [Place.unfinished]
  · rw [running]
    simp [Place.runnable]
  · simp [line]

/-- The last run of a player. -/
theorem plays_last (running : board.place p = .seated ⟨entry, .running w, turns⟩)
    (last : rounds = turns + 1 ∨ rounds = 0 ∧ turns = 0) :
    ∃ n st' reply, n ≤ 21 ∧
      Config.Rolls (Playing st.schedulers) n ⟨st, .trampoline p.task after, stack⟩ ⟨st', after, stack⟩ ∧
      Shows rounds workers (board.set p (.seated ⟨entry, .done reply, turns + 1⟩)
        board.queue) st' ∧
      reply.toRally = (board.set p (.seated ⟨entry, .done reply, turns + 1⟩)
        board.queue).rally rounds := by
  have laid := shows.laid running
  have begins := shows.dealt running
  obtain ⟨scheduler, found, tasks, runnable⟩ := shows.counts running
  have fresh : Fresh (Seat.task ⟨entry, .running w, turns⟩) := ⟨rfl, rfl, rfl, rfl⟩
  cases last with
  | inl last =>
    have shot : min (Place.seated ⟨entry, .done (.rally ((board.rally rounds).count p)), turns + 1⟩).turns rounds = board.shots rounds p + 1 := by
      simp only [Board.shots, running, Place.turns]
      omega
    have run := @finishes st p rounds entry after stack (board.rally rounds) laid scheduler
      (Seat.task ⟨entry, .running w, turns⟩) fresh turns last.symm found tasks runnable
    rw [Seat.resumes, if_neg (by omega)] at begins
    rw [begins] at run
    refine ⟨20, _, .rally ((board.rally rounds).count p), by omega, run, ?_, (Board.rally_set_count shot).symm⟩
    refine shows.put running ⟨_, entry, .unit, 2 * (turns + 1), _, none, _, false⟩ ?_ rfl rfl rfl rfl
      (shows.sent_one shot _) (Board.rally_set_count shot).symm
      (shows.runs_set _ _ (fun _ => ⟨rfl, rfl, rfl, rfl⟩) (fun s => ?_) (fun s => ?_) fun _ => id)
    · simp only [Place.cell?, Seat.resumes]
      rw [if_neg (by omega)]
    · rw [running]
      simp [Place.unfinished]
    · rw [running]
      simp [Place.runnable]
  | inr idle =>
    obtain ⟨rfl, rfl⟩ := idle
    have nothing : ∀ board : Board, board.rally 0 = .initial := fun board => by simp [Board.rally, Board.shots, Rally.initial]
    have run := @abstains st p 0 entry after stack (board.rally 0) laid scheduler
      (Seat.task ⟨entry, .running w, 0⟩) fresh rfl found tasks runnable
    rw [Seat.resumes, if_pos rfl] at begins
    rw [begins] at run
    refine ⟨4, _, .unit, by omega, run, ?_, (nothing _).symm⟩
    refine shows.put running ⟨_, entry, .unit, 1, none, none, _, false⟩ rfl rfl rfl rfl rfl (fun q => ?_)
      ((nothing _).trans (nothing _).symm)
      (shows.runs_set _ _ (fun _ => ⟨rfl, rfl, rfl, rfl⟩) (fun s => ?_) (fun s => ?_) fun _ => id)
    · exact (shows.sent q).trans (by simp [Board.shots])
    · rw [running]
      simp [Place.unfinished]
    · rw [running]
      simp [Place.runnable]

/-- The host stops the scheduler when nobody is ready. -/
theorem stop (queue : board.queue = []) :
    ∃ st', st.stop Scenario.scheduler = .ok st' ∧ Shows rounds workers { board with isShutDown := true } st' := by
  obtain ⟨scheduler, known, runs⟩ := shows.scheduler
  have nobody : scheduler.ready.toList = [] := by rw [runs.queue, queue]; rfl
  refine ⟨st.modifyScheduler Scenario.scheduler fun s => { s with isShutDown := true, ready := .empty }, ?_, ?_⟩
  · refine bind_ok.2 ⟨scheduler, scheduler_ok.2 known, ?_⟩
    rw [nobody]
    rfl
  exact {
    cell := shows.cell
    task := shows.task
    entry := shows.entry
    sent := shows.sent
    free := shows.free
    counted := shows.counted
    serves := shows.serves
    scheduler := ⟨{ scheduler with isShutDown := true, ready := .empty }, by simp [modifyScheduler, known],
      runs.workers, runs.bound, rfl, runs.tasks, runs.runnable, runs.external, by simp [queue]⟩
    everyone := shows.everyone
    alone := fun s known => shows.alone s ((isSome_modifyScheduler ..).symm.trans known) }

end

end Shows

end Scenario.Pingpong

end Tasking
