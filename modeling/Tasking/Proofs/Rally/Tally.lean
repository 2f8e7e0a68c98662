import Tasking.Cli.Summary
import Tasking.Proofs.Rally.Board

/-! # The tally

Each player has so many runs to make, and the replies that the players finish with are older than the state of the
actor.  The player that finishes last has the newest one, so the state of the actor can be told from the two replies
(`Fair.tallied`).
-/

namespace Tasking.Scenario.Pingpong

open State

/-- How many runs a player makes: one for each of its shots, and one if it has none. -/
def runsOf (rounds : Nat) : Nat := max rounds 1

namespace Place

/-- What the player has finished with. -/
def reply? : Place → Option Datum
  | seated ⟨_, .done reply, _⟩ => some reply
  | _ => none

def isReady : Place → Bool
  | seated ⟨_, .ready, _⟩ => true
  | _ => false

def isRunning : Place → Bool
  | seated ⟨_, .running _, _⟩ => true
  | _ => false

end Place

/-- No shot of a player is missing in the other. -/
def Rally.Within (r s : Rally) : Prop := r.pings ≤ s.pings ∧ r.pongs ≤ s.pongs

/-- Who is ready is in line, who made all of its runs has finished, and the last reply has all the shots. -/
structure Fair (rounds : Nat) (board : Board) : Prop where
  queue : ∀ p, p ∈ board.queue ↔ (board.place p).isReady = true
  nodup : board.queue.Nodup
  turns : ∀ p, (board.place p).turns ≤ runsOf rounds
  complete : ∀ p, (board.place p).reply?.isSome = true ↔ (board.place p).turns = runsOf rounds
  replies : ∀ p reply, (board.place p).reply? = some reply → reply.toRally.Within (board.rally rounds)
  last : (∀ p, (board.place p).reply?.isSome = true) →
    ∃ p reply, (board.place p).reply? = some reply ∧ reply.toRally = board.rally rounds

namespace Fair

variable {rounds : Nat} {board : Board} {p q : Shot} {place : Place} {queue : List Shot}

theorem rally_mono (turns : (board.place p).turns ≤ place.turns) :
    (board.rally rounds).Within ((board.set p place queue).rally rounds) := by
  have more : ∀ q, board.shots rounds q ≤ (board.set p place queue).shots rounds q := fun q => by
    rw [Board.shots_set]
    split
    · next same =>
      rw [same, Board.shots]
      omega
    · exact le_refl _
  exact ⟨more .ping, more .pong⟩

/-- A player gets further.  If it finishes with that, its reply has all the shots. -/
theorem set (fair : Fair rounds board)
    (grows : (board.place p).turns ≤ place.turns) (few : place.turns ≤ runsOf rounds)
    (complete : place.reply?.isSome = true ↔ place.turns = runsOf rounds)
    (newest : ∀ reply, place.reply? = some reply → reply.toRally = (board.set p place queue).rally rounds)
    (nodup : queue.Nodup) (ready : p ∈ queue ↔ place.isReady = true)
    (others : ∀ q, q ≠ p → (q ∈ queue ↔ q ∈ board.queue)) : Fair rounds (board.set p place queue) where
  queue q := by
    by_cases same : q = p
    · rw [same, Board.place_set_self]
      exact ready
    · rw [Board.place_set_ne same, ← fair.queue]
      exact others q same
  nodup := nodup
  turns q := by
    by_cases same : q = p
    · rwa [same, Board.place_set_self]
    · rw [Board.place_set_ne same]
      exact fair.turns q
  complete q := by
    by_cases same : q = p
    · rwa [same, Board.place_set_self]
    · rw [Board.place_set_ne same]
      exact fair.complete q
  replies q reply here := by
    by_cases same : q = p
    · rw [same, Board.place_set_self] at here
      rw [newest reply here]
      exact ⟨le_refl _, le_refl _⟩
    · rw [Board.place_set_ne same] at here
      have old := fair.replies q reply here
      have grown : (board.rally rounds).Within ((board.set p place queue).rally rounds) := rally_mono grows
      exact ⟨old.1.trans grown.1, old.2.trans grown.2⟩
  last all := by
    have mine := all p
    rw [Board.place_set_self] at mine
    obtain ⟨reply, here⟩ := Option.isSome_iff_exists.1 mine
    exact ⟨p, reply, by rw [Board.place_set_self, here], newest reply here⟩

/-- A player gets further without a run. -/
theorem keep (fair : Fair rounds board) (unfinished : (board.place p).reply? = none)
    (turns : place.turns = (board.place p).turns) (going : place.reply? = none) (nodup : queue.Nodup)
    (ready : p ∈ queue ↔ place.isReady = true) (others : ∀ q, q ≠ p → (q ∈ queue ↔ q ∈ board.queue)) :
    Fair rounds (board.set p place queue) := by
  refine fair.set turns.ge (turns ▸ fair.turns p) ?_ (fun reply here => ?_) nodup ready others
  · rw [turns, going, ← fair.complete, unfinished]
  · rw [going] at here
    cases here

variable {entry : FrameId} {turns : Nat}

/-- A player whose run is not over is not in line. -/
theorem notMem (fair : Fair rounds board) (busy : (board.place p).isReady = false) : p ∉ board.queue := by
  rw [fair.queue, busy]
  exact Bool.false_ne_true

/-- A player makes a run and has more to make. -/
theorem goes_on (fair : Fair rounds board) {w : Worker} (running : board.place p = .seated ⟨entry, .running w, turns⟩)
    (more : turns + 1 < rounds) : Fair rounds (board.set p (.seated ⟨entry, .ready, turns + 1⟩) (board.queue ++ [p])) := by
  have absent : p ∉ board.queue := fair.notMem (by rw [running]; rfl)
  refine fair.set (by rw [running]; exact Nat.le_succ _) ?_ ?_ (fun reply here => by cases here) ?_ (by simp [Place.isReady]) ?_
  · exact more.le.trans (le_max_left _ _)
  · simp only [Place.reply?, Place.turns, runsOf, Option.isSome_none, Bool.false_eq_true, false_iff]
    omega
  · rw [List.nodup_append_comm]
    exact List.nodup_cons.2 ⟨absent, fair.nodup⟩
  · intro q other
    simp [other]

/-- A player makes its last run. -/
theorem ends (fair : Fair rounds board) {w : Worker} {reply : Datum}
    (running : board.place p = .seated ⟨entry, .running w, turns⟩) (last : turns + 1 = runsOf rounds)
    (newest : reply.toRally = (board.set p (.seated ⟨entry, .done reply, turns + 1⟩) board.queue).rally rounds) :
    Fair rounds (board.set p (.seated ⟨entry, .done reply, turns + 1⟩) board.queue) := by
  have absent : p ∉ board.queue := fair.notMem (by rw [running]; rfl)
  refine fair.set (by rw [running]; exact Nat.le_succ _) last.le ?_ ?_ fair.nodup ?_ fun _ _ => Iff.rfl
  · simpa [Place.reply?, Place.turns] using last
  · rintro _ ⟨⟩
    exact newest
  · simp [absent, Place.isReady]

end Fair

/-! ## What the replies say -/

theorem Rally.Within.eq {r s : Rally} (within : r.Within s) (total : s.total ≤ r.total) : r = s := by
  obtain ⟨pings, pongs⟩ := r
  obtain ⟨pings', pongs'⟩ := s
  simp only [Rally.Within, Rally.total] at within total
  simp only [Rally.mk.injEq]
  omega

/-- One of two replies has all the shots, and is found. -/
theorem latest_eq {r s whole : Rally} (first : r.Within whole) (second : s.Within whole) (last : r = whole ∨ s = whole) :
    latest [r, s] = whole := by
  have none : Rally.initial.Within whole := ⟨Nat.zero_le _, Nat.zero_le _⟩
  have zero : Rally.initial.total = 0 := rfl
  have bounds : r.total ≤ whole.total ∧ s.total ≤ whole.total :=
    ⟨Nat.add_le_add first.1 first.2, Nat.add_le_add second.1 second.2⟩
  have most : whole.total ≤ r.total ∨ whole.total ≤ s.total := by
    rcases last with rfl | rfl
    · exact .inl (le_refl _)
    · exact .inr (le_refl _)
  simp only [latest, List.foldl_cons, List.foldl_nil]
  split_ifs with some more more
  · exact second.eq (by omega)
  · exact first.eq (by omega)
  · exact second.eq (by omega)
  · exact none.eq (by omega)

/-- All runs were made, and every shot was counted: both players are done, have sent a message in each round, and the
reply that the command selects is the state of the actor. -/
structure Tallied (rounds : Nat) (st : State Datum Nat) : Prop where
  done : ∀ p, ∃ task reply, st.tasks.get? (Shot.task p) = some task ∧ task.life = .done ∧ task.outcome = some (.done reply)
  sent : ∀ p, messages p st.frames = rounds
  counted : st.exclusives.get? score = some ⟨lock, .rally ⟨rounds, rounds⟩, false⟩
  selected : ∃ first second, outcomes st = [some first, some second] ∧
    ∃ found, replies [first, second] = .ok found ∧ latest found = ⟨rounds, rounds⟩

/-- There are two tasks, and these are their outcomes. -/
theorem Shows.outcomes {rounds workers : Nat} {board : Board} {st : State Datum Nat} {first second : Task Datum}
    (shows : Shows rounds workers board st) (ping : (board.place .ping).task? = some first)
    (pong : (board.place .pong).task? = some second) : outcomes st = [first.outcome, second.outcome] := by
  have first' : st.tasks.entries[0]? = some first := (shows.task .ping).trans ping
  have second' : st.tasks.entries[1]? = some second := (shows.task .pong).trans pong
  have third : st.tasks.get? ⟨3⟩ = none := by
    by_contra known
    obtain ⟨p, same⟩ := shows.everyone ⟨3⟩ (Option.isSome_iff_ne_none.2 known)
    cases p <;> cases same
  have few : ¬ 3 ≤ st.tasks.size := fun enough => by
    have known := (st.tasks.isSome_get?_iff ⟨3⟩).2 ⟨by decide, enough⟩
    rw [third] at known
    cases known
  have enough := ((st.tasks.isSome_get?_iff ⟨2⟩).1 (by rw [show (⟨2⟩ : TaskId) = Shot.pong.task from rfl, shows.task, pong]; rfl)).2
  have size : st.tasks.entries.size = 2 := by
    simp only [Table.size] at few enough
    omega
  have entries : st.tasks.entries.toList = [first, second] := by
    refine List.ext_getElem? fun i => ?_
    rw [Array.getElem?_toList]
    rcases i with _ | _ | i
    · exact first'
    · exact second'
    · simp [size]
  simp [Scenario.outcomes, entries]

/-- When all runs were made, every shot was counted. -/
theorem Fair.tallied {rounds workers : Nat} {board : Board} {st : State Datum Nat} (fair : Fair rounds board)
    (shows : Shows rounds workers board st) (complete : ∀ p, (board.place p).turns = runsOf rounds) : Tallied rounds st := by
  have finished : ∀ p, ∃ entry reply, board.place p = .seated ⟨entry, .done reply, runsOf rounds⟩ := fun p => by
    have done := (fair.complete p).2 (complete p)
    have turns := complete p
    revert done turns
    cases board.place p with
    | seated seat =>
      obtain ⟨entry, spawned | ready | running | reply, turns⟩ := seat
      case done =>
        rintro _ rfl
        exact ⟨entry, reply, rfl⟩
      all_goals rintro ⟨⟩
    | absent | counting | framed => rintro ⟨⟩
  have shots : ∀ p, board.shots rounds p = rounds := fun p => by
    rw [Board.shots, complete p, runsOf]
    omega
  have whole : board.rally rounds = ⟨rounds, rounds⟩ := by rw [Board.rally, shots, shots]
  obtain ⟨entry, first, ping⟩ := finished .ping
  obtain ⟨entry', second, pong⟩ := finished .pong
  refine ⟨fun p => ?_, fun p => (shows.sent p).trans (shots p), whole ▸ shows.counted, .done first, .done second,
    shows.outcomes (congrArg Place.task? ping) (congrArg Place.task? pong), _, rfl, ?_⟩
  · obtain ⟨entry, reply, here⟩ := finished p
    exact ⟨_, reply, (shows.task p).trans (congrArg Place.task? here), rfl, rfl⟩
  · have mine : (board.place .ping).reply? = some first := congrArg Place.reply? ping
    have other : (board.place .pong).reply? = some second := congrArg Place.reply? pong
    refine latest_eq (whole ▸ fair.replies .ping first mine) (whole ▸ fair.replies .pong second other) ?_
    obtain ⟨p, reply, here, newest⟩ := fair.last fun p => by cases p <;> simp only [mine, other, Option.isSome_some]
    rw [whole] at newest
    cases p with
    | ping =>
      obtain rfl := Option.some.inj (mine.symm.trans here)
      exact .inl newest
    | pong =>
      obtain rfl := Option.some.inj (other.symm.trans here)
      exact .inr newest

/-- The report that every shot was counted, and that all is well. -/
def fullScore (d : Cli.Display) (rounds : Nat) (load : Load) : Cli.Report where
  code := 0
  output :=
    Cli.timed ("  " ++ d.paint .dimmed "rally" ++ " pings=" ++ toString rounds ++ " pongs=" ++ toString rounds) ++
      Cli.Fragment.lines [Cli.loadLine d load, d.banner "pingpong" none]
  errors := ""

theorem Tallied.report {rounds : Nat} {st : State Datum Nat} (tallied : Tallied rounds st) (d : Cli.Display) (load : Load) :
    Cli.rallyReport d ⟨rounds, outcomes st, load⟩ = fullScore d rounds load := by
  obtain ⟨first, second, both, found, replied, newest⟩ := tallied.selected
  simp [Cli.rallyReport, both, replied, newest, Result.accepts, Cli.Report.ofScenario, fullScore]

end Tasking.Scenario.Pingpong
