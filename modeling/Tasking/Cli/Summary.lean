import Tasking.Cli.Report
import Tasking.Cli.Style
import Tasking.Scenario.Counter
import Tasking.Scenario.Pingpong
import Tasking.Scenario.Ring

/-! # What is printed about a scenario

Each scenario gets a line or two about what came of it, a line about the scheduler, and a
banner that says whether it passed and, if not, what was expected.
-/

namespace Tasking.Cli

open Scenario

/-- The line about the scheduler. -/
def loadLine (d : Display) (load : Load) : String :=
  "  " ++ d.paint .dimmed "scheduler" ++
    " workers=" ++ toString load.workers ++
    " tasks=" ++ toString load.stats.tasks ++
    " runnable=" ++ toString load.stats.runnable ++
    " external=" ++ toString load.stats.external ++
    " blocked=" ++ toString load.stats.blocked ++
    " queued=" ++ toString load.stats.ready

/-- A line with the elapsed time in parentheses at its end. -/
def timed (text : String) : List Fragment :=
  [.text (text ++ " ("), .elapsed, .text ")\n"]

/-- The report of a scenario that did not come to an end. -/
def stuck (d : Display) (scenario reason : String) : Report :=
  .ofScenario false (Fragment.lines [d.banner scenario (some reason)])

/-- The report on the shared counter. -/
def counterReport (d : Display) (r : Counter.Result) : Report :=
  if r.finished then
    let failure :=
      if r.passed then none
      else some ("expected " ++ toString r.tasks ++ ", got " ++ toString r.total.toNat)
    .ofScenario r.passed
      (timed ("  " ++ d.status r.passed ++ " " ++ toString r.tasks ++ " tasks, counter = " ++
          toString r.total.toNat) ++
        Fragment.lines [loadLine d r.load, d.banner "counter" failure])
  else
    stuck d "counter" "tasks did not finish"

/-- Whether a task was refused its second resource. -/
def wasRefused : Outcome Unit → Bool
  | .failed ⟨_, .deadlock _⟩ => true
  | _ => false

/-- The line about one task of a ring. -/
def ringLine (d : Display) (name : String) (t : TaskId) (outcome : Outcome Unit) : String :=
  let task := " " ++ name ++ " " ++ d.paint .cyan t.text ++ " "
  match outcome with
  | .done _ => "  " ++ d.status true ++ task ++ "finished holding both"
  | .failed ⟨_, .deadlock refusal⟩ => "  " ++ d.status true ++ task ++ refusal.message
  | .failed ⟨_, error⟩ => "  " ++ d.status false ++ task ++ "failed: " ++ error.message

/-- The lines about the tasks of a ring, numbered from `first`. -/
def ringLines (d : Display) (first : Nat) : List (String × Outcome Unit) → List String
  | [] => []
  | (name, outcome) :: rest =>
    ringLine d name ⟨first⟩ outcome :: ringLines d (first + 1) rest

/-- The report on two tasks that take two resources in opposite order. -/
def ringReport (d : Display) (names : List String) (r : Ring.Result) : Report :=
  match r.outcomes.mapM id with
  | none => stuck d "deadlock" "tasks hung"
  | some outcomes =>
    let refused := outcomes.countP wasRefused
    let done := outcomes.countP Outcome.isDone
    let passed := refused = 1 && done = 1 && r.released
    let failure :=
      if passed then none
      else some (toString refused ++ " deadlock(s), " ++ toString done ++
        " finished, resources released: " ++ Text.flag r.released)
    .ofScenario passed
      (Fragment.lines
        (ringLines d 1 (names.zip outcomes) ++
          [loadLine d r.load, d.banner "deadlock" failure]))

/-- The report on a rally. -/
def rallyReport (d : Display) (r : Pingpong.Result) : Report :=
  match r.outcomes.mapM id with
  | none => stuck d "pingpong" "players did not finish"
  | some outcomes =>
    match Pingpong.replies outcomes with
    | .error failure => stuck d "pingpong" failure.message
    | .ok replies =>
      let last := Pingpong.latest replies
      let passed := r.accepts last
      let failure :=
        if passed then none else some ("expected " ++ toString r.rounds ++ " each way")
      .ofScenario passed
        (timed ("  " ++ d.paint .dimmed "rally" ++ " pings=" ++ toString last.pings ++
            " pongs=" ++ toString last.pongs) ++
          Fragment.lines [loadLine d r.load, d.banner "pingpong" failure])

end Tasking.Cli
