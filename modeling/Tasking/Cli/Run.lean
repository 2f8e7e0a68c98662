import Tasking.Cli.Options
import Tasking.Cli.Summary
import Tasking.Cli.Usage

/-! # The command line

`run` takes the arguments and the environment, and gives all that is printed and the exit
code: zero if all went well, one for an unknown command or a scenario that failed, two for
arguments or settings that are refused.  A scenario starts only when everything it was
given is accepted.
-/

namespace Tasking.Cli

/-- The scenarios. -/
inductive Workload where
  | counter | deadlock | pingpong
  deriving DecidableEq

namespace Workload

/-- The option that gives the size of a scenario, and the size without it. -/
def sizeOption : Workload → Option (String × Nat)
  | counter => some ("tasks", 100)
  | deadlock => none
  | pingpong => some ("rounds", 1000)

/-- The option that gives the number of workers. -/
def workersOption : String := "workers"

/-- The options of a scenario. -/
def options (w : Workload) : List String :=
  (w.sizeOption.map (·.1)).toList ++ [workersOption]

/-- The size of a scenario. -/
def size (w : Workload) (o : Options) : Except Complaint Nat :=
  match w.sizeOption with
  | none => .ok 0
  | some (name, otherwise) => (o.number? name).map (·.getD otherwise)

end Workload

/-- A scenario with everything it needs to start. -/
structure Plan where
  workload : Workload
  size : Nat
  settings : Settings
  deriving DecidableEq

/-- Make a plan from the arguments of a scenario, or complain about the first thing that is
    wrong: a pair of arguments, the size, the number of workers, the settings. -/
def Plan.make (w : Workload) (valueOf : String → Option String) (arguments : List String) :
    Except Complaint Plan := do
  let o ← Options.ofArguments w.options arguments
  let size ← w.size o
  let workers ← o.number? Workload.workersOption
  match chosenSettings valueOf workers with
  | .ok settings => pure ⟨w, size, settings⟩
  | .error e => throw (.host e)

/-- The resources of the scenario `deadlock`. -/
def ringResources : List String := ["x", "y"]

/-- The tasks of the scenario `deadlock`. -/
def ringTasks : List String := ["a", "b"]

/-- Run a scenario. -/
def Plan.report (d : Display) (parallelism : Nat) (plan : Plan) : Report :=
  match plan.workload with
  | .counter => counterReport d (Scenario.Counter.run plan.settings parallelism plan.size)
  | .deadlock =>
    ringReport d ringTasks (Scenario.Ring.run plan.settings parallelism ringResources)
  | .pingpong => rallyReport d (Scenario.Pingpong.run plan.settings parallelism plan.size)

/-- What the first argument asks for. -/
inductive Command where
  | usage
  | version
  | scenario (w : Workload)
  | unknown (word : String)
  deriving DecidableEq

/-- What a word asks for. -/
def Command.ofWord (word : String) : Command :=
  if word = "counter" then .scenario .counter
  else if word = "deadlock" then .scenario .deadlock
  else if word = "pingpong" then .scenario .pingpong
  else if word ∈ ["help", "--help", "-h"] then .usage
  else if word ∈ ["version", "--version", "-V"] then .version
  else .unknown word

/-- A line about an error. -/
def errorLine (d : Display) (message : String) : String :=
  d.paint .boldRed "error" ++ ": " ++ message ++ "\n"

/-- Run a scenario with its arguments, or complain about them. -/
def runScenario (d : Display) (valueOf : String → Option String) (parallelism : Nat)
    (w : Workload) (arguments : List String) : Report :=
  match Plan.make w valueOf arguments with
  | .ok plan => plan.report d parallelism
  | .error complaint => ⟨2, [], errorLine d complaint.message⟩

/-- Run the command line on a machine that runs `parallelism` threads at once. -/
def run (valueOf : String → Option String) (parallelism : Nat) (arguments : List String) :
    Report :=
  let d := Display.ofEnvironment valueOf
  match arguments with
  | [] => ⟨0, usage d, ""⟩
  | word :: rest =>
    match Command.ofWord word with
    | .usage => ⟨0, usage d, ""⟩
    | .version => ⟨0, Fragment.lines [versionLine d], ""⟩
    | .scenario w => runScenario d valueOf parallelism w rest
    | .unknown word => ⟨1, usage d, errorLine d ("unknown command `" ++ word ++ "`") ++ "\n"⟩

end Tasking.Cli
