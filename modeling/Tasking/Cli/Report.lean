/-! # Reports

What a run of the command line prints, and the code with which it ends.  The time that a
scenario took is not known before it ran, so a report has it as a blank that is filled in
by whoever measured.
-/

namespace Tasking.Cli

/-- A part of printed text. -/
inductive Fragment where
  | text (s : String)
  /-- The time that the scenario took. -/
  | elapsed
  deriving DecidableEq

namespace Fragment

/-- The text of some fragments, with the time filled in. -/
def render (elapsed : String) (fragments : List Fragment) : String :=
  String.join (fragments.map fun
    | .text s => s
    | .elapsed => elapsed)

/-- Lines of plain text. -/
def lines (ls : List String) : List Fragment := ls.map fun l => .text (l ++ "\n")

end Fragment

/-- What a run prints, and its exit code. -/
structure Report where
  code : Nat
  output : List Fragment
  errors : String
  deriving DecidableEq

namespace Report

/-- The report of a scenario that ran: code zero if it passed, one if not. -/
def ofScenario (passed : Bool) (output : List Fragment) : Report :=
  ⟨if passed then 0 else 1, output, ""⟩

/-- All that was printed to standard output. -/
def standardOutput (r : Report) (elapsed : String) : String := Fragment.render elapsed r.output

end Report

end Tasking.Cli
