import Tasking.Cli.Report
import Tasking.Cli.Style
import Tasking.Settings

/-! # The help text -/

namespace Tasking.Cli

/-- The name of the program. -/
def programName : String := "strand"

/-- The version of the program. -/
def programVersion : String := "0.1.0"

/-- The program's name and version. -/
def versionLine (d : Display) : String :=
  d.paint .bold programName ++ " " ++ d.paint .dimmed programVersion

/-- The help text, line by line. -/
def usageLines (d : Display) : List String :=
  let heading := d.paint .boldYellow
  let command := d.paint .green
  let argument := d.paint .cyan
  [ versionLine d ++ " - drive the strand scheduler with canned workloads",
    "",
    heading "Usage" ++ ": " ++ command programName ++ " " ++ argument "<command>" ++ " " ++
      argument "[options]",
    "",
    heading "Scenarios:",
    "  " ++ command "counter" ++ " " ++ argument "[--tasks N] [--workers N]" ++
      "  Tasks increment one shared counter",
    "  " ++ command "deadlock" ++ " " ++ argument "[--workers N]" ++
      "            Two tasks take two resources in opposite order",
    "  " ++ command "pingpong" ++ " " ++ argument "[--rounds N] [--workers N]" ++
      "  Two tasks message one actor in turns",
    "",
    heading "Other:",
    "  " ++ command "help" ++ "      Show this help",
    "  " ++ command "version" ++ "   Show version",
    "",
    heading "Environment:",
    "  " ++ argument Settings.workersVariable ++
      "                 Worker threads (default: available cores)",
    "  " ++ argument Settings.detectionVariable ++ "      on/off (default: on)",
    "  " ++ argument "STRAND_LOG" ++
      "                     Log filter, e.g. debug or strand_rt=trace" ]

/-- The help text. -/
def usage (d : Display) : List Fragment := Fragment.lines (usageLines d)

end Tasking.Cli
