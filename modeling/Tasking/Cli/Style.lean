/-! # Styled words

Words of a report can be set off by weight and colour.  A style is a list of codes; on a
display without colour it has no effect.  Whether there is colour is decided by three
variables, for output that does not go to a terminal.
-/

namespace Tasking.Cli

/-- The codes that switch a style on. -/
structure Style where
  codes : List Nat
  deriving DecidableEq

namespace Style

def bold : Style := ⟨[1]⟩
def dimmed : Style := ⟨[2]⟩
def red : Style := ⟨[31]⟩
def green : Style := ⟨[32]⟩
def cyan : Style := ⟨[36]⟩
def boldRed : Style := ⟨[1, 31]⟩
def boldGreen : Style := ⟨[1, 32]⟩
def boldYellow : Style := ⟨[1, 33]⟩

end Style

/-- Whether output has colour. -/
structure Display where
  colour : Bool
  deriving DecidableEq

namespace Display

/-- The display that the environment asks for: `NO_COLOR` wins over `FORCE_COLOR`, and both
    count when they are set at all; `CLICOLOR_FORCE` counts unless it is zero. -/
def ofEnvironment (valueOf : String → Option String) : Display :=
  if (valueOf "NO_COLOR").isSome then ⟨false⟩
  else if (valueOf "FORCE_COLOR").isSome then ⟨true⟩
  else ⟨(valueOf "CLICOLOR_FORCE").any (· ≠ "0")⟩

/-- A word in a style. -/
def paint (d : Display) (style : Style) (word : String) : String :=
  if d.colour then
    "\x1b[" ++ ";".intercalate (style.codes.map toString) ++ "m" ++ word ++ "\x1b[0m"
  else
    word

/-- The mark of a good or a bad line. -/
def status (d : Display) (good : Bool) : String :=
  if good then d.paint .green "✓" else d.paint .red "✗"

/-- The closing line of a scenario: the reason for which it failed, if it failed. -/
def banner (d : Display) (scenario : String) (failure : Option String) : String :=
  let text := match failure with
    | none => d.paint .boldGreen (scenario ++ " OK")
    | some reason => d.paint .boldRed (scenario ++ " FAILED: " ++ reason)
  d.paint .dimmed "===" ++ " " ++ text ++ " " ++ d.paint .dimmed "==="

end Display

end Tasking.Cli
