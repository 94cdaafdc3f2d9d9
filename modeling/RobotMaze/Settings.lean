import RobotMaze.Numeral
import RobotMaze.Text.Quoted
import RobotMaze.Text.UpperCase
import RobotMaze.Transcript

/-!
# Settings

Limits and the log level have defaults that environment variables override. A variable that is blank
counts as not set; one that should be an integer and is not is ignored with a warning.
-/

namespace RobotMaze

open Text

/-- What can be set from outside. -/
structure Settings where
  /-- Boards have this many rows and columns. -/
  gridSize : Int := 25
  /-- Calls from frames deeper than this fail. -/
  maxDepth : Int := 1000
  /-- A run is stopped when this many instructions have been applied. -/
  maxSteps : Int := 10000
  /-- The name of the least important level that is logged. -/
  logLevel : Text := "WARNING".toList
deriving DecidableEq, Repr

namespace Settings

/-- Variables and their values. -/
abbrev Environment := List (Text × Text)

/-- The integer that a variable is set to, or a default. -/
def integer (env : Environment) (name : String) (default : Int) : Recorded Int :=
  match env.lookup name.toList with
  | none => return default
  | some raw =>
    if (trim raw).isEmpty then return default
    else match Numeral.integer? raw with
      | some n => return n
      | none => do
        Recorded.log [⟨.warning, "config",
          s!"ignoring {name}={quotedString raw}: not an integer"⟩]
        return default

/-- The settings that an environment gives. -/
def ofEnvironment (env : Environment) : Recorded Settings := do
  let default : Settings := {}
  let gridSize ← integer env "HLANG_GRID_SIZE" default.gridSize
  let maxDepth ← integer env "HLANG_MAX_DEPTH" default.maxDepth
  let maxSteps ← integer env "HLANG_MAX_STEPS" default.maxSteps
  let logLevel := upperCase ((env.lookup "HLANG_LOG_LEVEL".toList).getD default.logLevel)
  return { gridSize, maxDepth, maxSteps, logLevel }

end Settings

end RobotMaze
