import RobotMaze.CommandLine.Options
import RobotMaze.Storage.Store
import RobotMaze.Terminal.Run

/-!
# The command line

A command line names a level and a program, and asks to run one on the other or to check the program
alone. With a directory of solutions, the program is saved there under the name of the level, and a
command line without a program runs what was saved.

`CommandLine.run` is a function of the arguments, the settings, the files and the standard input. It
gives the events of the run, the exit code or the error that broke the run off, and the files after
it.
-/

namespace RobotMaze

namespace CommandLine

open Text

/-- How the command is called. -/
def usage : String :=
  "usage: hlang [-h] [--solutions DIR] [--delay DELAY] [--max-steps MAX_STEPS]\n" ++
  "             [--max-depth MAX_DEPTH] [--quiet] [--check] [--no-color]\n" ++
  "             [--log-level \x7bDEBUG,INFO,WARNING,ERROR\x7d]\n" ++
  "             level [program]\n"

/-- The help text. -/
def help : String :=
  usage ++ "\n" ++
  "Run an h-language program on a robot maze level.\n" ++
  "\n" ++
  "positional arguments:\n" ++
  "  level                 level file (rows of . * o u A-K)\n" ++
  "  program               program file, '-' for stdin; omitted: saved solution\n" ++
  "\n" ++
  "options:\n" ++
  "  -h, --help            show this help message and exit\n" ++
  "  --solutions DIR       directory of saved solutions to load from / save to\n" ++
  "  --delay DELAY         seconds between frames\n" ++
  "  --max-steps MAX_STEPS\n" ++
  "  --max-depth MAX_DEPTH\n" ++
  "  --quiet               only print the final board\n" ++
  "  --check               report program diagnostics and exit\n" ++
  "  --no-color\n" ++
  "  --log-level \x7bDEBUG,INFO,WARNING,ERROR\x7d\n"

/-- What is printed about a mistake in the arguments. -/
def complaintAbout (e : UsageError) : String := usage ++ s!"hlang: error: {e.message}\n"

/-- Why a command breaks off without an exit code. -/
inductive Failure where
  | terminal (e : Terminal.ShowError)
  | storage (e : StorageError)
  /-- The log level that was set is none. -/
  | unknownLogLevel (name : Text)
  | blankLogLevel
deriving DecidableEq, Repr

/-- The wording of the error. -/
def Failure.message : Failure → String
  | .terminal e => e.message
  | .storage e => e.message
  | .unknownLogLevel name => s!"Unknown level: {quotedString name}"
  | .blankLogLevel => "Level not an integer or a valid string: []"

/-- How a command ends. -/
inductive Ending where
  | exit (code : Nat)
  | failed (e : Failure)
deriving DecidableEq, Repr

/-- What a command reads and writes. -/
structure World where
  files : FileTree := {}
  /-- What is left to read of the standard input. -/
  input : Text := []
deriving DecidableEq, Repr

/-- A computation on the world, which may end early. -/
abbrev Task := ExceptT Ending (StateT World Recorded)

/-- Runs a recorded computation as part of a task. -/
def Task.ofRecorded {α : Type} (x : Recorded α) : Task α :=
  liftM (liftM x : StateT World Recorded α)

/-- Shows something as part of a task. -/
def Task.ofShowing {α : Type} (x : Terminal.Showing α) : Task α := do
  match ← Task.ofRecorded x.run with
  | .ok a => return a
  | .error e => throw (.failed (.terminal e))

/-- The least rank of the records that a log level lets through. -/
def threshold? (name : Text) : Option Nat :=
  [("CRITICAL", 50), ("FATAL", 50), ("ERROR", 40), ("WARN", 30), ("WARNING", 30), ("INFO", 20),
    ("DEBUG", 10), ("NOTSET", 0)].lookup (String.ofList name)

/-- The least rank of the records that are shown under the options given. -/
def Options.threshold (o : Options) : Except Failure Nat :=
  match o.logLevel with
  | none => .error .blankLogLevel
  | some name =>
    match threshold? name with
    | none => .error (.unknownLogLevel name)
    | some threshold => .ok threshold

/-- Prints an error that has no place in a program, and ends with exit code 1. -/
def abort {α : Type} (renderer : Renderer) (message : String) (notes : List String) : Task α := do
  Task.ofShowing (Terminal.report renderer ⟨[], []⟩ { severity := "error", message, notes })
  throw (.exit 1)

/-- Reads the whole standard input; a second reading finds it empty. -/
def readInput : Task Text := do
  let world ← get
  set { world with input := [] }
  return unifyNewlines world.input

/-- Reads a file, or the standard input for a dash. -/
def readSource (renderer : Renderer) (path : Text) (what : String) : Task Text := do
  if path = ['-'] then readInput
  else match (← get).files.readText path with
    | .ok t => return t
    | .error (.file e p) =>
      let reason := (StorageError.file e p).message
      abort renderer s!"cannot read {what}: {reason}" []
    | .error e => throw (.failed (.storage e))

/-- Saves a solution. -/
def save (dir : Path) (key program : Text) : Task Unit := do
  let world ← get
  let (files, e) ← Task.ofRecorded (SolutionStore.write world.files dir key program)
  set { world with files }
  match e with
  | none => return ()
  | some e => throw (.failed (.storage e))

/-- The directory of solutions; an empty name stands for none. -/
def Options.solutionDirectory (o : Options) : Option Path :=
  (o.solutions.filter (!·.isEmpty)).map Path.ofText

/-- The program that a command is about: the one named, which is saved if there is a directory for
it, or else the one saved before. -/
def program (renderer : Renderer) (o : Options) (key : Text) : Task Terminal.Source :=
  match o.program, o.solutionDirectory with
  | some path, dir => do
    let text ← readSource renderer path "program"
    match dir with
    | none => return ⟨text, path⟩
    | some dir => do
      save dir key text
      return ⟨text, path⟩
  | none, some dir => do
    match SolutionStore.read (← get).files dir key with
    | .ok text => return ⟨text, key ++ " (saved)".toList⟩
    | .error e => throw (.failed (.storage e))
  | none, none =>
    abort renderer "no program given" ["pass a program file or --solutions DIR"]

/-- The text of the level. A file with the suffix of levels is looked for as a level first. -/
def levelText (renderer : Renderer) (o : Options) : Task Text := do
  let path := Path.ofText o.level
  if path.suffix = ".txt".toList then
    match ← Task.ofRecorded (LevelSource.read (← get).files path.parent path.stem) with
    | .ok (some level) => return level
    | .ok none => readSource renderer o.level "level"
    | .error e => throw (.failed (.storage e))
  else readSource renderer o.level "level"

/-- Prints the diagnostics of a program; the exit code tells whether one is more than a note. -/
def checkOnly (renderer : Renderer) (source : Terminal.Source) : Task Nat := do
  let diagnostics := Check.diagnostics source.text
  Task.ofShowing (diagnostics.forM (Terminal.report renderer source))
  return if diagnostics.any fun d => d.severity = "error" || d.severity = "warning" then 1 else 0

/-- Carries out a command with its options. -/
def execute (settings : Settings) (useColor : Bool) (o : Options) : Task Nat := do
  let renderer : Renderer := { theme := ⟨useColor && !o.noColor⟩ }
  let source ← program renderer o (Path.ofText o.level).stem
  if o.check then checkOnly renderer source
  else
    let level ← levelText renderer o
    let final ← Task.ofShowing (Terminal.run
      { gridSize := settings.gridSize, maxDepth := o.maxDepth, maxSteps := o.maxSteps,
        delay := o.delay, quiet := o.quiet, renderer } source level)
    Task.ofRecorded (Recorded.emit [.elapsed .info "interpreter"])
    return if final.isWon then 0 else 1

/-- The paths that a command with these options may read or write. -/
def Options.paths (o : Options) : List Path :=
  let level := Path.ofText o.level
  let solutions := o.solutionDirectory.toList.flatMap fun dir =>
    [dir, SolutionStore.path dir level.stem]
  level :: (o.program.map Path.ofText).toList ++ solutions

/-- Whether a command with these options may read the standard input. -/
def Options.readsInput (o : Options) : Bool := o.level = ['-'] || o.program = some ['-']

/-- What a command comes to. -/
structure Result where
  ending : Ending
  /-- The world after the command. -/
  world : World
  events : List Event
  /-- The least rank of the log records that are shown. -/
  threshold : Nat
  /-- The time between frames. -/
  delay : Decimal := .zero

/-- Runs a command line. -/
def run (settings : Settings) (useColor : Bool) (world : World) (arguments : List Text) :
    Result :=
  match parse settings arguments with
  | .error e =>
    { ending := .exit 2, world, events := [.complain (complaintAbout e).toList], threshold := 0 }
  | .ok .help => { ending := .exit 0, world, events := [.print help.toList], threshold := 0 }
  | .ok (.run o) =>
    match o.threshold with
    | .error e => { ending := .failed e, world, events := [], threshold := 0 }
    | .ok threshold =>
      let result := ((execute settings useColor o).run).run world
      let ending :=
        match result.value.1 with
        | .ok code => .exit code
        | .error ending => ending
      { ending, world := result.value.2, events := result.events, threshold
        delay := o.delay.getD .zero }

end CommandLine

end RobotMaze
