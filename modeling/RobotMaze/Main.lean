import RobotMaze.CommandLine.Run

/-!
# The executable

The executable fetches what a command may read, runs the command as a function, shows its events and
writes the files that it changed. Nothing is decided here.
-/

namespace RobotMaze

namespace Executable

/-- The variables that settings are read from, with their values. -/
def environment : IO Settings.Environment :=
  ["HLANG_GRID_SIZE", "HLANG_MAX_DEPTH", "HLANG_MAX_STEPS", "HLANG_LOG_LEVEL"].filterMapM
    fun name => do return (← IO.getEnv name).map fun value => (name.toList, value.toList)

/-- What the file system has at a path. -/
def entryAt (path : String) : IO (Option Entry) := do
  try
    return some (.file (← IO.FS.readBinFile path).toList)
  catch _ =>
    try
      let _ ← IO.FS.withFile (path ++ "/.") .read fun _ => pure ()
      return some .directory
    catch _ => return none

/-- Adds to a tree what the file system has on the way to a path. -/
def fetch (tree : FileTree) (path : Path) : IO FileTree :=
  (List.range path.parts.length).foldlM
    (fun tree n => do
      let here := ({ path with parts := path.parts.take (n + 1) } : Path).toText
      match tree.resolve here, ← entryAt (String.ofList here) with
      | .ok location, some entry => return tree.insert location entry
      | _, _ => return tree)
    tree

/-- Everything that a stream has to give. -/
partial def readAll (stream : IO.FS.Stream) (before : String) : IO String := do
  let line ← stream.getLine
  if line.isEmpty then return before else readAll stream (before ++ line)

/-- What a command with these arguments may read. -/
def world (settings : Settings) (arguments : List Text) : IO CommandLine.World := do
  match CommandLine.parse settings arguments with
  | .ok (.run o) =>
    let input ← if o.readsInput then readAll (← IO.getStdin) "" else pure ""
    return { files := ← o.paths.foldlM fetch {}, input := input.toList }
  | _ => return {}

/-- Writes what a command has changed. -/
def store (before after : FileTree) : IO Unit :=
  after.entries.reverse.forM fun (location, entry) => do
    unless before.get? location = some entry do
      let path := String.ofList location.toText
      match entry with
      | .directory => IO.FS.createDirAll path
      | .file contents => IO.FS.writeBinFile path ⟨contents.toArray⟩

/-- A time in seconds, with three decimals. -/
def seconds (milliseconds : Nat) : String :=
  let fraction := toString (milliseconds % 1000)
  s!"{milliseconds / 1000}." ++ String.ofList (List.replicate (3 - fraction.length) '0') ++ fraction

/-- Shows the events of a command, one after the other. -/
def play (result : CommandLine.Result) (started : Nat) : IO Unit :=
  result.events.forM fun event => do
    match event with
    | .pause =>
      if result.delay.isPositive then IO.sleep (UInt32.ofNatClamp result.delay.milliseconds)
    | .print text =>
      IO.print (String.ofList text)
      (← IO.getStdout).flush
    | event =>
      let time := seconds ((← IO.monoMsNow) - started)
      IO.eprint (String.ofList (Event.errorOutput result.threshold time [event]))

/-- Runs the command line. -/
def run (args : List String) : IO UInt32 := do
  let started ← IO.monoMsNow
  let loaded := Settings.ofEnvironment (← environment)
  let arguments := args.map String.toList
  let before ← world loaded.value arguments
  let useColor ← (← IO.getStdout).isTty
  let result := CommandLine.run loaded.value useColor before arguments
  IO.eprint (String.ofList (Event.errorOutput LogLevel.warning.rank "" loaded.events))
  play result started
  store before.files result.world.files
  match result.ending with
  | .exit code => return UInt32.ofNat code
  | .failed e =>
    IO.eprintln s!"error: {e.message}"
    return 1

end Executable

end RobotMaze

/-- Runs the command line. -/
def main (args : List String) : IO UInt32 := RobotMaze.Executable.run args
