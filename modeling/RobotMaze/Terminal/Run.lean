import RobotMaze.Check.Diagnostics
import RobotMaze.Diagnostic.Render
import RobotMaze.Session
import RobotMaze.Terminal.Draw

/-!
# Running a program in a terminal

`Terminal.run` prints what the checks find in a program, plays the program on a level with a drawing
of every snapshot, explains a recursion that went too deep, and ends with a verdict. In quiet mode
only the last board is drawn.

## Blank settings

The limits of a run and the time between its frames may be left blank. A blank setting is no mistake
before the run needs it: the step limit is needed to begin, the depth limit for the first call, and
the time for the first pause. What was shown before that stays shown.
-/

namespace RobotMaze

namespace Terminal

open Text

/-- A setting that a run needs and cannot use. -/
inductive SettingError where
  | blankMaxSteps
  | blankMaxDepth
  | blankDelay
  /-- The time between frames is longer than a clock can count. -/
  | endlessDelay
deriving DecidableEq, Repr

/-- The wording of the error. -/
def SettingError.message : SettingError → String
  | .blankMaxSteps => "can only concatenate list (not \"int\") to list"
  | .blankMaxDepth => "'>' not supported between instances of 'int' and 'list'"
  | .blankDelay => "'>' not supported between instances of 'list' and 'int'"
  | .endlessDelay => "timestamp too large to convert to C _PyTime_t"

/-- Why showing a run breaks off. -/
inductive ShowError where
  | run (e : RunError)
  | render (e : RenderError)
  | setting (e : SettingError)
deriving DecidableEq, Repr

/-- The wording of the error. -/
def ShowError.message : ShowError → String
  | .run e => e.message
  | .render e => e.message
  | .setting e => e.message

/-- A computation that prints, and may break off. -/
abbrev Showing := ExceptT ShowError Recorded

/-- A program text and the name that it is known by. -/
structure Source where
  text : Text
  name : Text := "<program>".toList
deriving DecidableEq, Repr

/-- Prints a diagnostic about a source. -/
def report (renderer : Renderer) (source : Source) (d : Diagnostic) : Showing Unit :=
  match renderer.format d source.text source.name with
  | .ok text => liftM (Recorded.printLine text)
  | .error e => throw (.render e)

/-- How a run is shown, and the limits that it has. A setting that is `none` was left blank. -/
structure RunOptions where
  gridSize : Int
  maxDepth : Option Int
  maxSteps : Option Int
  /-- The time between frames, in seconds. -/
  delay : Option Decimal := some .zero
  quiet : Bool := false
  renderer : Renderer := {}
deriving DecidableEq, Repr

/-- The depth limit that no call stays within. -/
def noCalls : Int := -1

/-- The session of a run. Where the depth limit is blank, no call is allowed. -/
def RunOptions.session (o : RunOptions) (level : Text) : Session :=
  .new level o.gridSize (o.maxDepth.getD noCalls) (o.maxSteps.getD 0)

/-- The blank setting that keeps a program from being expanded. A blank depth limit does so if the
program comes to a call. -/
def RunOptions.expansionError? (o : RunOptions) (program : Text) : Option SettingError :=
  match o.maxSteps, o.maxDepth with
  | none, _ => some .blankMaxSteps
  | some _, some _ => none
  | some maxSteps, none =>
    match Simulation.expandForRun program noCalls maxSteps with
    | .ok _ => none
    | .error _ => some .blankMaxDepth

/-- Why the time between frames does not allow a pause, if it does not. -/
def RunOptions.pauseError? (o : RunOptions) : Option SettingError :=
  match o.delay with
  | none => some .blankDelay
  | some delay => if delay.isEndless then some .endlessDelay else none

/-- Begins a run that a blank setting keeps from going on. The step limit is needed before the
program is read, the depth limit after that. -/
def refuse {α : Type} (session : Session) (program : Text) (e : SettingError) : Showing α := do
  liftM (Recorded.log (session.startRecords program))
  unless e = .blankMaxSteps do
    liftM (Recorded.log (Program.parseRecords program))
  throw (.setting e)

/-- Shows a run that pauses between frames; a pause that is not possible breaks it off. -/
def withPauses {α : Type} (error : Option SettingError) (run : Recorded α) : Showing α :=
  match error, Event.untilPause? run.events with
  | some e, some events => do
    liftM (Recorded.emit events)
    throw (.setting e)
  | _, _ => liftM run

/-- What there is to say about a recursion that went too deep. -/
def depthDiagnostic (program : Text) (e : DepthExceeded) : Diagnostic :=
  let labels :=
    match (Program.parse program).functions.get? e.function with
    | none => []
    | some d =>
      if d.line = 0 then []
      else
        let name := String.ofList d.name
        [⟨⟨d.line, d.col, d.col + 1⟩, some s!"'{name}' still recursing at depth {e.depth}",
          "primary"⟩]
  { severity := "error"
    message := e.message
    labels
    notes := ["recursion only stops when a numeric argument reaches 0",
      "e.g. 'f(A):sf(A-1)' then 'f(5)' steps five times"] }

/-- Explains a recursion that went too deep. -/
def explainDepth (renderer : Renderer) (source : Source) (e : DepthExceeded) : Showing Unit := do
  liftM (Recorded.log (Program.parseRecords source.text))
  report renderer source (depthDiagnostic source.text e)

/-- What is shown of a snapshot during the run. -/
def display (quiet : Bool) (s : State) : List Event := if quiet then [] else [.print (frame s)]

/-- Prints how a run ended. -/
def conclude (quiet : Bool) (final : State) : Recorded Unit := do
  Recorded.printLine "\n=== program finished ===".toList
  if quiet then Recorded.printLine (draw final)
  Recorded.printLine (verdict final).toList

/-- Runs a program on a level and shows the run; the result is the last state. -/
def run (o : RunOptions) (source : Source) (level : Text) : Showing State := do
  (Check.diagnostics source.text).forM (report o.renderer source)
  let session := o.session level
  liftM (Recorded.log session.boardRecords)
  unless o.quiet do
    liftM (Recorded.printLine s!"program: {programSize source.text} bytes".toList)
  if let some e := o.expansionError? source.text then
    refuse session source.text e
  let playback ← withPauses o.pauseError? (session.play source.text (display o.quiet) none)
  match playback.failure with
  | some e => throw (.run e)
  | none =>
    match playback.session.simulation.bind (·.error) with
    | none => pure ()
    | some e => explainDepth o.renderer source e
    liftM (conclude o.quiet playback.session.state)
    return playback.session.state

end Terminal

end RobotMaze
