import RobotMaze.Text.Basic

/-!
# Transcripts

A run prints text, keeps a log and pauses between frames. None of this changes what the run
computes, so it is collected on the side: `Recorded α` is a value together with the events that led
to it, in order. The outer layer turns events into output; it alone knows the time.
-/

namespace RobotMaze

/-- How important a log record is. -/
inductive LogLevel where
  | debug
  | info
  | warning
  | error
deriving DecidableEq, Repr

namespace LogLevel

/-- The name that log lines carry. -/
def name : LogLevel → String
  | .debug => "DEBUG"
  | .info => "INFO"
  | .warning => "WARNING"
  | .error => "ERROR"

/-- Levels as numbers, the more important the greater. -/
def rank : LogLevel → Nat
  | .debug => 10
  | .info => 20
  | .warning => 30
  | .error => 40

end LogLevel

/-- A log record: its level, the part of the program that wrote it, and its text. -/
structure Record where
  level : LogLevel
  source : String
  message : String
deriving DecidableEq, Repr

/-- A log record as one line of text. -/
def Record.line (r : Record) : String := s!"{r.level.name} {r.source}: {r.message}"

/-- What a run lets the outside see, one event at a time. -/
inductive Event where
  /-- Text printed to standard output. -/
  | print (text : Text)
  /-- Text printed to standard error. -/
  | complain (text : Text)
  /-- A record written to the log. -/
  | log (record : Record)
  /-- A record of the level and source given, whose text is the time that the run took. -/
  | elapsed (level : LogLevel) (source : String)
  /-- A pause between two frames. -/
  | pause
deriving DecidableEq, Repr

namespace Event

/-- The text that an event prints. -/
def printed : Event → Text
  | .print text => text
  | _ => []

/-- The record that an event logs, when the run has taken the time `time`. -/
def record? (time : String) : Event → Option Record
  | .log r => some r
  | .elapsed level source => some ⟨level, source, s!"run took {time}s"⟩
  | _ => none

/-- Everything that the events print to standard output. -/
def output (events : List Event) : Text := events.flatMap printed

/-- The records of the events that are at least as important as `threshold`. -/
def records (threshold : Nat) (time : String) (events : List Event) : List Record :=
  (events.filterMap (record? time)).filter (threshold ≤ ·.level.rank)

/-- The events before the first pause, if there is a pause. -/
def untilPause? (events : List Event) : Option (List Event) :=
  if events.contains .pause then some (events.takeWhile (· ≠ .pause)) else none

/-- What an event writes to standard error, where the log goes too. -/
def complaint (threshold : Nat) (time : String) : Event → Text
  | .complain text => text
  | e => (records threshold time [e]).flatMap fun r => r.line.toList ++ ['\n']

/-- Everything that the events write to standard error. -/
def errorOutput (threshold : Nat) (time : String) (events : List Event) : Text :=
  events.flatMap (complaint threshold time)

end Event

/-- A value and the events on the way to it. -/
structure Recorded (α : Type) where
  value : α
  events : List Event := []

namespace Recorded

instance : Monad Recorded where
  pure a := ⟨a, []⟩
  bind x f :=
    let y := f x.value
    ⟨y.value, x.events ++ y.events⟩

variable {α β : Type}

@[simp] theorem value_pure (a : α) : (pure a : Recorded α).value = a := rfl

@[simp] theorem value_bind (x : Recorded α) (f : α → Recorded β) :
    (x >>= f).value = (f x.value).value := rfl

@[simp] theorem events_pure (a : α) : (pure a : Recorded α).events = [] := rfl

@[simp] theorem events_bind (x : Recorded α) (f : α → Recorded β) :
    (x >>= f).events = x.events ++ (f x.value).events := rfl

/-- Adds events. -/
def emit (events : List Event) : Recorded Unit := ⟨(), events⟩

/-- Adds log records. -/
def log (records : List Record) : Recorded Unit := emit (records.map .log)

/-- Prints a text. -/
def print (text : Text) : Recorded Unit := emit [.print text]

/-- Prints a text to standard error. -/
def complain (text : Text) : Recorded Unit := emit [.complain text]

/-- Prints a text and ends the line. -/
def printLine (text : Text) : Recorded Unit := print (text ++ ['\n'])

@[simp] theorem value_emit (events : List Event) : (emit events).value = () := rfl

@[simp] theorem events_emit (events : List Event) : (emit events).events = events := rfl

end Recorded

end RobotMaze
