import RobotMaze.Text.Basic

/-!
# Diagnostics

A diagnostic is a message about a program text. It points at places of the text with labels; the
first label of the kind `primary`, or else the first of all, is the place that it is about.

A span is a range of columns on one line. Programs are not as tidy: main lines are joined before
they are expanded, so a call can take its arguments from the lines after its own. A label can point
at the part of such a call that stands on its first line.

Severities and kinds are open: a name that the renderer does not know is shown without colour.
-/

namespace RobotMaze

/-- A range of columns on a line, all counted from 1; `stop` is the column after the last one. -/
structure Span where
  line : Int
  start : Int
  stop : Int
deriving DecidableEq, Repr

/-- The span with its columns in order. -/
def Span.normalized (s : Span) : Span :=
  if s.stop < s.start then ⟨s.line, s.stop, s.start⟩ else s

/-- A place of the text, with something to say about it. -/
structure Label where
  span : Span
  message : Option String := none
  kind : String := "primary"
deriving DecidableEq, Repr

/-- Whether a label marks the place that its diagnostic is about. -/
def Label.isPrimary (l : Label) : Bool := l.kind == "primary"

/-- A message about a program text. -/
structure Diagnostic where
  severity : String
  message : String
  labels : List Label := []
  notes : List String := []
deriving DecidableEq, Repr

/-- The label of the place that a diagnostic is about. -/
def Diagnostic.primary (d : Diagnostic) : Option Label :=
  (d.labels.find? Label.isPrimary).or d.labels.head?

end RobotMaze
