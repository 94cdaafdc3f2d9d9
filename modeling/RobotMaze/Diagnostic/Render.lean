import RobotMaze.Diagnostic.Basic
import RobotMaze.Diagnostic.Marks
import RobotMaze.Diagnostic.Theme
import RobotMaze.Text.Lines

/-!
# Rendering diagnostics

A diagnostic is shown as a header, a frame of source lines with marks below them, and notes:

    warning: function 'f' is defined more than once
      --> level3.h:4:1
       |
     3 | f:ss
       | ~    previous definition is here
     4 | f:sl
       | ^    redefined here; this definition wins

The frame shows the lines of the labels and some lines around them, each once and in order, with an
ellipsis where lines are left out. Below a line come the marks of its labels, primary ones first.
Labels on lines that the source does not have follow at the end.
-/

namespace RobotMaze

open Text

/-- How diagnostics are shown. -/
structure Renderer where
  tabWidth : Int := 4
  contextLines : Int := 1
  showGutter : Bool := true
  theme : Theme := ⟨false⟩
deriving DecidableEq, Repr

namespace Renderer

/-- A number in decimal digits, however many they are: `Numeral.maxDigits` is no bound here. Numbers
of lines and columns that a text has are far below it. -/
def decimal (n : Int) : Text := (toString n).toList

/-- The lines that are shown: those of the source that are near a label. -/
def shownLines (r : Renderer) (labels : List Label) (lineCount : Nat) : List Nat :=
  (List.range' 1 lineCount).filter fun n => labels.any fun label =>
    -r.contextLines ≤ n - label.span.line && n - label.span.line ≤ r.contextLines

/-- The width of the column of line numbers. -/
def gutterWidth (shown : List Nat) : Nat :=
  match shown.getLast? with
  | some n => (decimal n).length
  | none => 1

/-- What separates the gutter from the source. -/
def bar (r : Renderer) : Text := if r.showGutter then "   |".toList else []

/-- The row that stands for lines left out. -/
def ellipsisRow (r : Renderer) (width : Nat) : Text :=
  if r.showGutter then r.theme.paint "gutter" (List.leftpad width ' ' ['…']) ++ " |".toList
  else ['…']

/-- The row of a source line. -/
def sourceRow (r : Renderer) (width : Nat) (number : Nat) (line : Text) : Text :=
  if r.showGutter then
    ' ' :: r.theme.paint "gutter" (List.leftpad width ' ' (decimal number)) ++ " | ".toList ++ line
  else line

/-- What a label says, after a blank; an empty message counts as none. -/
def remark (label : Label) : Text :=
  match label.message with
  | none => []
  | some message => if message.isEmpty then [] else ' ' :: message.toList

/-- The marks of a label below its line. -/
def marks (line : Marks.Expanded) (label : Label) : Except RenderError Text := do
  let span := label.span.normalized
  let x0 ← line.column span.start
  let x1 ← line.column span.stop
  return Marks.underline line.text x0 x1 [if label.isPrimary then '^' else '~']

/-- The row of a label below its line. -/
def labelRow (r : Renderer) (width : Nat) (line : Marks.Expanded) (label : Label) :
    Except RenderError Text := do
  let pad :=
    if r.showGutter then
      r.theme.paint "gutter" (List.replicate (width + 1) ' ' ++ " | ".toList)
    else []
  return pad ++ r.theme.paint label.kind (← marks line label) ++ remark label

/-- The labels on a line, primary ones first and otherwise in order. -/
def labelsOn (labels : List Label) (number : Nat) : List Label :=
  let here := labels.filter (·.span.line = (number : Int))
  here.filter Label.isPrimary ++ here.filter (!·.isPrimary)

/-- The rows of one source line: itself and the marks below it. -/
def lineRows (r : Renderer) (width : Nat) (labels : List Label) (number : Nat) (line : Text) :
    Except RenderError (List Text) := do
  let expanded ← Marks.expandTabs r.tabWidth line
  let rows ← (labelsOn labels number).mapM (r.labelRow width expanded)
  return r.sourceRow width number expanded.text :: rows

/-- The rows of the lines shown; `previous` is the line shown before them. -/
def codeRows (r : Renderer) (width : Nat) (labels : List Label) (lines : List Text) :
    Option Nat → List Nat → Except RenderError (List Text)
  | _, [] => .ok []
  | previous, number :: numbers => do
    let gap := if previous.any (· + 1 ≠ number) then [r.ellipsisRow width] else []
    let rows ← r.lineRows width labels number ((lines[number - 1]?).getD [])
    let rest ← r.codeRows width labels lines (some number) numbers
    return gap ++ rows ++ rest

/-- The labels on lines that the source does not have, ordered by line. -/
def strayLabels (labels : List Label) (lineCount : Nat) : List Label :=
  let stray := labels.filter fun label =>
    !(1 ≤ label.span.line && label.span.line ≤ (lineCount : Int))
  stray.mergeSort fun a b => a.span.line ≤ b.span.line

/-- The row of a label on a line that the source does not have. -/
def strayRow (r : Renderer) (label : Label) : Text :=
  r.bar ++ " (line ".toList ++ decimal label.span.line ++ " not in source)".toList ++ remark label

/-- The rows of the frame. -/
def frameRows (r : Renderer) (labels : List Label) (lines : List Text) :
    Except RenderError (List Text) := do
  let shown := r.shownLines labels lines.length
  let code ← r.codeRows (gutterWidth shown) labels lines none shown
  return r.bar :: (code ++ (strayLabels labels lines.length).map r.strayRow)

/-- The header: what the diagnostic says, and the place that it is about. -/
def header (r : Renderer) (d : Diagnostic) (name : Text) : Text :=
  let head := r.theme.paint d.severity d.severity.toList ++ ": ".toList ++ d.message.toList
  match d.primary with
  | none => head
  | some label =>
    let span := label.span.normalized
    head ++ "\n  --> ".toList ++ name ++ [':'] ++ decimal span.line ++ [':'] ++ decimal span.start

/-- The row of a note. -/
def noteRow (r : Renderer) (note : String) : Text :=
  "  = ".toList ++ r.theme.paint "note" "note".toList ++ [' '] ++ note.toList

/-- A diagnostic about the text `source`, which is known by the name `name`. -/
def format (r : Renderer) (d : Diagnostic) (source name : Text) : Except RenderError Text := do
  let frame ← if d.labels.isEmpty then .ok [] else r.frameRows d.labels (splitLines source)
  return List.intercalate ['\n'] (r.header d name :: (frame ++ d.notes.map r.noteRow))

end Renderer

end RobotMaze
