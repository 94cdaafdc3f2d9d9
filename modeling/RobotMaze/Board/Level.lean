import RobotMaze.Board.State
import RobotMaze.Text.Lines
import RobotMaze.Transcript

/-!
# Levels

A level is text: one line for each row of the board, one character for each cell. The board is a
square of a given size. Lines and rows are cut to that size or filled up with empty cells, and what
is no cell code becomes an empty cell. The last mark `u` that survives the cut is the place where
the robot starts; without one it starts in the first cell of the first row.

A negative size cuts that many lines, and that many characters of each line, from the end.
-/

namespace RobotMaze

namespace Level

open Text

/-- The lines of a level that make rows of the board, cut to size. -/
def window (text : Text) (size : Int) : List Text :=
  (upTo size (splitLines (stripNewlines text))).map (upTo size)

/-- The cell that a character of a level stands for. -/
def cellOf (c : Char) : Char := if Cell.isCode c then c else Cell.empty

/-- A list filled up to `size` elements with `filler`. -/
def fill {α : Type} (size : Int) (filler : α) (l : List α) : List α :=
  l ++ List.replicate (size - l.length).toNat filler

/-- The board of a level. -/
def grid (text : Text) (size : Int) : Grid :=
  fill size (List.replicate size.toNat Cell.empty)
    ((window text size).map fun line => fill size Cell.empty (line.map cellOf))

/-- A character of a level and its column and row. -/
structure Place where
  x : Nat
  y : Nat
  code : Char

/-- The characters of a level that make cells of the board, row by row. -/
def places (text : Text) (size : Int) : List Place :=
  (window text size).zipIdx.flatMap fun (line, y) => line.zipIdx.map fun (code, x) => ⟨x, y, code⟩

/-- The cell where the robot starts. -/
def start (text : Text) (size : Int) : Nat × Nat :=
  match ((places text size).filter (·.code = Cell.robotMark)).getLast? with
  | some place => (place.x, place.y)
  | none => (0, 0)

/-- What is worth a warning in a list of places; `found` tells whether a robot mark came before. -/
def placeWarnings : Bool → List Place → List Record
  | _, [] => []
  | found, place :: places =>
    if place.code = Cell.robotMark then
      (if found then [⟨.warning, "level",
        s!"extra robot marker at ({place.x}, {place.y}); using the later one"⟩] else []) ++
        placeWarnings true places
    else if Cell.isCode place.code then placeWarnings found places
    else ⟨.warning, "level", s!"unknown cell code {quotedString [place.code]} at " ++
      s!"({place.x}, {place.y}) treated as empty"⟩ :: placeWarnings found places

/-- The warnings that building the board of a level leaves in the log. -/
def warnings (text : Text) (size : Int) : List Record :=
  let places := places text size
  placeWarnings false places ++
    if places.any (·.code = Cell.robotMark) then []
    else [⟨.warning, "level",
      s!"level has no robot marker {quotedString [Cell.robotMark]}; starting at origin"⟩]

/-- The state of a new game on a level. -/
def newGame (text : Text) (size : Int) : State :=
  let board := grid text size
  let (x, y) := start text size
  let robot : Robot := { x, y }
  { grid := board, robot, initialRobot := robot, totalPoints := board.points }

/-- What starting a new game on a level leaves in the log. -/
def newGameRecords (text : Text) (size : Int) : List Record :=
  let game := newGame text size
  let robot := game.robot
  warnings text size ++ [⟨.debug, "level",
    s!"level ready: {size}x{size}, robot at ({robot.x}, {robot.y}), {game.totalPoints} points"⟩]

end Level

end RobotMaze
