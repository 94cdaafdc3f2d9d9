import RobotMaze.Board.State
import RobotMaze.Text.Blank

/-!
# Drawing boards

A board is drawn as one line of text for each row, with an arrow where the robot stands. Empty cells
are blank and bombs are crosses; all other cells show their code. Blanks at the end of a line are
left out.
-/

namespace RobotMaze

namespace Terminal

open Text

/-- The arrow of a direction. -/
def arrow : Direction → Char
  | .up => '↑'
  | .right => '→'
  | .down => '↓'
  | .left => '←'

/-- How a cell is drawn. -/
def shownCell (code : Char) : Char :=
  if code = Cell.empty then ' ' else if code = Cell.bomb then 'x' else code

/-- How the cell at column `x` of row `y` is drawn, with the robot on it if it stands there. -/
def shownAt (robot : Robot) (x y : Nat) (code : Char) : Char :=
  if robot.x = x ∧ robot.y = y then arrow robot.direction else shownCell code

/-- The drawing of a row. -/
def drawRow (robot : Robot) (y : Nat) (row : List Char) : Text :=
  trimEnd (row.zipIdx.map fun (code, x) => shownAt robot x y code)

/-- The drawing of a board. -/
def draw (s : State) : Text :=
  List.intercalate ['\n'] (s.grid.zipIdx.map fun (row, y) => drawRow s.robot y row)

/-- The line above a drawing. -/
def caption (s : State) : String :=
  let title := if s.steps = 0 then "initial board" else s!"step {s.steps}"
  let robot := s.robot
  s!"{title}: facing {robot.direction.name} at ({robot.x}, {robot.y})   " ++
    s!"points {s.collected}/{s.totalPoints}"

/-- What is printed of a snapshot: an empty line, the caption, the drawing, and the message if there
is one. -/
def frame (s : State) : Text :=
  '\n' :: (caption s).toList ++ '\n' :: draw s ++ '\n' ::
    (if s.message.isEmpty then [] else s.message.toList ++ ['\n'])

/-- The last line that is printed about a run. -/
def verdict (s : State) : String :=
  if s.outcome = .won then s.message
  else if s.isOver then s!"{s.message} ({s.outcome.name})"
  else s!"Program ended with {s.collected}/{s.totalPoints} points collected."

end Terminal

end RobotMaze
