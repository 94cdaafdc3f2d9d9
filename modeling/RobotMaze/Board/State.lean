import RobotMaze.Board.Grid
import RobotMaze.Board.Robot
import RobotMaze.Instruction

/-!
# The state of a game

A state is the board together with what has happened on it. `State.apply` carries out one
instruction: it counts a step, and then turns the robot or moves it. Leaving the board and stepping
on a bomb lose the game; a wall stops the robot for this step only; the last point wins.

A step can fail. A text that is no primitive instruction leaves the state alone. On a board whose
rows differ in length, the cell ahead may lie within the width of the first row and still be
missing; then the step has been counted, and nothing else has changed.
-/

namespace RobotMaze

/-- How a game stands. -/
inductive Outcome where
  | running
  | won
  | hitWall
  | hitBomb
  | maxSteps
  | error
deriving DecidableEq, Repr

namespace Outcome

/-- The name of an outcome. -/
def name : Outcome → String
  | .running => "running"
  | .won => "won"
  | .hitWall => "hit_wall"
  | .hitBomb => "hit_bomb"
  | .maxSteps => "max_steps"
  | .error => "error"

/-- All outcomes. -/
def all : List Outcome := [.running, .won, .hitWall, .hitBomb, .maxSteps, .error]

/-- The outcome of a name. -/
def ofName (t : Text) : Except UnknownName Outcome :=
  match all.find? (·.name.toList = t) with
  | some o => .ok o
  | none => .error ⟨t, "Outcome"⟩

end Outcome

/-- A board and what has happened on it. -/
structure State where
  grid : Grid
  robot : Robot
  initialRobot : Robot
  totalPoints : Int
  collected : Int := 0
  isOver : Bool := false
  isWon : Bool := false
  message : String := ""
  steps : Int := 0
  outcome : Outcome := .running
deriving DecidableEq, Repr

/-- Why an instruction cannot be carried out. -/
inductive StepError where
  /-- The text is no primitive instruction. -/
  | notPrimitive (text : Text)
  /-- The board has no cell ahead, though its first row reaches that far. -/
  | missingCell
deriving DecidableEq, Repr

/-- The wording of the error. -/
def StepError.message : StepError → String
  | .notPrimitive text => s!"not a primitive instruction: {Text.quotedString text}"
  | .missingCell => "list index out of range"

namespace State

/-- The message of a game that ended outside the board. -/
def hitWallMessage : String := "Robot hit the wall!"

/-- The message of a game that ended on a bomb. -/
def hitBombMessage : String := "Robot hit a bomb!"

/-- The message of a game that was won. -/
def wonMessage : String := "You collected all points! You won!"

/-- Ends the game. -/
def finish (s : State) (outcome : Outcome) (message : String) : State :=
  { s with isOver := true, isWon := outcome = .won, outcome, message }

/-- The robot enters the cell at `(x, y)`, which is no wall. -/
def enter (s : State) (x y : Int) (kind : CellKind) : State :=
  let moved := { s with robot := { s.robot with x, y } }
  match kind with
  | .bomb => moved.finish .hitBomb hitBombMessage
  | .point =>
    let taken :=
      { moved with grid := moved.grid.set x y Cell.empty, collected := moved.collected + 1 }
    if taken.collected = taken.totalPoints then taken.finish .won wonMessage else taken
  | _ => moved

/-- The robot tries to move one cell ahead. -/
def moveAhead (s : State) : State × Option StepError :=
  let (x, y) := s.robot.ahead
  if s.grid.inBounds x y then
    match s.grid.cell? x y with
    | none => (s, some .missingCell)
    | some code =>
      match Cell.kind code with
      | .wall => (s, none)
      | kind => (s.enter x y kind, none)
  else (s.finish .hitWall hitWallMessage, none)

/-- Carries out an instruction in a game that is not over. -/
def obey (s : State) (i : Instruction) : State × Option StepError :=
  let counted := { s with steps := s.steps + 1 }
  match i with
  | .left => ({ counted with robot := s.robot.turnLeft }, none)
  | .right => ({ counted with robot := s.robot.turnRight }, none)
  | .step => counted.moveAhead

/-- Carries out the instruction that a text stands for; a game that is over stays as it is. -/
def apply (s : State) (text : Text) : State × Option StepError :=
  if s.isOver then (s, none)
  else match Instruction.ofText? text with
    | none => (s, some (.notPrimitive text))
    | some i => s.obey i

end State

end RobotMaze
