import RobotMaze.Text.Quoted

/-!
# The robot

A robot stands on a cell and faces one of four directions. Rows are counted downwards, so facing up
means that the row number falls.
-/

namespace RobotMaze

/-- A value was asked for by a name that it does not have. -/
structure UnknownName where
  /-- The name that was given. -/
  given : Text
  /-- The kind of value that was asked for. -/
  expected : String
deriving DecidableEq, Repr

/-- The wording of the error. -/
def UnknownName.message (e : UnknownName) : String :=
  s!"{Text.quotedString e.given} is not a valid {e.expected}"

/-- Where a robot faces. -/
inductive Direction where
  | up
  | right
  | down
  | left
deriving DecidableEq, Repr

namespace Direction

/-- The name of a direction. -/
def name : Direction → String
  | .up => "up"
  | .right => "right"
  | .down => "down"
  | .left => "left"

/-- All directions, clockwise. -/
def all : List Direction := [.up, .right, .down, .left]

/-- The direction of a name. -/
def ofName (t : Text) : Except UnknownName Direction :=
  match all.find? (·.name.toList = t) with
  | some d => .ok d
  | none => .error ⟨t, "Direction"⟩

/-- A quarter turn clockwise. -/
def turnRight : Direction → Direction
  | .up => .right
  | .right => .down
  | .down => .left
  | .left => .up

/-- A quarter turn anticlockwise. -/
def turnLeft : Direction → Direction
  | .up => .left
  | .left => .down
  | .down => .right
  | .right => .up

/-- How a step in this direction changes column and row. -/
def offset : Direction → Int × Int
  | .up => (0, -1)
  | .right => (1, 0)
  | .down => (0, 1)
  | .left => (-1, 0)

@[simp] theorem turnLeft_turnRight (d : Direction) : d.turnRight.turnLeft = d := by cases d <;> rfl

@[simp] theorem turnRight_turnLeft (d : Direction) : d.turnLeft.turnRight = d := by cases d <;> rfl

end Direction

/-- A robot: its column, its row, and the direction it faces. -/
structure Robot where
  x : Int
  y : Int
  direction : Direction := .up
deriving DecidableEq, Repr

namespace Robot

/-- The cell in front of the robot. -/
def ahead (r : Robot) : Int × Int :=
  (r.x + r.direction.offset.1, r.y + r.direction.offset.2)

/-- The robot after a quarter turn to the left. -/
def turnLeft (r : Robot) : Robot := { r with direction := r.direction.turnLeft }

/-- The robot after a quarter turn to the right. -/
def turnRight (r : Robot) : Robot := { r with direction := r.direction.turnRight }

end Robot

end RobotMaze
