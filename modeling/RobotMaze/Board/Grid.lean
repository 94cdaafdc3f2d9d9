import RobotMaze.Text.Basic

/-!
# Cells and grids

A cell of the board is a character: a bomb `*`, a point `o`, a wall `A` to `K`, and anything else is
an empty cell, usually written `.`. A grid is a list of rows. Boards made from a level are square;
the definitions do not ask for it, and a row may be shorter than its neighbours.
-/

namespace RobotMaze

/-- What a cell does to the robot. -/
inductive CellKind where
  | empty
  | bomb
  | point
  | wall
deriving DecidableEq, Repr

namespace CellKind

/-- The name of a kind. -/
def name : CellKind → String
  | .empty => "empty"
  | .bomb => "bomb"
  | .point => "point"
  | .wall => "wall"

end CellKind

namespace Cell

/-- The cell that holds nothing. -/
def empty : Char := '.'

/-- The cell that holds a bomb. -/
def bomb : Char := '*'

/-- The cell that holds a point. -/
def point : Char := 'o'

/-- The mark of the starting cell in a level. -/
def robotMark : Char := 'u'

/-- The codes of walls. -/
def isWall (c : Char) : Bool := 'A' ≤ c && c ≤ 'K'

/-- The kind of a cell. -/
def kind (c : Char) : CellKind :=
  if c = bomb then .bomb
  else if c = point then .point
  else if isWall c then .wall
  else .empty

/-- The kind of a cell whose code is given as a text; only a single character is a code. -/
def kindOfText : Text → CellKind
  | [c] => kind c
  | _ => .empty

/-- The codes that may stand on a board. -/
def isCode (c : Char) : Bool := c = empty || c = bomb || c = point || isWall c

end Cell

/-- The cells of a board, row by row. -/
abbrev Grid := List (List Char)

namespace Grid

/-- The cell at column `x` of row `y`, both counted from 0. -/
def cell? (g : Grid) (x y : Int) : Option Char :=
  if 0 ≤ x ∧ 0 ≤ y then g[y.toNat]?.bind (·[x.toNat]?) else none

/-- The grid with a cell replaced. -/
def set (g : Grid) (x y : Int) (code : Char) : Grid :=
  if 0 ≤ x ∧ 0 ≤ y then g.modify y.toNat fun row => List.set row x.toNat code else g

/-- Whether a position lies on the board, whose width is that of the first row. -/
def inBounds (g : Grid) (x y : Int) : Bool :=
  0 ≤ y && y < g.length && 0 ≤ x && x < (g.headD []).length

/-- How many points lie on the board. -/
def points (g : Grid) : Nat := g.foldr (fun row n => row.count Cell.point + n) 0

end Grid

end RobotMaze
