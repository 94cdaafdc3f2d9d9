import RobotMaze.Text.Basic

/-!
# Columns and marks

Tabs are expanded before a line is shown, so the column of a character in the text and its column on
the screen differ. `expandTabs` gives the expanded line together with the map from one to the other;
the map has one entry more than the line has characters, for the column after the last one.
`underline` draws marks below a range of columns.
-/

namespace RobotMaze

/-- Why a diagnostic cannot be shown. -/
inductive RenderError where
  /-- A tab stop was asked for every zero columns. -/
  | zeroTabWidth
  /-- A label points to a column before the first one of its line. -/
  | columnOutOfRange
deriving DecidableEq, Repr

/-- The wording of the error. -/
def RenderError.message : RenderError → String
  | .zeroTabWidth => "integer modulo by zero"
  | .columnOutOfRange => "list index out of range"

namespace Marks

/-- A line with its tabs expanded, and the display column of each of its characters. -/
structure Expanded where
  text : Text
  columns : List Int
deriving DecidableEq, Repr

/-- How far a tab at a display column reaches: up to the next column that follows a multiple of the
tab width. -/
def tabAdvance (tabWidth col : Int) : Except RenderError Int :=
  if tabWidth = 0 then .error .zeroTabWidth else .ok (tabWidth - Int.fmod (col - 1) tabWidth)

/-- Expands the tabs of a text that starts at a display column. -/
def expandFrom (tabWidth : Int) : Int → Text → Except RenderError Expanded
  | col, [] => .ok ⟨[], [col]⟩
  | col, c :: rest =>
    if c = '\t' then do
      let n ← tabAdvance tabWidth col
      let tail ← expandFrom tabWidth (col + n) rest
      return ⟨List.replicate n.toNat ' ' ++ tail.text, col :: tail.columns⟩
    else do
      let tail ← expandFrom tabWidth (col + 1) rest
      return ⟨c :: tail.text, col :: tail.columns⟩

/-- Expands the tabs of a line. -/
def expandTabs (tabWidth : Int) (line : Text) : Except RenderError Expanded :=
  expandFrom tabWidth 1 line

/-- The display column of a column of the line, at most the last one. Columns below 1 count from the
end of the line. -/
def Expanded.column (e : Expanded) (col : Int) : Except RenderError Int :=
  let index := min col e.columns.length - 1
  let position := if index < 0 then index + e.columns.length else index
  if position < 0 then .error .columnOutOfRange
  else match e.columns[position.toNat]? with
    | some c => .ok c
    | none => .error .columnOutOfRange

/-- A text repeated; a count below 1 gives the empty text. -/
def repeated (n : Int) (t : Text) : Text := (List.replicate n.toNat t).flatten

/-- Marks below the display columns from `x0` up to but not including `x1` of a line. At least one
column is marked, and the first mark is not past the end of the line. -/
def underline (line : Text) (x0 x1 : Int) (mark : Text) : Text :=
  let n : Int := line.length
  let a := max 1 (min x0 n)
  let b := max (a + 1) (min x1 (n + 1))
  repeated (a - 1) [' '] ++ repeated (b - a) mark ++ repeated (n - (b - 1)) [' ']

end Marks

end RobotMaze
