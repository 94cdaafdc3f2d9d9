import RobotMaze.Text.Basic

/-!
# Colours

A theme colours parts of the output for a terminal, or leaves them alone. What is coloured is known
by a key; a key without a colour still ends with the code that returns to normal.
-/

namespace RobotMaze

/-- Whether output is coloured. -/
structure Theme where
  useColor : Bool
deriving DecidableEq, Repr

namespace Theme

/-- The code that a terminal understands as the colour `n`. -/
def code (n : String) : String := "\x1b[" ++ n ++ "m"

/-- The code that ends a colour. -/
def reset : String := code "0"

/-- The codes of the keys that have a colour. -/
def palette : List (String × String) :=
  [("reset", reset), ("error", code "31"), ("warning", code "33"), ("note", code "34"),
    ("help", code "36"), ("primary", code "31"), ("secondary", code "35"), ("gutter", code "90")]

/-- The text in the colour of a key. -/
def paint (theme : Theme) (key : String) (text : Text) : Text :=
  if theme.useColor then ((palette.lookup key).getD "").toList ++ text ++ reset.toList else text

end Theme

end RobotMaze
