import RobotMaze.Text.Basic

/-!
# Lines

A line ends at a line feed, a carriage return, the pair of both, a vertical tab, a form feed, one
of the first three information separators, a next-line character or a Unicode line or paragraph
separator. The end of the text ends the last line, so a final line break adds no empty line.

Reading a file replaces each carriage return, alone or before a line feed, by a line feed.
-/

namespace RobotMaze

namespace Text

/-- The characters that end a line. -/
def isLineBreak (c : Char) : Bool :=
  let n := c.toNat
  (0x0A ≤ n && n ≤ 0x0D) || (0x1C ≤ n && n ≤ 0x1E) || n == 0x85 || n == 0x2028 || n == 0x2029

/-- A character in front of the first of some lines. -/
def consLine (c : Char) : List Text → List Text
  | [] => [[c]]
  | line :: lines => (c :: line) :: lines

/-- The lines of a text, without their line breaks. -/
def splitLines : Text → List Text
  | [] => []
  | '\r' :: '\n' :: rest => [] :: splitLines rest
  | c :: rest => if isLineBreak c then [] :: splitLines rest else consLine c (splitLines rest)

/-- Every line break that uses a carriage return becomes a line feed. -/
def unifyNewlines : Text → Text
  | [] => []
  | '\r' :: '\n' :: rest => '\n' :: unifyNewlines rest
  | c :: rest => (if c = '\r' then '\n' else c) :: unifyNewlines rest

/-- The text without carriage returns and line feeds at its ends. -/
def stripNewlines (t : Text) : Text :=
  let isNewline := fun c : Char => c == '\r' || c == '\n'
  ((t.dropWhile isNewline).reverse.dropWhile isNewline).reverse

end Text

end RobotMaze
