import RobotMaze.Text.Printable

/-!
# Quoted text

Messages show a text between quotation marks, in a form that has no line breaks and no characters
that cannot be printed. Single marks are used unless the text holds single marks and no double
ones. The mark itself and the backslash get a backslash in front; tab, line feed and carriage
return have letters; everything else that cannot be printed is written by its code point.
-/

namespace RobotMaze

namespace Text

/-- The mark that a text is quoted with. -/
def quotationMark (t : Text) : Char :=
  if t.contains '\'' && !t.contains '"' then '"' else '\''

/-- `n` in hexadecimal digits, at least `width` of them. -/
def hexadecimal (width n : Nat) : Text :=
  let digits := Nat.toDigits 16 n
  List.replicate (width - digits.length) '0' ++ digits

/-- A character by its code point: two, four or eight hexadecimal digits. -/
def codePointEscape (c : Char) : Text :=
  let n := c.toNat
  if n ≤ 0xFF then '\\' :: 'x' :: hexadecimal 2 n
  else if n ≤ 0xFFFF then '\\' :: 'u' :: hexadecimal 4 n
  else '\\' :: 'U' :: hexadecimal 8 n

/-- A character as it stands between quotation marks `mark`. -/
def escaped (mark c : Char) : Text :=
  if c = mark || c = '\\' then ['\\', c]
  else if c = '\t' then ['\\', 't']
  else if c = '\n' then ['\\', 'n']
  else if c = '\r' then ['\\', 'r']
  else if isPrintable c then [c]
  else codePointEscape c

/-- The text between quotation marks. -/
def quoted (t : Text) : Text :=
  let mark := quotationMark t
  mark :: (t.flatMap (escaped mark) ++ [mark])

/-- The quoted text, for use in a message. -/
def quotedString (t : Text) : String := String.ofList (quoted t)

end Text

end RobotMaze
