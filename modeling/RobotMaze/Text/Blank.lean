import RobotMaze.Text.Basic

/-!
# White space

The white space of a program is that of the Unicode standard together with the four information
separators. Trimming removes it at either end of a text.
-/

namespace RobotMaze

namespace Text

/-- White space: tabs and line feeds, the information separators, and every Unicode space. -/
def isBlank (c : Char) : Bool :=
  let n := c.toNat
  (0x09 ≤ n && n ≤ 0x0D) || (0x1C ≤ n && n ≤ 0x20) || n == 0x85 || n == 0xA0 || n == 0x1680 ||
    (0x2000 ≤ n && n ≤ 0x200A) || n == 0x2028 || n == 0x2029 || n == 0x202F || n == 0x205F ||
    n == 0x3000

/-- The text from its first character that is not white space. -/
def trimStart (t : Text) : Text := t.dropWhile isBlank

/-- The text up to its last character that is not white space. -/
def trimEnd (t : Text) : Text := (t.reverse.dropWhile isBlank).reverse

/-- The text without white space at its ends. -/
def trim (t : Text) : Text := trimEnd (trimStart t)

/-- How many white-space characters a text starts with. -/
def indent (t : Text) : Nat := (t.takeWhile isBlank).length

theorem length_trimStart_le (t : Text) : (trimStart t).length ≤ t.length :=
  (List.dropWhile_suffix isBlank).length_le

theorem length_trimEnd_le (t : Text) : (trimEnd t).length ≤ t.length := by
  have hdrop : (t.reverse.dropWhile isBlank).length ≤ t.reverse.length :=
    (List.dropWhile_suffix isBlank).length_le
  simpa only [trimEnd, List.length_reverse] using hdrop

theorem length_trim_le (t : Text) : (trim t).length ≤ t.length :=
  Nat.le_trans (length_trimEnd_le _) (length_trimStart_le _)

/-- The indentation and the text after it make up the text. -/
theorem indent_add_length_trimStart (t : Text) : indent t + (trimStart t).length = t.length := by
  have h := congrArg List.length (List.takeWhile_append_dropWhile (p := isBlank) (l := t))
  rw [List.length_append] at h
  exact h

end Text

end RobotMaze
