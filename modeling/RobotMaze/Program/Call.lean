import RobotMaze.Text.Blank

/-!
# Argument lists

A call is a function letter, directly followed by an argument list if it has one. An argument list
starts with an opening parenthesis and reaches to the closing parenthesis that matches it, or to the
end of the text if none does. Inside, arguments are separated by every comma, however deep in
parentheses it stands.
-/

namespace RobotMaze

namespace Call

open Text

/-- How many characters stand before the closing parenthesis that brings the number of open
parentheses from `depth` back to zero. -/
def closingDistance : Int → Text → Option Nat
  | _, [] => none
  | depth, c :: rest =>
    if c = '(' then (closingDistance (depth + 1) rest).map (· + 1)
    else if c = ')' then
      if depth = 1 then some 0 else (closingDistance (depth - 1) rest).map (· + 1)
    else (closingDistance depth rest).map (· + 1)

/-- The position of the parenthesis that closes the one at `start`, or the length of the text. A
negative `start` counts from the end, and reading then goes on from the front of the text. There is
no character at `start` if it lies before the text. -/
def closingParen? (text : Text) (start : Int) : Option Int :=
  if start < -text.length then none
  else
    let ahead :=
      if 0 ≤ start then text.drop start.toNat else text.drop (text.length + start).toNat ++ text
    match closingDistance 0 ahead with
    | some n => some (start + n)
    | none => some text.length

/-- The argument list that a text starts with, without its parentheses, and the text after it. A
text that starts with no parenthesis has an empty argument list. -/
def takeArguments (t : Text) : Text × Text :=
  match t with
  | '(' :: inside =>
    match closingDistance 1 inside with
    | some n => (inside.take n, inside.drop (n + 1))
    | none => (inside, [])
  | _ => ([], t)

/-- The arguments of an argument list, trimmed. -/
def arguments (argsText : Text) : List Text :=
  if argsText.isEmpty then [] else (List.splitOn ',' argsText).map trim

theorem length_takeArguments_snd_le (t : Text) : (takeArguments t).2.length ≤ t.length := by
  unfold takeArguments
  split
  · split
    · simp; omega
    · simp
  · simp

end Call

end RobotMaze
