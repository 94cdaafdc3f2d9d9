import RobotMaze.Numeral
import RobotMaze.Program.Scope

/-!
# Numeric expressions

A numeric argument is evaluated in the scope of the call. The forms are tried in this order on the
trimmed text:

* an optional sign and digits is that number;
* a single letter `A` to `Z` is the number that the letter is bound to, or zero;
* a text with a plus sign is the sum of the pieces between plus signs;
* a text with exactly one minus sign is the difference of the two pieces;
* anything else is zero.

So there is no precedence beyond "sums first", and a piece with two minus signs counts as zero. The
only failure is a numeral that is too long; of several, the leftmost is reported.
-/

namespace RobotMaze

namespace Expression

open Text

/-- The characters that a numeric argument is made of. -/
def isNumericChar (c : Char) : Bool :=
  ('0' ≤ c && c ≤ '9') || isParameterLetter c || c == '+' || c == '-'

/-- Whether an argument counts as numeric, and not as program text. -/
def isNumeric (t : Text) : Bool := !t.isEmpty && t.all isNumericChar

/-- A letter `A` to `Z` that makes up the whole text. -/
def letter? : Text → Option Char
  | [c] => if isParameterLetter c then some c else none
  | _ => none

theorem length_lt_of_mem_splitOn_trim {separator : Char} {t piece : Text}
    (hs : separator ∈ trim t) (h : piece ∈ List.splitOn separator (trim t)) :
    piece.length < t.length :=
  Nat.lt_of_lt_of_le (length_lt_of_mem_splitOn hs h) (length_trim_le t)

/-- The value of an expression in a scope. -/
def evaluate (scope : Scope) (expr : Text) : Except Numeral.TooLong Int :=
  let e := trim expr
  match Numeral.signed? e with
  | some (negative, digits) => Numeral.value negative digits
  | none =>
    match letter? e with
    | some c => .ok (scope.number [c])
    | none =>
      if _ : '+' ∈ e then do
        let terms ← (List.splitOn '+' e).attach.mapM fun ⟨piece, _⟩ => evaluate scope piece
        return terms.foldr (· + ·) 0
      else if _ : '-' ∈ e then
        match _hp : List.splitOn '-' e with
        | [a, b] => do
          let x ← evaluate scope a
          let y ← evaluate scope b
          return x - y
        | _ => .ok 0
      else .ok 0
termination_by expr.length
decreasing_by
  · exact length_lt_of_mem_splitOn_trim (by assumption) (by assumption)
  · exact @length_lt_of_mem_splitOn_trim '-' _ _ (by assumption) (by simp [e, _hp])
  · exact @length_lt_of_mem_splitOn_trim '-' _ _ (by assumption) (by simp [e, _hp])

end Expression

end RobotMaze
