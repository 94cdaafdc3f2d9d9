import RobotMaze.Text.Basic

/-!
# Primitive instructions

The robot understands three instructions. Each is written as one letter.
-/

namespace RobotMaze

/-- What the robot can be told to do. -/
inductive Instruction where
  /-- Move one cell ahead, written `s`. -/
  | step
  /-- Turn a quarter to the left, written `l`. -/
  | left
  /-- Turn a quarter to the right, written `r`. -/
  | right
deriving DecidableEq, Repr

namespace Instruction

/-- The letter of an instruction. -/
def letter : Instruction → Char
  | .step => 's'
  | .left => 'l'
  | .right => 'r'

/-- The instruction that a letter stands for. -/
def ofLetter? (c : Char) : Option Instruction :=
  if c = 's' then some .step
  else if c = 'l' then some .left
  else if c = 'r' then some .right
  else none

/-- The instruction that a text of one letter stands for. -/
def ofText? : Text → Option Instruction
  | [c] => ofLetter? c
  | _ => none

/-- Whether a letter stands for an instruction. -/
def isLetter (c : Char) : Bool := (ofLetter? c).isSome

/-- Instructions as text, one letter each. -/
def write (instructions : List Instruction) : Text := instructions.map letter

@[simp] theorem ofLetter?_letter (i : Instruction) : ofLetter? i.letter = some i := by
  cases i <;> rfl

theorem letter_of_ofLetter? {c : Char} {i : Instruction} (h : ofLetter? c = some i) :
    i.letter = c := by
  unfold ofLetter? at h
  split at h
  · cases h; simp [letter, *]
  · split at h
    · cases h; simp [letter, *]
    · split at h
      · cases h; simp [letter, *]
      · simp at h

end Instruction

end RobotMaze
