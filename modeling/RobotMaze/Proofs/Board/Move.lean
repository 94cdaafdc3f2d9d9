import RobotMaze.Board.State

/-!
# What an instruction can do

`State.obey` turns the robot or tries to move it, and a move has one of seven endings. `Move` lists
them, each with the conditions under which it happens and the state that it leads to. Invariants of
a game are case analyses on `Move`; they never open `State.moveAhead`.
-/

namespace RobotMaze

namespace State

variable {s : State}

/-- The robot on the cell ahead of it. -/
def stepped (s : State) : State :=
  { s with robot := { s.robot with x := s.robot.ahead.1, y := s.robot.ahead.2 } }

/-- The robot on the cell ahead of it, with the point on that cell taken. -/
def picked (s : State) : State :=
  { s.stepped with
    grid := s.grid.set s.robot.ahead.1 s.robot.ahead.2 Cell.empty
    collected := s.collected + 1 }

/-- The ways in which a move can end. -/
inductive Move (s : State) : State × Option StepError → Prop
  /-- The robot leaves the board. -/
  | outside (hb : s.grid.inBounds s.robot.ahead.1 s.robot.ahead.2 = false) :
    Move s (s.finish .hitWall hitWallMessage, none)
  /-- The row of the cell ahead is too short. -/
  | missing (hb : s.grid.inBounds s.robot.ahead.1 s.robot.ahead.2 = true)
    (hc : s.grid.cell? s.robot.ahead.1 s.robot.ahead.2 = none) : Move s (s, some .missingCell)
  /-- A wall is in the way. -/
  | blocked {code : Char} (hb : s.grid.inBounds s.robot.ahead.1 s.robot.ahead.2 = true)
    (hc : s.grid.cell? s.robot.ahead.1 s.robot.ahead.2 = some code)
    (hk : Cell.kind code = .wall) : Move s (s, none)
  /-- The robot enters an empty cell. -/
  | free {code : Char} (hb : s.grid.inBounds s.robot.ahead.1 s.robot.ahead.2 = true)
    (hc : s.grid.cell? s.robot.ahead.1 s.robot.ahead.2 = some code)
    (hk : Cell.kind code = .empty) : Move s (s.stepped, none)
  /-- The robot enters a cell with a bomb. -/
  | bomb {code : Char} (hb : s.grid.inBounds s.robot.ahead.1 s.robot.ahead.2 = true)
    (hc : s.grid.cell? s.robot.ahead.1 s.robot.ahead.2 = some code)
    (hk : Cell.kind code = .bomb) : Move s (s.stepped.finish .hitBomb hitBombMessage, none)
  /-- The robot takes a point, and there are others to take. -/
  | point {code : Char} (hb : s.grid.inBounds s.robot.ahead.1 s.robot.ahead.2 = true)
    (hc : s.grid.cell? s.robot.ahead.1 s.robot.ahead.2 = some code)
    (hk : Cell.kind code = .point) (hn : s.collected + 1 ≠ s.totalPoints) : Move s (s.picked, none)
  /-- The robot takes the last point. -/
  | lastPoint {code : Char} (hb : s.grid.inBounds s.robot.ahead.1 s.robot.ahead.2 = true)
    (hc : s.grid.cell? s.robot.ahead.1 s.robot.ahead.2 = some code)
    (hk : Cell.kind code = .point) (hn : s.collected + 1 = s.totalPoints) :
    Move s (s.picked.finish .won wonMessage, none)

theorem enter_point (s : State) :
    s.enter s.robot.ahead.1 s.robot.ahead.2 .point =
      if s.collected + 1 = s.totalPoints then s.picked.finish .won wonMessage else s.picked := rfl

theorem move_moveAhead (s : State) : Move s s.moveAhead := by
  by_cases hb : s.grid.inBounds s.robot.ahead.1 s.robot.ahead.2 = true
  · cases hc : s.grid.cell? s.robot.ahead.1 s.robot.ahead.2 with
    | none =>
      simp only [moveAhead, hb, hc, if_true]
      exact .missing hb hc
    | some code =>
      cases hk : Cell.kind code <;> simp only [moveAhead, hb, hc, hk, if_true]
      case wall => exact .blocked hb hc hk
      case empty => exact .free hb hc hk
      case bomb => exact .bomb hb hc hk
      case point =>
        rw [enter_point]
        split
        · rename_i hn; exact .lastPoint hb hc hk hn
        · rename_i hn; exact .point hb hc hk hn
  · simp only [moveAhead, hb]
    exact .outside (by simpa using hb)

/-! ### Applying a letter -/

/-- A game that is over stays as it is. -/
theorem apply_of_isOver (h : s.isOver = true) (text : Text) : s.apply text = (s, none) := by
  rw [apply, if_pos h]

theorem apply_letter {c : Char} {i : Instruction} (hs : s.isOver = false)
    (hi : Instruction.ofLetter? c = some i) : s.apply [c] = s.obey i := by
  simp [apply, hs, Instruction.ofText?, hi]

/-! ### Counting steps -/

theorem steps_moveAhead (s : State) : s.moveAhead.1.steps = s.steps := by
  have hmove := s.move_moveAhead
  generalize s.moveAhead = r at hmove ⊢
  cases hmove <;> rfl

/-- Every instruction counts one step, also one that cannot be carried out. -/
theorem steps_obey (s : State) (i : Instruction) : (s.obey i).1.steps = s.steps + 1 := by
  cases i with
  | step => exact steps_moveAhead _
  | left => rfl
  | right => rfl

/-- A letter counts one step, unless the game was over before. -/
theorem steps_of_apply_letter {after : State} {c : Char} {error : Option StepError}
    (hc : Instruction.isLetter c = true) (h : s.apply [c] = (after, error)) :
    after.steps = s.steps + 1 ∨ after.isOver = true ∧ error = none := by
  by_cases hs : s.isOver = true
  · rw [apply_of_isOver hs] at h
    cases h
    exact .inr ⟨hs, rfl⟩
  · obtain ⟨i, hi⟩ := Option.isSome_iff_exists.1 hc
    rw [apply_letter (by simpa using hs) hi] at h
    have hsteps := steps_obey s i
    rw [h] at hsteps
    exact .inl hsteps

end State

end RobotMaze
