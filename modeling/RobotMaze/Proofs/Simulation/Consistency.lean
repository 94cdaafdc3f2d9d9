import RobotMaze.Proofs.Board.Level
import RobotMaze.Proofs.Board.Move
import RobotMaze.Proofs.Simulation.Answers

/-!
# Games stay consistent

A state keeps the same facts in several places. How many points there are can be counted on the
board and read from two counters; that a game has ended can be read from a flag, an outcome and a
message; that it is won can be read from a flag, the outcome and the counters. This file shows that
these agree in every state of every game on a level.

## The invariant

`State.Consistent` has three parts. `WellPlaced` is about the board and the robot on it, and holds
the law that ties the counters to the board: points collected and points left make up the total.
`WellReported` is about the flags. `WellFooted` is about the cell under the robot, and asks for a
level that marks where the robot starts: without a mark the robot may start on a bomb or in a wall.

A move keeps the parts apart: what it does to the board never looks at the flags, and ending the
game never touches the board. The one place where they meet is the last point.

## Main results

* `State.Consistent.apply` — one instruction, or any other text
* `State.Consistent.applyAll` — any number of them
* `Simulation.Consistent.next` — one question to a simulation
* `Level.newGame_stays_consistent` — every game on a level
-/

namespace RobotMaze

namespace State

variable {size : Int} {s : State}

/-- The board is a square of cell codes, the robot is on it, and no point is lost. -/
structure WellPlaced (size : Int) (s : State) : Prop where
  square : s.grid.IsSquare size
  codes : ∀ row ∈ s.grid, ∀ c ∈ row, Cell.isCode c = true ∧ c ≠ Cell.robotMark
  column : 0 ≤ s.robot.x ∧ s.robot.x < size
  row : 0 ≤ s.robot.y ∧ s.robot.y < size
  collected_nonneg : 0 ≤ s.collected
  /-- What has been collected and what is left make up the total. -/
  conserved : s.collected + s.grid.points = s.totalPoints

/-- The flags, the outcome, the message and the counters tell the same. -/
structure WellReported (s : State) : Prop where
  over_iff_outcome : s.isOver = true ↔ s.outcome ≠ .running
  over_iff_message : s.isOver = true ↔ s.message ≠ ""
  won_iff_outcome : s.isWon = true ↔ s.outcome = .won
  won_iff_points : s.isWon = true ↔ 0 < s.totalPoints ∧ s.collected = s.totalPoints

/-- The robot stands on a cell that it can have entered, and on a bomb exactly if it hit one. -/
def WellFooted (s : State) : Prop :=
  ∃ code, s.grid.cell? s.robot.x s.robot.y = some code ∧ Cell.kind code ≠ .wall ∧
    Cell.kind code ≠ .point ∧ (Cell.kind code = .bomb ↔ s.outcome = .hitBomb)

/-- The invariant of games on a level. `marked` tells whether the level has a robot mark. -/
structure Consistent (size : Int) (marked : Prop) (s : State) : Prop where
  placed : s.WellPlaced size
  reported : s.WellReported
  footed : marked → s.WellFooted

/-! ### Ending a game -/

theorem WellPlaced.finish (h : s.WellPlaced size) (outcome : Outcome) (message : String) :
    (s.finish outcome message).WellPlaced size :=
  ⟨h.square, h.codes, h.column, h.row, h.collected_nonneg, h.conserved⟩

theorem WellReported.outcome_eq (h : s.WellReported) (ho : s.isOver = false) :
    s.outcome = .running := by
  by_cases hr : s.outcome = .running
  · exact hr
  · rw [h.over_iff_outcome.2 hr] at ho
    cases ho

/-- A game that goes on has points left, if it had any. -/
theorem WellReported.not_all (h : s.WellReported) (ho : s.isOver = false) :
    ¬(0 < s.totalPoints ∧ s.collected = s.totalPoints) := by
  rw [← h.won_iff_points, h.won_iff_outcome, h.outcome_eq ho]
  simp

/-- Any end but winning can be reported of a game that goes on. -/
theorem WellReported.finish (h : s.WellReported) (ho : s.isOver = false) {outcome : Outcome}
    {message : String} (hrunning : outcome ≠ .running) (hwon : outcome ≠ .won)
    (hmessage : message ≠ "") : (s.finish outcome message).WellReported where
  over_iff_outcome := by simp [State.finish, hrunning]
  over_iff_message := by simp [State.finish, hmessage]
  won_iff_outcome := by simp [State.finish]
  won_iff_points := by simpa [State.finish, hwon] using h.not_all ho

/-- The cell under the robot is no bomb while the game goes on. -/
theorem WellFooted.finish (h : s.WellFooted) (hs : s.outcome = .running) {outcome : Outcome}
    (hbomb : outcome ≠ .hitBomb) (message : String) : (s.finish outcome message).WellFooted := by
  obtain ⟨code, hcell, hwall, hpoint, hiff⟩ := h
  have hsafe : Cell.kind code ≠ .bomb := by
    intro hk
    rw [hs] at hiff
    cases hiff.1 hk
  refine ⟨code, hcell, hwall, hpoint, ?_⟩
  constructor
  · intro hk
    exact (hsafe hk).elim
  · intro ho
    exact (hbomb ho).elim

/-- **Losing.** A game that goes on can end in any way but by winning or on a bomb. -/
theorem Consistent.finish {marked : Prop} (h : s.Consistent size marked) (ho : s.isOver = false)
    {outcome : Outcome} {message : String} (hrunning : outcome ≠ .running) (hwon : outcome ≠ .won)
    (hbomb : outcome ≠ .hitBomb) (hmessage : message ≠ "") :
    (s.finish outcome message).Consistent size marked :=
  ⟨h.placed.finish outcome message, h.reported.finish ho hrunning hwon hmessage,
    fun hm => (h.footed hm).finish (h.reported.outcome_eq ho) hbomb message⟩

/-! ### Moving -/

/-- Neither the steps counted nor the direction of the robot matter. -/
theorem Consistent.turn {marked : Prop} (h : s.Consistent size marked) (steps : Int)
    (direction : Direction) :
    Consistent size marked { s with steps, robot := { s.robot with direction } } :=
  ⟨⟨h.placed.square, h.placed.codes, h.placed.column, h.placed.row, h.placed.collected_nonneg,
    h.placed.conserved⟩,
    ⟨h.reported.over_iff_outcome, h.reported.over_iff_message, h.reported.won_iff_outcome,
      h.reported.won_iff_points⟩,
    h.footed⟩

theorem WellPlaced.stepped (h : s.WellPlaced size)
    (hb : s.grid.inBounds s.robot.ahead.1 s.robot.ahead.2 = true) : s.stepped.WellPlaced size :=
  have hin := h.square.inBounds_iff.1 hb
  ⟨h.square, h.codes, hin.1, hin.2, h.collected_nonneg, h.conserved⟩

theorem WellReported.stepped (h : s.WellReported) : s.stepped.WellReported :=
  ⟨h.over_iff_outcome, h.over_iff_message, h.won_iff_outcome, h.won_iff_points⟩

/-- Taking a point moves it from the board to the counter. -/
theorem WellPlaced.picked (h : s.WellPlaced size)
    (hb : s.grid.inBounds s.robot.ahead.1 s.robot.ahead.2 = true)
    (hc : s.grid.cell? s.robot.ahead.1 s.robot.ahead.2 = some Cell.point) :
    s.picked.WellPlaced size where
  square := h.square.set _ _ _
  codes := Grid.forall_mem_set h.codes (by decide)
  column := (h.stepped hb).column
  row := (h.stepped hb).row
  collected_nonneg := Int.add_nonneg h.collected_nonneg (by decide)
  conserved := by
    have hpoints := Grid.points_set_empty hc
    have hconserved := h.conserved
    simp only [State.picked, State.stepped]
    omega

/-- Counting a point keeps the report, if it is not the last one. -/
theorem WellReported.picked (h : s.WellReported) (ho : s.isOver = false)
    (hn : s.collected + 1 ≠ s.totalPoints) : s.picked.WellReported where
  over_iff_outcome := h.over_iff_outcome
  over_iff_message := h.over_iff_message
  won_iff_outcome := h.won_iff_outcome
  won_iff_points := by
    have hwon : s.isWon = false := by
      rw [← Bool.not_eq_true, h.won_iff_outcome, h.outcome_eq ho]
      simp
    simp [State.picked, State.stepped, hwon, hn]

/-- **Winning.** The last point ends the game, with all points collected. -/
theorem WellReported.lastPoint (hp : s.WellPlaced size) (hn : s.collected + 1 = s.totalPoints) :
    (s.picked.finish .won wonMessage).WellReported where
  over_iff_outcome := by simp [State.finish]
  over_iff_message := by simp [State.finish, wonMessage]
  won_iff_outcome := by simp [State.finish]
  won_iff_points := by
    have hnonneg := hp.collected_nonneg
    simp only [State.finish, State.picked, State.stepped, decide_true, true_iff]
    omega

/-- The cell of a point that has been taken is empty. -/
theorem WellFooted.picked {code : Char}
    (hc : s.grid.cell? s.robot.ahead.1 s.robot.ahead.2 = some code) (hs : s.outcome ≠ .hitBomb) :
    s.picked.WellFooted := by
  refine ⟨Cell.empty, Grid.cell?_set_self hc Cell.empty, by simp, by simp, ?_⟩
  simpa [State.picked, State.stepped] using hs

/-- **One move.** A move in a game that goes on does not fail, and keeps the game consistent. -/
theorem Consistent.moveAhead {marked : Prop} (h : s.Consistent size marked)
    (ho : s.isOver = false) :
    s.moveAhead.2 = none ∧ s.moveAhead.1.Consistent size marked := by
  have hrunning := h.reported.outcome_eq ho
  have hmove := s.move_moveAhead
  generalize s.moveAhead = r at hmove ⊢
  cases hmove with
  | outside hb =>
    exact ⟨rfl, h.finish ho (by decide) (by decide) (by decide) (by decide)⟩
  | missing hb hc =>
    obtain ⟨hx, hy⟩ := h.placed.square.inBounds_iff.1 hb
    obtain ⟨code, hcode⟩ := h.placed.square.exists_cell hx hy
    rw [hcode] at hc
    cases hc
  | blocked hb hc hk => exact ⟨rfl, h⟩
  | free hb hc hk =>
    refine ⟨rfl, h.placed.stepped hb, h.reported.stepped, fun _ => ⟨_, hc, ?_⟩⟩
    simp [hk, State.stepped, hrunning]
  | bomb hb hc hk =>
    refine ⟨rfl, (h.placed.stepped hb).finish _ _,
      h.reported.stepped.finish ho (by decide) (by decide) (by decide), fun _ => ⟨_, hc, ?_⟩⟩
    simp [hk, State.finish]
  | point hb hc hk hn =>
    have hc' := Cell.eq_point_of_kind hk ▸ hc
    exact ⟨rfl, h.placed.picked hb hc', h.reported.picked ho hn,
      fun _ => .picked hc (by simp [hrunning])⟩
  | lastPoint hb hc hk hn =>
    have hc' := Cell.eq_point_of_kind hk ▸ hc
    refine ⟨rfl, (h.placed.picked hb hc').finish _ _, .lastPoint h.placed hn, fun _ => ?_⟩
    exact WellFooted.finish (.picked hc (by simp [hrunning])) hrunning (by decide) _

/-- **One instruction.** In a game that goes on it does not fail. -/
theorem Consistent.obey {marked : Prop} (h : s.Consistent size marked) (ho : s.isOver = false)
    (i : Instruction) : (s.obey i).2 = none ∧ (s.obey i).1.Consistent size marked := by
  cases i with
  | left => exact ⟨rfl, h.turn _ _⟩
  | right => exact ⟨rfl, h.turn _ _⟩
  | step => exact (h.turn (s.steps + 1) s.robot.direction).moveAhead ho

/-- **One text.** A text that is no instruction fails and changes nothing; no cell is ever
missing. -/
theorem Consistent.apply {marked : Prop} (h : s.Consistent size marked) (text : Text) :
    (s.apply text).2 ≠ some .missingCell ∧ (s.apply text).1.Consistent size marked := by
  by_cases ho : s.isOver = true
  · rw [apply_of_isOver ho]
    exact ⟨by simp, h⟩
  rw [State.apply, if_neg ho]
  rw [Bool.not_eq_true] at ho
  cases Instruction.ofText? text with
  | none => exact ⟨by simp, h⟩
  | some i =>
    obtain ⟨hok, hafter⟩ := h.obey ho i
    exact ⟨by simp [hok], hafter⟩

/-- The letter of an instruction does not fail. -/
theorem Consistent.apply_letter {marked : Prop} (h : s.Consistent size marked)
    (ho : s.isOver = false) {c : Char} (hc : Instruction.isLetter c = true) :
    (s.apply [c]).2 = none ∧ (s.apply [c]).1.Consistent size marked := by
  obtain ⟨i, hi⟩ := Option.isSome_iff_exists.1 hc
  rw [State.apply_letter ho hi]
  exact h.obey ho i

/-- The state after some texts have been applied one after the other, failing ones included. -/
def applyAll (s : State) (texts : List Text) : State := texts.foldl (fun s t => (s.apply t).1) s

/-- **Any number of instructions.** -/
theorem Consistent.applyAll {marked : Prop} (h : s.Consistent size marked) (texts : List Text) :
    (s.applyAll texts).Consistent size marked := by
  induction texts generalizing s with
  | nil => exact h
  | cons text texts ih => exact ih (h.apply text).2

end State

/-! ### New games -/

namespace Level

variable {text : Text} {size : Int}

theorem consistent_newGame (h : 1 ≤ size) :
    (newGame text size).Consistent size (Marked text size) where
  placed :=
    { square := isSquare_grid (by omega)
      codes := fun row hrow c hc =>
        have hcode := isCode_of_mem_grid row hrow c hc
        ⟨hcode, Cell.ne_robotMark_of_isCode hcode⟩
      column := ⟨Int.natCast_nonneg _, (start_lt h).1⟩
      row := ⟨Int.natCast_nonneg _, (start_lt h).2⟩
      collected_nonneg := Int.le_refl 0
      conserved := Int.zero_add _ }
  reported :=
    { over_iff_outcome := by simp [newGame]
      over_iff_message := by simp [newGame]
      won_iff_outcome := by simp [newGame]
      won_iff_points := by simp [newGame]; omega }
  footed := fun hm => ⟨Cell.empty, cell?_start (by omega) hm, by simp [newGame]⟩

end Level

/-! ### Simulations -/

namespace Simulation

variable {size : Int} {marked : Prop} {sim : Simulation}

/-- The board of the simulation is consistent, and it shows a game that goes on as long as there
are snapshots to come after the first. -/
structure Consistent (size : Int) (marked : Prop) (sim : Simulation) : Prop where
  state : sim.state.Consistent size marked
  going : sim.isDone = false → sim.started = true → sim.state.isOver = false

theorem isLetter_of_ahead {c : Char} {rest : Text} (h : sim.ahead = c :: rest) :
    Instruction.isLetter c = true := by
  have hhead := List.head?_dropWhile_not (!Instruction.isLetter ·) sim.unread
  rw [show sim.unread.dropWhile (!Instruction.isLetter ·) = c :: rest from h] at hhead
  simpa using hhead

theorem append_ne_empty {a b : String} (h : a ≠ "") : a ++ b ≠ "" := fun hab =>
  h (String.append_eq_empty_iff.1 hab).1

theorem maxStepsMessage_ne_empty (maxSteps : Int) : maxStepsMessage maxSteps ≠ "" :=
  append_ne_empty (append_ne_empty (by decide))

/-- **One question.** A consistent simulation does not fail, shows a consistent state if it shows
one, and stays consistent. -/
theorem Consistent.next (h : sim.Consistent size marked) :
    ((∀ e, sim.next.1 ≠ .failed e) ∧
      ∀ s, sim.next.1 = .snapshot s → s.Consistent size marked) ∧
      sim.next.2.Consistent size marked := by
  have hturn := sim.turn_next
  generalize sim.next = r at hturn ⊢
  cases hturn with
  | done hd => exact ⟨⟨by simp, by simp⟩, h⟩
  | first hd hs =>
    refine ⟨⟨by simp, fun s heq => by cases heq; exact h.state⟩, h.state, fun hd' _ => ?_⟩
    exact (Bool.or_eq_false_iff.1 hd').1
  | exhausted hd hs ha => exact ⟨⟨by simp, by simp⟩, h.state, by simp [isDone]⟩
  | limit hd hs ha hm =>
    have hstate : (sim.state.finish .maxSteps (maxStepsMessage sim.maxSteps)).Consistent size
        marked :=
      h.state.finish (h.going hd hs) (by decide) (by decide) (by decide)
        (maxStepsMessage_ne_empty sim.maxSteps)
    exact ⟨⟨by simp, fun s heq => by cases heq; exact hstate⟩, hstate, by simp [isDone]⟩
  | failed hd hs ha hm he =>
    have hok := (h.state.apply_letter (h.going hd hs) (isLetter_of_ahead ha)).1
    rw [he] at hok
    cases hok
  | applied hd hs ha hm he =>
    have hstate := (h.state.apply_letter (h.going hd hs) (isLetter_of_ahead ha)).2
    rw [he] at hstate
    refine ⟨⟨by simp, fun s heq => by cases heq; exact hstate⟩, hstate, fun hd' _ => ?_⟩
    exact (Bool.or_eq_false_iff.1 hd').1

theorem message_ne_empty (e : DepthExceeded) : e.message ≠ "" :=
  append_ne_empty (append_ne_empty (append_ne_empty (append_ne_empty (by decide))))

/-- An expanded program starts a consistent simulation, and so does one that recurses too deeply. -/
theorem consistent_of_ofExpansion {initial : State} {maxSteps : Int}
    {expansion : Except ExpansionError (List Instruction)} (h : initial.Consistent size marked)
    (ho : initial.isOver = false) (hsim : ofExpansion initial maxSteps expansion = .ok sim) :
    sim.Consistent size marked := by
  rcases expansion with (e | e) | instructions
  · cases hsim
    exact ⟨h.finish ho (by decide) (by decide) (by decide) (message_ne_empty e),
      by simp [ofInstructions]⟩
  · cases hsim
  · cases hsim
    exact ⟨h, by simp [ofInstructions]⟩

end Simulation

/-- **Games on a level stay consistent.** On a board of at least one cell, this holds after any
texts have been applied, and of every snapshot of every program under any limits. No step is ever
taken from or to a missing cell. -/
theorem Level.newGame_stays_consistent (level : Text) (size : Int) (h : 1 ≤ size) :
    (∀ texts : List Text,
      ((newGame level size).applyAll texts).Consistent size (Marked level size) ∧
        ∀ text, (((newGame level size).applyAll texts).apply text).2 ≠ some .missingCell) ∧
      ∀ program maxDepth maxSteps sim,
        (Simulation.start program (newGame level size) maxDepth maxSteps).value = .ok sim →
          ∀ n, ∀ d ∈ sim.answers n, (∀ e, d ≠ .failed e) ∧
            ∀ s, d = .snapshot s → s.Consistent size (Marked level size) := by
  have hnew := @consistent_newGame level size h
  refine ⟨fun texts => ⟨hnew.applyAll texts, fun text => ((hnew.applyAll texts).apply text).1⟩, ?_⟩
  intro program maxDepth maxSteps sim hstart
  exact Simulation.forall_mem_answers (fun _ hsim => hsim.next)
    (Simulation.consistent_of_ofExpansion hnew rfl hstart)

/-- A robot that takes one of two points and then turns towards a bomb. -/
theorem Level.newGame_stays_consistent_bomb :
    let level := "*oo\nAu.".toList
    let lost := (newGame level 3).applyAll [['s'], ['l'], ['s']]
    (1 : Int) ≤ 3 ∧ Marked level 3 ∧ (lost.outcome, lost.collected) = (.hitBomb, 1) ∧
      lost.Consistent 3 (Marked level 3) ∧ lost.WellFooted := by
  intro level lost
  have hmarked : Marked level 3 := ⟨1, 1, by decide, by decide, by decide⟩
  have hlost := ((newGame_stays_consistent level 3 (by decide)).1 [['s'], ['l'], ['s']]).1
  exact ⟨by decide, hmarked, by decide, hlost, hlost.footed hmarked⟩

end RobotMaze
