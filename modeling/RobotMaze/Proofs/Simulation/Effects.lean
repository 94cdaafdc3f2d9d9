import Mathlib.Data.Finset.Card
import RobotMaze.Proofs.Simulation.Consistency

/-!
# What a run may change

A run is any number of texts that are applied to a state one after the other. This file says what
such a run can have done to the state, whatever the board looks like: it may be empty, its rows may
differ in length, the robot may stand outside, and texts may fail.

## Taken points

All that a run does to the board is that it takes points. `Collects before taken after` says so of
two states, with the set of cells whose points have been taken: these were points and are empty now,
all other cells are as before, and the counter has grown by the number of the cells. A call takes
one point at most, under the robot (`exists_collects_apply`). Two runs can be put together since a
cell that has been emptied is no point any more, so that no cell is taken twice (`Collects.trans`).

The set is not an extra record: it can be read off the boards, as the set of the cells that differ
(`Collects.mem_iff`).

## Main results

* `State.Collects.trans`, `State.exists_collects_applyAll` — points taken by a call, and by a run
* `State.steps_applyAll` — steps counted by a run
* `State.steers_apply` — how a call moves the robot
* `State.applyAll_effects` — all of it, for any run on any board
-/

namespace RobotMaze

/-- A code that is no wall for the robot is none of the letters of walls. -/
theorem Cell.isWall_eq_false {c : Char} (h : kind c ≠ .wall) : isWall c = false := by
  rw [← Bool.not_eq_true]
  intro hwall
  have hbomb : c ≠ bomb := fun hc => absurd (hc ▸ hwall) (by decide)
  have hpoint : c ≠ point := fun hc => absurd (hc ▸ hwall) (by decide)
  exact h (by rw [kind, if_neg hbomb, if_neg hpoint, if_pos hwall])

/-- Three texts are instructions. -/
theorem Instruction.isSome_ofText? (text : Text) :
    (ofText? text).isSome = decide (text ∈ [['s'], ['l'], ['r']]) := by
  match text with
  | [] => rfl
  | [c] =>
    rw [ofText?, ofLetter?]
    by_cases hs : c = 's'
    · simp [hs]
    by_cases hl : c = 'l'
    · simp [hl]
    by_cases hr : c = 'r' <;> simp [hs, hl, hr]
  | _ :: _ :: _ => simp [ofText?]

/-- A text that is applied, and the state to which it is applied. -/
structure Call where
  before : State
  text : Text

namespace Call

/-- The state after the text has been applied, whether it fails or not. -/
def after (call : Call) : State := (call.before.apply call.text).1

/-- Whether the call counts a step: the text is the letter of an instruction, and the game goes
on. -/
def counts (call : Call) : Bool :=
  !call.before.isOver && decide (call.text ∈ [['s'], ['l'], ['r']])

end Call

namespace State

variable {s t u : State} {text : Text} {texts : List Text} {T U : Finset (Int × Int)}

/-- The calls of a run. -/
def calls (s : State) : List Text → List Call
  | [] => []
  | text :: texts => ⟨s, text⟩ :: calls (s.apply text).1 texts

theorem applyAll_cons (s : State) (text : Text) (texts : List Text) :
    s.applyAll (text :: texts) = (s.apply text).1.applyAll texts := rfl

/-! ### Taking points -/

/-- From the first state to the second, the points of some cells have been taken. -/
structure Collects (before : State) (taken : Finset (Int × Int)) (after : State) : Prop where
  initialRobot : after.initialRobot = before.initialRobot
  totalPoints : after.totalPoints = before.totalPoints
  shape : after.grid.map List.length = before.grid.map List.length
  others : ∀ x y, (x, y) ∉ taken → after.grid.cell? x y = before.grid.cell? x y
  points : ∀ x y, (x, y) ∈ taken → before.grid.cell? x y = some Cell.point
  emptied : ∀ x y, (x, y) ∈ taken → after.grid.cell? x y = some Cell.empty
  collected : after.collected = before.collected + taken.card

/-- Nothing has been taken if the board and the counter are the same. -/
theorem collects_empty (hinitial : t.initialRobot = s.initialRobot)
    (htotal : t.totalPoints = s.totalPoints) (hgrid : t.grid = s.grid)
    (hcollected : t.collected = s.collected) : Collects s ∅ t where
  initialRobot := hinitial
  totalPoints := htotal
  shape := by rw [hgrid]
  others := fun x y _ => by rw [hgrid]
  points := by simp
  emptied := by simp
  collected := by simp [hcollected]

/-- Ending the game takes nothing. -/
theorem Collects.finish (h : Collects s T t) (outcome : Outcome) (message : String) :
    Collects s T (t.finish outcome message) :=
  ⟨h.initialRobot, h.totalPoints, h.shape, h.others, h.points, h.emptied, h.collected⟩

/-- **One run after another.** What has been taken before cannot be taken again. -/
theorem Collects.trans (h : Collects s T t) (h' : Collects t U u) : Collects s (T ∪ U) u where
  initialRobot := h'.initialRobot.trans h.initialRobot
  totalPoints := h'.totalPoints.trans h.totalPoints
  shape := h'.shape.trans h.shape
  others := by
    intro x y hxy
    rw [Finset.mem_union, not_or] at hxy
    exact (h'.others x y hxy.2).trans (h.others x y hxy.1)
  points := by
    intro x y hxy
    by_cases hT : (x, y) ∈ T
    · exact h.points x y hT
    · have hU := (Finset.mem_union.1 hxy).resolve_left hT
      rw [← h.others x y hT]
      exact h'.points x y hU
  emptied := by
    intro x y hxy
    by_cases hU : (x, y) ∈ U
    · exact h'.emptied x y hU
    · have hT := (Finset.mem_union.1 hxy).resolve_right hU
      rw [h'.others x y hU]
      exact h.emptied x y hT
  collected := by
    have hdisjoint : Disjoint T U := by
      refine Finset.disjoint_left.2 fun ⟨x, y⟩ hT hU => ?_
      have hcell := h'.points x y hU
      rw [h.emptied x y hT] at hcell
      exact absurd hcell (by decide)
    rw [h'.collected, h.collected, Finset.card_union_of_disjoint hdisjoint]
    omega

/-- The cells that have been taken are those that differ. -/
theorem Collects.mem_iff (h : Collects s T t) (x y : Int) :
    (x, y) ∈ T ↔ t.grid.cell? x y ≠ s.grid.cell? x y := by
  constructor
  · intro hxy
    rw [h.points x y hxy, h.emptied x y hxy]
    decide
  · intro hne
    by_contra hxy
    exact hne (h.others x y hxy)

theorem collects_picked
    (h : s.grid.cell? s.robot.ahead.1 s.robot.ahead.2 = some Cell.point) :
    Collects s {s.robot.ahead} s.picked where
  initialRobot := rfl
  totalPoints := rfl
  shape := Grid.map_length_set ..
  others := fun x y hxy => Grid.cell?_set_of_ne (by simpa using hxy) _
  points := by
    intro x y hxy
    obtain ⟨rfl, rfl⟩ := Prod.ext_iff.1 (Finset.mem_singleton.1 hxy)
    exact h
  emptied := by
    intro x y hxy
    obtain ⟨rfl, rfl⟩ := Prod.ext_iff.1 (Finset.mem_singleton.1 hxy)
    exact Grid.cell?_set_self h _
  collected := rfl

/-- What a move takes is under the robot. -/
theorem exists_collects_moveAhead (s : State) :
    ∃ taken, Collects s taken s.moveAhead.1 ∧
      ∀ x y, (x, y) ∈ taken → s.moveAhead.1.robot.x = x ∧ s.moveAhead.1.robot.y = y := by
  have hahead : ∀ x y, (x, y) ∈ ({s.robot.ahead} : Finset (Int × Int)) →
      s.robot.ahead.1 = x ∧ s.robot.ahead.2 = y := fun x y hxy =>
    Prod.ext_iff.1 (Finset.mem_singleton.1 hxy).symm
  have hmove := s.move_moveAhead
  generalize s.moveAhead = r at hmove ⊢
  cases hmove with
  | outside | missing | blocked | free | bomb =>
    exact ⟨∅, collects_empty rfl rfl rfl rfl, by simp⟩
  | point hb hc hk =>
    exact ⟨_, collects_picked (Cell.eq_point_of_kind hk ▸ hc), hahead⟩
  | lastPoint hb hc hk =>
    exact ⟨_, (collects_picked (Cell.eq_point_of_kind hk ▸ hc)).finish _ _, hahead⟩

/-- **One call.** What it takes is under the robot. -/
theorem exists_collects_apply (s : State) (text : Text) :
    ∃ taken, Collects s taken (s.apply text).1 ∧
      ∀ x y, (x, y) ∈ taken →
        (s.apply text).1.robot.x = x ∧ (s.apply text).1.robot.y = y := by
  have hnone : ∀ t : State, t.initialRobot = s.initialRobot → t.totalPoints = s.totalPoints →
      t.grid = s.grid → t.collected = s.collected →
      ∃ taken, Collects s taken t ∧ ∀ x y, (x, y) ∈ taken → t.robot.x = x ∧ t.robot.y = y :=
    fun t hinitial htotal hgrid hcollected =>
      ⟨∅, collects_empty hinitial htotal hgrid hcollected, by simp⟩
  rw [State.apply]
  split
  · exact hnone s rfl rfl rfl rfl
  · split
    · exact hnone s rfl rfl rfl rfl
    · rename_i i _
      cases i with
      | left | right => exact hnone _ rfl rfl rfl rfl
      | step =>
        obtain ⟨taken, htaken, hunder⟩ :=
          exists_collects_moveAhead { s with steps := s.steps + 1 }
        have hcounted : Collects s ∅ { s with steps := s.steps + 1 } :=
          collects_empty rfl rfl rfl rfl
        refine ⟨taken, ?_, hunder⟩
        have hboth := hcounted.trans htaken
        rwa [Finset.empty_union] at hboth

/-- No call changes the shape of the board. -/
theorem shape_apply (s : State) (text : Text) :
    (s.apply text).1.grid.map List.length = s.grid.map List.length := by
  obtain ⟨taken, htaken, -⟩ := exists_collects_apply s text
  exact htaken.shape

/-- **Any number of calls.** Each point that is taken is under the robot after some call. -/
theorem exists_collects_applyAll (s : State) (texts : List Text) :
    ∃ taken, Collects s taken (s.applyAll texts) ∧
      ∀ x y, (x, y) ∈ taken →
        ∃ call ∈ s.calls texts, call.after.robot.x = x ∧ call.after.robot.y = y := by
  induction texts generalizing s with
  | nil => exact ⟨∅, collects_empty rfl rfl rfl rfl, by simp⟩
  | cons text texts ih =>
    obtain ⟨first, hfirst, hunder⟩ := exists_collects_apply s text
    obtain ⟨later, hlater, hcalls⟩ := ih (s.apply text).1
    refine ⟨first ∪ later, hfirst.trans hlater, fun x y hxy => ?_⟩
    rw [calls]
    rcases Finset.mem_union.1 hxy with hxy | hxy
    · exact ⟨_, List.mem_cons_self, hunder x y hxy⟩
    · obtain ⟨call, hcall, hrobot⟩ := hcalls x y hxy
      exact ⟨call, List.mem_cons_of_mem _ hcall, hrobot⟩

/-! ### Counting steps -/

/-- A call counts one step or none. -/
theorem steps_apply (s : State) (text : Text) :
    (s.apply text).1.steps = s.steps + if Call.counts ⟨s, text⟩ then 1 else 0 := by
  by_cases hover : s.isOver = true
  · rw [apply_of_isOver hover]
    simp [Call.counts, hover]
  · have hcounts : Call.counts ⟨s, text⟩ = (Instruction.ofText? text).isSome := by
      simp [Call.counts, hover, Instruction.isSome_ofText?]
    rw [State.apply, if_neg hover, hcounts]
    cases Instruction.ofText? text with
    | none => exact (Int.add_zero s.steps).symm
    | some i => exact steps_obey s i

/-- **Steps are calls that count.** -/
theorem steps_applyAll (s : State) (texts : List Text) :
    (s.applyAll texts).steps = s.steps + (s.calls texts).countP Call.counts := by
  induction texts generalizing s with
  | nil => exact (Int.add_zero s.steps).symm
  | cons text texts ih =>
    rw [applyAll_cons, ih, steps_apply, calls, List.countP_cons]
    split <;> omega

/-! ### Moving the robot -/

/-- How the robot may get from the one state to the other: it stays where it is, or it enters the
cell ahead of it, which is on the board and no wall. -/
def Steers (before after : State) : Prop :=
  (after.robot.x, after.robot.y) = (before.robot.x, before.robot.y) ∨
    (after.robot.x, after.robot.y) = before.robot.ahead ∧
      after.robot.direction = before.robot.direction ∧
      ∃ code, before.grid.cell? before.robot.ahead.1 before.robot.ahead.2 = some code ∧
        Cell.isWall code = false

theorem steers_moveAhead (s : State) : Steers s s.moveAhead.1 := by
  have hmove := s.move_moveAhead
  generalize s.moveAhead = r at hmove ⊢
  cases hmove with
  | outside | missing | blocked => exact .inl rfl
  | free hb hc hk | bomb hb hc hk | point hb hc hk | lastPoint hb hc hk =>
    exact .inr ⟨rfl, rfl, _, hc, Cell.isWall_eq_false (by simp [hk])⟩

/-- **One call** moves the robot by one cell at most, in the direction that it faces. -/
theorem steers_apply (s : State) (text : Text) : Steers s (s.apply text).1 := by
  rw [State.apply]
  split
  · exact .inl rfl
  · split
    · exact .inl rfl
    · rename_i i _
      cases i with
      | left | right => exact .inl rfl
      | step => exact steers_moveAhead { s with steps := s.steps + 1 }

/-! ### Games that are over -/

/-- No run changes a game that is over. -/
theorem applyAll_of_isOver (h : s.isOver = true) (texts : List Text) : s.applyAll texts = s := by
  induction texts with
  | nil => rfl
  | cons text texts ih => rw [applyAll_cons, apply_of_isOver h, ih]

theorem applyAll_append (s : State) (earlier later : List Text) :
    s.applyAll (earlier ++ later) = (s.applyAll earlier).applyAll later := List.foldl_append

/-- **What a run may change.** The initial robot, the total of points and the shape of the board
stay as they are. The cells that differ are points that have been taken: each was a point, is empty
now, and was under the robot after some call, and the counter of points has grown by their number.
The counter of steps has grown by the number of calls with the letter of an instruction while the
game went on. Each call moves the robot by one cell at most, in the direction that it faces, and
never onto a wall. Once the game is over nothing changes any more. -/
theorem applyAll_effects (s : State) (texts : List Text) :
    let after := s.applyAll texts
    (after.initialRobot = s.initialRobot ∧ after.totalPoints = s.totalPoints ∧
      after.grid.map List.length = s.grid.map List.length) ∧
    (∃ changed : Finset (Int × Int),
      (∀ x y, (x, y) ∈ changed ↔ after.grid.cell? x y ≠ s.grid.cell? x y) ∧
      (∀ x y, (x, y) ∈ changed →
        s.grid.cell? x y = some Cell.point ∧ after.grid.cell? x y = some Cell.empty ∧
          ∃ call ∈ s.calls texts, call.after.robot.x = x ∧ call.after.robot.y = y) ∧
      after.collected = s.collected + changed.card) ∧
    after.steps = s.steps + (s.calls texts).countP Call.counts ∧
    (∀ call ∈ s.calls texts, Steers call.before call.after) ∧
    ∀ earlier later, texts = earlier ++ later → (s.applyAll earlier).isOver = true →
      after = s.applyAll earlier := by
  intro after
  obtain ⟨changed, hchanged, hcalls⟩ := exists_collects_applyAll s texts
  refine ⟨⟨hchanged.initialRobot, hchanged.totalPoints, hchanged.shape⟩,
    ⟨changed, hchanged.mem_iff, fun x y hxy => ?_, hchanged.collected⟩,
    steps_applyAll s texts, fun call _ => steers_apply call.before call.text, ?_⟩
  · exact ⟨hchanged.points x y hxy, hchanged.emptied x y hxy, hcalls x y hxy⟩
  · rintro earlier later rfl hover
    exact (applyAll_append s earlier later).trans (applyAll_of_isOver hover later)

/-- A run on a board whose second row is short. It takes two points; `x` is no instruction, and the
third `s` finds no cell ahead, which counts as a step. The fifth `s` leaves the board, and what
follows changes nothing. -/
theorem applyAll_effects_ragged :
    let robot : Robot := ⟨1, 0, .left⟩
    let s : State :=
      { grid := ["o.".toList, "o".toList], robot, initialRobot := robot, totalPoints := 5 }
    let earlier := ["s", "x", "l", "s", "l", "s", "l", "s", "s"].map String.toList
    (s.applyAll earlier).isOver = true ∧ s.applyAll (earlier ++ [['s']]) = s.applyAll earlier ∧
      (s.applyAll earlier).steps = 8 ∧
      ∃ changed : Finset (Int × Int), changed.card = 2 ∧
        ∀ x y, (x, y) ∈ changed ↔
          (s.applyAll earlier).grid.cell? x y ≠ s.grid.cell? x y := by
  intro robot s earlier
  have hover : (s.applyAll earlier).isOver = true := by decide
  obtain ⟨-, -, -, -, hlater⟩ := applyAll_effects s (earlier ++ [['s']])
  obtain ⟨-, ⟨changed, hcells, -, hcollected⟩, hsteps, -⟩ := applyAll_effects s earlier
  refine ⟨hover, hlater earlier _ rfl hover, hsteps.trans (by decide), changed, ?_, hcells⟩
  have htwo : (s.applyAll earlier).collected = 2 := by decide
  rw [htwo] at hcollected
  simp only [s, Int.zero_add] at hcollected
  exact Int.ofNat.inj hcollected.symm

end State

end RobotMaze
