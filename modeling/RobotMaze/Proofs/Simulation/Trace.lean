import Mathlib.Data.List.TakeWhile
import RobotMaze.Proofs.Board.Grid
import RobotMaze.Proofs.Board.Move
import RobotMaze.Proofs.Simulation.Answers

/-!
# The snapshots of a run

A run shows the states of a game in order: the board as it was given, then the board after one
instruction, after two, and so on. This file says where it stops. Four things can stop it, and which
one does depends on three numbers: how many instructions there are, how many the step limit allows,
and after how many the game is over, if it ever is.

## Counting

`State.along` is the sequence of states, with no simulation in it. `Reached` ties a run to it: after
`k` instructions the run holds the state number `k`, and what it has left to read are the letters of
the remaining instructions, with characters between them that it skips. The step limit is a bound on
the steps that the state counts, so that a game which has counted steps before gets fewer
instructions, and none if it has counted too many.

A run that is asked on passes from `Reached` at `k` to `Reached` at `k + 1` as long as none of the
three numbers is met (`Reached.next`), and that is the induction (`exists_reached`). What is left
are the three ways to stop, each of them a single question to the run.

Boards have to be rectangular, or an instruction may fail for a cell that is missing.

## Main results

* `DeliversExactly` — a run gives these snapshots, and then nothing but its end
* `exists_reached` — the first snapshots of a run
* `deliversExactly_along` — all snapshots of a run
-/

namespace RobotMaze

/-! ### Rectangular boards -/

namespace State

variable {s : State}

theorem rectangular_moveAhead (h : s.grid.IsRectangular) :
    s.moveAhead.2 = none ∧ s.moveAhead.1.grid.IsRectangular := by
  have hmove := s.move_moveAhead
  generalize s.moveAhead = r at hmove ⊢
  cases hmove with
  | outside hb => exact ⟨rfl, h⟩
  | missing hb hc =>
    obtain ⟨code, hcode⟩ := h.exists_cell hb
    rw [hcode] at hc
    cases hc
  | blocked hb hc hk => exact ⟨rfl, h⟩
  | free hb hc hk => exact ⟨rfl, h⟩
  | bomb hb hc hk => exact ⟨rfl, h⟩
  | point hb hc hk hn => exact ⟨rfl, h.set _ _ _⟩
  | lastPoint hb hc hk hn => exact ⟨rfl, h.set _ _ _⟩

/-- On a rectangular board no instruction fails, and the board stays rectangular. -/
theorem rectangular_apply (h : s.grid.IsRectangular) {c : Char}
    (hc : Instruction.isLetter c = true) :
    (s.apply [c]).2 = none ∧ (s.apply [c]).1.grid.IsRectangular := by
  by_cases ho : s.isOver = true
  · rw [apply_of_isOver ho]
    exact ⟨rfl, h⟩
  · obtain ⟨i, hi⟩ := Option.isSome_iff_exists.1 hc
    rw [apply_letter (by simpa using ho) hi]
    cases i with
    | left => exact ⟨rfl, h⟩
    | right => exact ⟨rfl, h⟩
    | step => exact rectangular_moveAhead h

/-! ### The states of a game -/

/-- The states of a game as letters are applied one after the other. -/
def along (s : State) (letters : Text) : Nat → State
  | 0 => s
  | k + 1 =>
    match letters[k]? with
    | some c => ((s.along letters k).apply [c]).1
    | none => s.along letters k

variable {letters : Text}

@[simp] theorem along_zero : s.along letters 0 = s := rfl

theorem along_succ {k : Nat} {c : Char} (h : letters[k]? = some c) :
    s.along letters (k + 1) = ((s.along letters k).apply [c]).1 := by
  rw [along, h]

theorem rectangular_along (h : s.grid.IsRectangular)
    (hletters : ∀ c ∈ letters, Instruction.isLetter c = true) (k : Nat) :
    (s.along letters k).grid.IsRectangular := by
  induction k with
  | zero => exact h
  | succ k ih =>
    cases hk : letters[k]? with
    | none => rw [along, hk]; exact ih
    | some c =>
      rw [along_succ hk]
      exact (rectangular_apply ih (hletters c (List.mem_of_getElem? hk))).2

/-- As long as the game goes on, every instruction counts one step. -/
theorem steps_along (hletters : ∀ c ∈ letters, Instruction.isLetter c = true) {k : Nat}
    (hk : k ≤ letters.length) (ho : ∀ j < k, (s.along letters j).isOver = false) :
    (s.along letters k).steps = s.steps + k := by
  induction k with
  | zero => simp
  | succ k ih =>
    have hc : letters[k]? = some letters[k] := List.getElem?_eq_getElem hk
    obtain ⟨i, hi⟩ := Option.isSome_iff_exists.1 (hletters _ (List.getElem_mem hk))
    rw [along_succ hc, apply_letter (ho k (Nat.lt_succ_self k)) hi, steps_obey,
      ih (Nat.le_of_succ_le hk) fun j hj => ho j (Nat.lt_succ_of_lt hj)]
    omega

end State

namespace Simulation

variable {sim after : Simulation} {state : State} {snapshots : List State}

/-! ### What a run delivers -/

/-- The simulation after some questions. -/
def afterAsking (sim : Simulation) : Nat → Simulation
  | 0 => sim
  | n + 1 => sim.next.2.afterAsking n

theorem isDone_afterAsking (h : sim.isDone = true) (n : Nat) :
    (sim.afterAsking n).isDone = true := by
  induction n generalizing sim with
  | zero => exact h
  | succ n ih =>
    rw [afterAsking, (Turn.done h).eq_next]
    exact ih h

theorem drain_of_ended (h : sim.next = (.ended, after)) :
    sim.drain.snapshots = [] ∧ sim.drain.failure = none := by
  rw [drain]
  split <;> rename_i hn <;> rw [h] at hn <;> cases hn
  exact ⟨rfl, rfl⟩

theorem drain_of_snapshot (h : sim.next = (.snapshot state, after)) :
    sim.drain.snapshots = state :: after.drain.snapshots ∧
      sim.drain.failure = after.drain.failure := by
  rw [drain]
  split <;> rename_i hn <;> rw [h] at hn <;> cases hn
  exact ⟨rfl, rfl⟩

/-- The run delivers these snapshots and no others. It does not fail, and once they are all
delivered every question is answered by its end, after which it is done for good. -/
structure DeliversExactly (sim : Simulation) (snapshots : List State) : Prop where
  drained : sim.drain.snapshots = snapshots
  unfailing : sim.drain.failure = none
  answered : ∀ n, sim.answers (snapshots.length + n) =
    snapshots.map .snapshot ++ List.replicate n .ended
  done : ∀ n, snapshots.length < n → (sim.afterAsking n).isDone = true

theorem DeliversExactly.nil (h : sim.next = (.ended, after)) (hd : after.isDone = true) :
    sim.DeliversExactly [] := by
  obtain ⟨hsnapshots, hfailure⟩ := drain_of_ended h
  refine ⟨hsnapshots, hfailure, fun n => ?_, fun n hn => ?_⟩
  · cases n with
    | zero => rfl
    | succ n =>
      rw [List.length_nil, Nat.zero_add, answers_succ, h, answers_of_isDone hd]
      rfl
  · cases n with
    | zero => cases hn
    | succ n =>
      rw [afterAsking, h]
      exact isDone_afterAsking hd n

theorem DeliversExactly.cons (h : sim.next = (.snapshot state, after))
    (hafter : after.DeliversExactly snapshots) : sim.DeliversExactly (state :: snapshots) := by
  obtain ⟨hsnapshots, hfailure⟩ := drain_of_snapshot h
  refine ⟨?_, ?_, fun n => ?_, fun n hn => ?_⟩
  · rw [hsnapshots, hafter.drained]
  · rw [hfailure, hafter.unfailing]
  · rw [List.length_cons, Nat.add_right_comm, answers_succ, h, hafter.answered]
    rfl
  · cases n with
    | zero => cases hn
    | succ n =>
      rw [afterAsking, h]
      exact hafter.done n (Nat.lt_of_succ_lt_succ hn)

/-- A run that is done delivers nothing. -/
theorem deliversExactly_of_isDone (h : sim.isDone = true) : sim.DeliversExactly [] :=
  .nil (Turn.done h).eq_next h

/-! ### The letters ahead -/

theorem ahead_eq_nil (h : sim.unread.filter Instruction.isLetter = []) : sim.ahead = [] := by
  rw [ahead, List.dropWhile_eq_nil_iff]
  intro c hc
  simpa using List.filter_eq_nil_iff.1 h c hc

theorem exists_ahead {c : Char} {letters : Text}
    (h : sim.unread.filter Instruction.isLetter = c :: letters) :
    ∃ rest, sim.ahead = c :: rest ∧ rest.filter Instruction.isLetter = letters := by
  rw [ahead]
  generalize sim.unread = unread at h
  induction unread with
  | nil => cases h
  | cons d unread ih =>
    by_cases hd : Instruction.isLetter d = true
    · rw [List.filter_cons_of_pos hd] at h
      cases h
      exact ⟨unread, by simp [hd], rfl⟩
    · rw [List.filter_cons_of_neg hd] at h
      rw [List.dropWhile_cons_of_pos (by simpa using hd)]
      exact ih h

/-! ### Going on -/

variable {initial : State} {letters : Text} {maxSteps : Int} {k : Nat}

/-- The run has carried out `k` of its instructions. -/
structure Reached (initial : State) (letters : Text) (maxSteps : Int) (k : Nat)
    (sim : Simulation) : Prop where
  started : sim.started = true
  cancelled : sim.cancelled = false
  state : sim.state = initial.along letters k
  ended : sim.ended = (initial.along letters k).isOver
  unread : sim.unread.filter Instruction.isLetter = letters.drop k
  maxSteps : sim.maxSteps = maxSteps

theorem Reached.isDone (h : Reached initial letters maxSteps k sim) :
    sim.isDone = (initial.along letters k).isOver := by
  rw [Simulation.isDone, h.ended, h.cancelled, Bool.or_false]

/-- **One question.** A run that has an instruction left, within the step limit, in a game that is
not over, shows the next state. -/
theorem Reached.next (h : Reached initial letters maxSteps k sim)
    (hgrid : initial.grid.IsRectangular)
    (hletters : ∀ c ∈ letters, Instruction.isLetter c = true) (hk : k < letters.length)
    (hsteps : (initial.along letters k).steps < maxSteps)
    (ho : (initial.along letters k).isOver = false) :
    ∃ after, sim.next = (.snapshot (initial.along letters (k + 1)), after) ∧
      Reached initial letters maxSteps (k + 1) after := by
  have hc : letters[k]? = some letters[k] := List.getElem?_eq_getElem hk
  obtain ⟨rest, ha, hrest⟩ :=
    exists_ahead (h.unread.trans (List.drop_eq_getElem_cons hk))
  have hok := (State.rectangular_apply (State.rectangular_along hgrid hletters k)
    (hletters _ (List.getElem_mem hk))).1
  have happly : sim.state.apply [letters[k]] = (initial.along letters (k + 1), none) := by
    rw [h.state, State.along_succ hc, ← hok]
  refine ⟨_, (Turn.applied (h.isDone.trans ho) h.started ha ?_ happly).eq_next, ?_⟩
  · rw [h.state, h.maxSteps]
    exact Int.not_le.2 hsteps
  · exact ⟨h.started, h.cancelled, rfl, rfl, hrest, h.maxSteps⟩

/-- The first question shows the board as it was given. -/
theorem reached_zero {instructions : Text} (initial : State) (maxSteps : Int)
    (hp : instructions.filter Instruction.isLetter = letters) :
    ∃ after, (ofInstructions instructions initial maxSteps).next = (.snapshot initial, after) ∧
      Reached initial letters maxSteps 0 after :=
  ⟨_, (Turn.first rfl rfl).eq_next, ⟨rfl, rfl, rfl, rfl, hp, rfl⟩⟩

/-- **The first questions.** As long as there are instructions, the step limit allows them and the
game is not over before, a run shows the states of the game in order. -/
theorem exists_reached {instructions : Text} (maxSteps : Int)
    (hp : instructions.filter Instruction.isLetter = letters)
    (hgrid : initial.grid.IsRectangular) {n : Nat} (hn : n ≤ letters.length)
    (hlimit : n ≤ (maxSteps - initial.steps).toNat)
    (ho : ∀ k < n, (initial.along letters k).isOver = false) :
    ∃ after, Reached initial letters maxSteps n after ∧
      ∀ rest, after.DeliversExactly rest →
        (ofInstructions instructions initial maxSteps).DeliversExactly
          ((List.range (n + 1)).map (initial.along letters) ++ rest) := by
  have hletters : ∀ c ∈ letters, Instruction.isLetter c = true := by
    intro c hc
    rw [← hp] at hc
    exact (List.mem_filter.1 hc).2
  induction n with
  | zero =>
    obtain ⟨after, hnext, hafter⟩ := reached_zero initial maxSteps hp
    exact ⟨after, hafter, fun rest hrest => .cons hnext hrest⟩
  | succ n ih =>
    have hbefore : ∀ k < n, (initial.along letters k).isOver = false :=
      fun k hk => ho k (Nat.lt_succ_of_lt hk)
    obtain ⟨sim, hsim, hdelivers⟩ :=
      ih (Nat.le_of_succ_le hn) (Nat.le_of_succ_le hlimit) hbefore
    have hsteps : (initial.along letters n).steps < maxSteps := by
      rw [State.steps_along hletters (Nat.le_of_succ_le hn) hbefore]
      omega
    obtain ⟨after, hnext, hafter⟩ :=
      hsim.next hgrid hletters hn hsteps (ho n (Nat.lt_succ_self n))
    refine ⟨after, hafter, fun rest hrest => ?_⟩
    rw [List.range_succ, List.map_append, List.append_assoc]
    exact hdelivers _ (.cons hnext hrest)

/-! ### Stopping -/

/-- A run whose game is over delivers nothing more. -/
theorem Reached.gameOver (h : Reached initial letters maxSteps k sim)
    (ho : (initial.along letters k).isOver = true) : sim.DeliversExactly [] :=
  deliversExactly_of_isDone (h.isDone.trans ho)

/-- A run without instructions left delivers nothing more. -/
theorem Reached.exhausted (h : Reached initial letters maxSteps k sim)
    (ho : (initial.along letters k).isOver = false) (hk : letters.length ≤ k) :
    sim.DeliversExactly [] := by
  have ha : sim.ahead = [] := ahead_eq_nil (h.unread.trans (List.drop_eq_nil_of_le hk))
  refine .nil (Turn.exhausted (h.isDone.trans ho) h.started ha).eq_next ?_
  simp [Simulation.isDone]

/-- A run at the step limit with an instruction left tells so, and delivers nothing after that. -/
theorem Reached.limit (h : Reached initial letters maxSteps k sim)
    (ho : (initial.along letters k).isOver = false) (hk : k < letters.length)
    (hsteps : maxSteps ≤ (initial.along letters k).steps) :
    sim.DeliversExactly
      [(initial.along letters k).finish .maxSteps (maxStepsMessage maxSteps)] := by
  obtain ⟨rest, ha, -⟩ := exists_ahead (h.unread.trans (List.drop_eq_getElem_cons hk))
  have hm : sim.maxSteps ≤ sim.state.steps := by
    rw [h.maxSteps, h.state]
    exact hsteps
  rw [← h.state, ← h.maxSteps]
  refine .cons (Turn.limit (h.isDone.trans ho) h.started ha hm).eq_next ?_
  exact deliversExactly_of_isDone (by simp [Simulation.isDone])

end Simulation

end RobotMaze
