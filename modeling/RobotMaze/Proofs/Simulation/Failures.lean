import RobotMaze.Proofs.Simulation.Effects
import RobotMaze.Proofs.Simulation.Trace

/-!
# Instructions that fail

An instruction can fail in two ways, and this file says exactly when it does and what it leaves. A
text that is no instruction is found out before anything happens. A step into a gap is found out too
late: the step has been counted by then, and nothing else has changed.

A gap is a place that is on the board by the width of the first row, but not by the width of its own
(`Grid.Gap`). Rectangular boards have none.

A run keeps an instruction that has failed. What failed once fails again, since the board, the robot
and the instruction are still the same (`Simulation.Stuck.next`), and each time the counter of steps
has grown by one. It is the step limit that ends such a run, and not the instructions
(`Simulation.Stuck.run`).
-/

namespace RobotMaze

/-- The place is on the board by the width of the first row, and its own row is too short to have
it. -/
def Grid.Gap (g : Grid) (x y : Int) : Prop :=
  (0 ≤ y ∧ y < g.length) ∧ 0 ≤ x ∧ (g.getD y.toNat []).length ≤ x ∧ x < (g.headD []).length

instance (g : Grid) (x y : Int) : Decidable (g.Gap x y) :=
  inferInstanceAs (Decidable ((0 ≤ y ∧ y < g.length) ∧ 0 ≤ x ∧
    ((g.getD y.toNat []).length : Int) ≤ x ∧ x < (g.headD []).length))

/-- A gap is what the two ways to ask for a place disagree about. -/
theorem Grid.gap_iff {g : Grid} {x y : Int} :
    g.Gap x y ↔ g.inBounds x y = true ∧ g.cell? x y = none := by
  have hbounds : g.inBounds x y = true ↔
      (0 ≤ y ∧ y < g.length) ∧ 0 ≤ x ∧ x < (g.headD []).length := by
    simp only [inBounds, Bool.and_eq_true, decide_eq_true_eq, and_assoc]
  have hcell : 0 ≤ x ∧ 0 ≤ y → (g.cell? x y = none ↔ (g.getD y.toNat []).length ≤ x) := by
    intro h
    rw [cell?, if_pos h, List.getD_eq_getElem?_getD]
    cases g[y.toNat]? with
    | none => simpa using h.1
    | some row =>
      rw [Option.bind_some, Option.getD_some, List.getElem?_eq_none_iff]
      omega
  rw [hbounds]
  constructor
  · rintro ⟨hy, hx, hshort, hwide⟩
    exact ⟨⟨hy, hx, hwide⟩, (hcell ⟨hx, hy.1⟩).2 hshort⟩
  · rintro ⟨⟨hy, hx, hwide⟩, hnone⟩
    exact ⟨hy, hx, (hcell ⟨hx, hy.1⟩).1 hnone, hwide⟩

/-- One letter is the step. -/
theorem Instruction.ofText?_eq_step_iff {text : Text} :
    ofText? text = some .step ↔ text = ['s'] := by
  constructor
  · intro h
    match text, h with
    | [c], h => rw [← letter_of_ofLetter? h]; rfl
  · rintro rfl
    rfl

namespace State

variable {s : State} {text : Text} {e : StepError}

/-! ### One instruction -/

/-- The robot faces a gap. -/
def FacesGap (s : State) : Prop := s.grid.Gap s.robot.ahead.1 s.robot.ahead.2

instance (s : State) : Decidable s.FacesGap :=
  inferInstanceAs (Decidable (s.grid.Gap s.robot.ahead.1 s.robot.ahead.2))

theorem moveAhead_of_facesGap (h : s.FacesGap) : s.moveAhead = (s, some .missingCell) := by
  obtain ⟨hb, hc⟩ := Grid.gap_iff.1 h
  simp only [moveAhead, hb, hc, if_true]

/-- A move fails at a gap and nowhere else. -/
theorem moveAhead_fails_iff : s.moveAhead.2 = some e ↔ s.FacesGap ∧ e = .missingCell := by
  constructor
  · intro h
    have hmove := s.move_moveAhead
    generalize s.moveAhead = r at hmove h
    cases hmove with
    | missing hb hc =>
      cases h
      exact ⟨Grid.gap_iff.2 ⟨hb, hc⟩, rfl⟩
    | outside | blocked | free | bomb | point | lastPoint => cases h
  · rintro ⟨h, rfl⟩
    rw [moveAhead_of_facesGap h]

/-- A step into a gap is counted, and that is all it does. -/
theorem apply_of_facesGap (hover : s.isOver = false) (h : s.FacesGap) :
    s.apply ['s'] = ({ s with steps := s.steps + 1 }, some .missingCell) := by
  have hcounted : FacesGap { s with steps := s.steps + 1 } := h
  rw [apply_letter hover (i := .step) rfl, obey]
  exact moveAhead_of_facesGap hcounted

/-- A text that is no instruction does nothing. -/
theorem apply_of_not_instruction (hover : s.isOver = false) (h : text ∉ [['s'], ['l'], ['r']]) :
    s.apply text = (s, some (.notPrimitive text)) := by
  have hnone : Instruction.ofText? text = none := by
    rw [← Option.not_isSome_iff_eq_none, Instruction.isSome_ofText?]
    simpa using h
  simp only [apply, hover, hnone, Bool.false_eq_true, if_false]

/-- **When a text fails.** There are these two ways and no others. -/
theorem apply_fails_iff : (s.apply text).2 = some e ↔ s.isOver = false ∧
    (text ∉ [['s'], ['l'], ['r']] ∧ e = .notPrimitive text ∨
      text = ['s'] ∧ s.FacesGap ∧ e = .missingCell) := by
  constructor
  · intro h
    have hover : s.isOver = false := by
      rw [← Bool.not_eq_true]
      intro hover
      rw [apply_of_isOver hover] at h
      cases h
    refine ⟨hover, ?_⟩
    by_cases htext : text ∈ [['s'], ['l'], ['r']]
    · obtain ⟨i, hi⟩ : ∃ i, Instruction.ofText? text = some i :=
        Option.isSome_iff_exists.1 (by rw [Instruction.isSome_ofText?]; simpa using htext)
      simp only [apply, hover, hi, Bool.false_eq_true, if_false] at h
      cases i with
      | left | right => cases h
      | step =>
        obtain ⟨hgap, rfl⟩ := moveAhead_fails_iff.1 h
        exact .inr ⟨Instruction.ofText?_eq_step_iff.1 hi, hgap, rfl⟩
    · rw [apply_of_not_instruction hover htext] at h
      cases h
      exact .inl ⟨htext, rfl⟩
  · rintro ⟨hover, ⟨htext, rfl⟩ | ⟨rfl, hgap, rfl⟩⟩
    · rw [apply_of_not_instruction hover htext]
    · rw [apply_of_facesGap hover hgap]

end State

namespace Simulation

variable {sim : Simulation} {rest : Text}

/-! ### Runs that are stuck -/

/-- The first snapshot is out, the run goes on, and what comes next is a step into a gap. -/
structure Stuck (sim : Simulation) (rest : Text) : Prop where
  started : sim.started = true
  going : sim.isDone = false
  ahead : sim.ahead = 's' :: rest
  playing : sim.state.isOver = false
  facesGap : sim.state.FacesGap

/-- The run after `n` steps into a gap: they have been counted. -/
def counted (sim : Simulation) (rest : Text) (n : Nat) : Simulation :=
  { sim with
    unread := 's' :: rest
    state := { sim.state with steps := sim.state.steps + n } }

/-- The snapshot of a run that has reached the step limit. -/
def limitSnapshot (sim : Simulation) : State :=
  sim.state.finish .maxSteps (maxStepsMessage sim.maxSteps)

/-- **One question.** Below the step limit the step fails, and is still to come. -/
theorem Stuck.next (h : sim.Stuck rest) (hm : sim.state.steps < sim.maxSteps) :
    sim.next = (.failed .missingCell, sim.counted rest 1) ∧ (sim.counted rest 1).Stuck rest := by
  have hfails := State.apply_of_facesGap h.playing h.facesGap
  exact ⟨(Turn.failed h.going h.started h.ahead (Int.not_le.2 hm) hfails).eq_next,
    h.started, h.going, rfl, h.playing, h.facesGap⟩

/-- **At the step limit** the run ends with a last snapshot. -/
theorem Stuck.answers_of_limit (h : sim.Stuck rest) (hm : sim.maxSteps ≤ sim.state.steps)
    (n : Nat) : sim.answers (n + 1) = .snapshot sim.limitSnapshot :: List.replicate n .ended := by
  rw [answers_succ, (Turn.limit h.going h.started h.ahead hm).eq_next, answers_of_isDone rfl]
  rfl

theorem counted_counted (sim : Simulation) (rest : Text) (n : Nat) :
    (sim.counted rest 1).counted rest n = sim.counted rest (n + 1) := by
  simp only [counted, Simulation.mk.injEq, State.mk.injEq, and_true, true_and]
  omega

/-- **All questions.** Every question up to the step limit fails and keeps the step. -/
theorem Stuck.run {k : Nat} (h : sim.Stuck rest)
    (hk : k = (sim.maxSteps - sim.state.steps).toNat) :
    (∀ j, 1 ≤ j → j ≤ k → sim.afterAsking j = sim.counted rest j) ∧
      ∀ n, sim.answers (k + (n + 1)) = List.replicate k (.failed .missingCell) ++
        .snapshot (sim.counted rest k).limitSnapshot :: List.replicate n .ended := by
  induction k generalizing sim with
  | zero =>
    refine ⟨fun j hpos hle => absurd (Nat.le_trans hpos hle) (by decide), fun n => ?_⟩
    rw [Nat.zero_add, h.answers_of_limit (by omega)]
    simp [limitSnapshot, counted]
  | succ k ih =>
    obtain ⟨hnext, hstuck⟩ := h.next (by omega)
    obtain ⟨hafter, hanswers⟩ := ih hstuck (by simp only [counted]; omega)
    constructor
    · intro j hpos hle
      cases j with
      | zero => cases hpos
      | succ j =>
        rw [afterAsking, hnext]
        rcases Nat.eq_zero_or_pos j with rfl | hj
        · rfl
        · rw [hafter j hj (Nat.le_of_succ_le_succ hle), counted_counted]
    · intro n
      rw [Nat.add_right_comm, answers_succ, hnext, hanswers, counted_counted]
      rfl

end Simulation

end RobotMaze
