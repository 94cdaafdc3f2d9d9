import RobotMaze.Proofs.Board.Move
import RobotMaze.Proofs.Expansion.Meaning
import RobotMaze.Proofs.Expansion.Termination
import RobotMaze.Proofs.Simulation.Answers

/-!
# The step limit hides where expansion was cut

A program is expanded only as far as the step limit can see: one instruction more than may be
applied. This file shows that nobody can tell. A run of the instructions up to the cut gives the
same answers as a run of all of them, and a failure of the expansion shows exactly if it comes
before the cut.

## Why one more instruction is enough

The extra instruction is never applied. It is there to be seen: with it the run ends at the limit,
and without it the run would end for want of instructions. `Stocked` keeps track of this. While the
run goes on, the steps counted and the instructions not yet read together exceed the limit, so the
limit is met before the cut is. A failed instruction counts as a step and is not consumed, which
only helps.

A stocked run never looks behind its instructions, so that adding more of them (`extend`) changes
no answer. That is the whole argument; where the board ends the game early, it ends in both runs.

## Main results

* `Simulation.Stocked.next`, `Stocked.next_extend` — one question to a run, and to the longer one
* `Simulation.Stocked.answers_extend` — any number of questions
* `Simulation.start_hides_cut` — whole programs
-/

namespace RobotMaze

theorem Instruction.isLetter_of_mem_write {is : List Instruction} {c : Char} (h : c ∈ write is) :
    isLetter c = true := by
  obtain ⟨i, -, rfl⟩ := List.mem_map.1 h
  simp [isLetter]

namespace Simulation

open Expansion

/-! ### Runs that reach the limit -/

/-- The run has nothing but instructions left to read and, unless it is over, enough of them to
reach the step limit with one to spare. -/
structure Stocked (sim : Simulation) : Prop where
  letters : ∀ c ∈ sim.unread, Instruction.isLetter c = true
  nonempty : sim.isDone = false → sim.unread ≠ []
  enough : sim.isDone = false → sim.maxSteps < sim.state.steps + sim.unread.length

/-- A stocked run has nothing to skip. -/
theorem Stocked.ahead_eq {sim : Simulation} (h : Stocked sim) : sim.ahead = sim.unread := by
  rw [ahead]
  cases hu : sim.unread with
  | nil => rfl
  | cons c rest => simp [h.letters c (by simp [hu])]

/-- **One question.** A stocked run is stocked after it. An instruction that is carried out leaves
one less to read and counts one step more; one that fails only counts. -/
theorem Stocked.next {sim : Simulation} (h : Stocked sim) : Stocked sim.next.2 := by
  have hturn := sim.turn_next
  generalize sim.next = r at hturn ⊢
  cases hturn with
  | done hd => exact h
  | first hd hs => exact ⟨h.letters, fun _ => h.nonempty hd, fun _ => h.enough hd⟩
  | exhausted hd hs ha => exact ⟨by simp, by simp [isDone], by simp [isDone]⟩
  | limit hd hs ha hm =>
    rw [h.ahead_eq] at ha
    exact ⟨ha ▸ h.letters, by simp [isDone], by simp [isDone]⟩
  | @failed hd hs c rest ha hm state e he =>
    rw [h.ahead_eq] at ha
    have hsteps : state.steps = sim.state.steps + 1 := by
      simpa using State.steps_of_apply_letter (h.letters c (by simp [ha])) he
    have henough := h.enough hd
    rw [ha] at henough
    exact ⟨ha ▸ h.letters, by simp, fun _ => by simp only; omega⟩
  | @applied hd hs c rest ha hm state he =>
    rw [h.ahead_eq] at ha
    have henough := h.enough hd
    rw [ha, List.length_cons] at henough
    -- If the game goes on, the step was below the limit, and what is left still exceeds it.
    have hleft : state.isOver = false → sim.maxSteps < state.steps + rest.length ∧ rest ≠ [] := by
      intro ho
      have hsteps : state.steps = sim.state.steps + 1 := by
        simpa [ho] using State.steps_of_apply_letter (h.letters c (by simp [ha])) he
      refine ⟨by omega, fun hr => ?_⟩
      rw [hr, List.length_nil] at henough
      omega
    have hover : isDone { sim with unread := rest, state, ended := state.isOver } = false →
        state.isOver = false := fun hd' => (Bool.or_eq_false_iff.1 hd').1
    exact ⟨fun c hc => h.letters c (by simp [ha, hc]), fun hd' => (hleft (hover hd')).2,
      fun hd' => (hleft (hover hd')).1⟩

/-! ### Two runs in step -/

/-- The same run with other instructions noted and with more of them to come. -/
def extend (sim : Simulation) (whole more : Text) : Simulation :=
  { sim with instructions := whole, unread := sim.unread ++ more }

/-- A stocked run does not see what comes after its instructions. -/
theorem Stocked.next_extend {sim : Simulation} (h : Stocked sim) (whole more : Text) :
    (sim.extend whole more).next = (sim.next.1, sim.next.2.extend whole more) := by
  have hturn := sim.turn_next
  generalize sim.next = r at hturn ⊢
  have hahead : ∀ {c rest}, sim.ahead = c :: rest →
      (sim.extend whole more).ahead = c :: (rest ++ more) := by
    intro c rest ha
    rw [h.ahead_eq] at ha
    simp [ahead, extend, ha, h.letters c]
  apply Turn.eq_next
  cases hturn with
  | done hd => exact .done hd
  | first hd hs => exact .first hd hs
  | exhausted hd hs ha => exact absurd (h.ahead_eq ▸ ha) (h.nonempty hd)
  | limit hd hs ha hm =>
    exact @Turn.limit (sim.extend whole more) hd hs _ _ (hahead ha) hm
  | failed hd hs ha hm he =>
    exact @Turn.failed (sim.extend whole more) hd hs _ _ (hahead ha) hm _ _ he
  | applied hd hs ha hm he =>
    exact @Turn.applied (sim.extend whole more) hd hs _ _ (hahead ha) hm _ he

/-- **All questions.** A stocked run gives the same answers as a run that has more instructions. -/
theorem Stocked.answers_extend {sim : Simulation} (h : Stocked sim) (whole more : Text) (n : Nat) :
    sim.answers n = (sim.extend whole more).answers n := by
  refine answers_eq (R := fun a b => Stocked a ∧ b = a.extend whole more) ?_ ⟨h, rfl⟩ n
  rintro a _ ⟨ha, rfl⟩
  rw [ha.next_extend]
  exact ⟨rfl, ha.next, rfl⟩

/-! ### Programs -/

theorem stocked_ofInstructions {is : List Instruction} {initial : State} {maxSteps : Int}
    (hne : is ≠ []) (henough : maxSteps < initial.steps + is.length) :
    Stocked (ofInstructions (Instruction.write is) initial maxSteps) := by
  refine ⟨fun c hc => Instruction.isLetter_of_mem_write hc, fun _ => ?_, fun _ => ?_⟩
  · simpa [ofInstructions, Instruction.write] using hne
  · simpa [ofInstructions, Instruction.write] using henough

/-- Instructions beyond the first that the step limit does not allow make no difference. -/
theorem answers_take (w : List Instruction) {initial : State} {maxSteps : Int}
    (hsteps : 0 ≤ initial.steps) (hmax : 0 ≤ maxSteps) (n : Nat) :
    (ofInstructions (Instruction.write (w.take (maxSteps + 1).toNat)) initial maxSteps).answers n =
      (ofInstructions (Instruction.write w) initial maxSteps).answers n := by
  by_cases hw : w.length ≤ (maxSteps + 1).toNat
  · rw [List.take_of_length_le hw]
  have hlength : (w.take (maxSteps + 1).toNat).length = (maxSteps + 1).toNat := by
    rw [List.length_take]; omega
  have hne : w.take (maxSteps + 1).toNat ≠ [] :=
    List.ne_nil_of_length_pos (by omega)
  have hstocked := stocked_ofInstructions hne (by omega : maxSteps < initial.steps + _)
  rw [hstocked.answers_extend (Instruction.write w)
    (Instruction.write (w.drop (maxSteps + 1).toNat))]
  simp [extend, ofInstructions, Instruction.write]

/-- A program starts with what is left of its whole expansion after the cut. -/
theorem value_start (program : Text) (initial : State) (maxDepth maxSteps : Int) :
    (start program initial maxDepth maxSteps).value =
      ofExpansion initial maxSteps ((Expansion.result
        (((Program.parse program).expand maxDepth none).cut (some (maxSteps + 1).toNat))).mapError
          ExpansionError.raised) := by
  show ofExpansion initial maxSteps (expandForRun program maxDepth maxSteps) = _
  rw [expandForRun, expandProgram, Program.expand_eq_cut]
  rfl

/-- The only snapshot of a program that could not be expanded. -/
theorem answers_of_failed (initial : State) (maxSteps : Int) (e : DepthExceeded) (n : Nat) :
    answers { ofInstructions [] (failedState initial e) maxSteps with error := some e } (n + 1) =
      .snapshot (failedState initial e) :: List.replicate n .ended := by
  rw [answers_succ, (Turn.first rfl rfl).eq_next, answers_of_isDone rfl]
  rfl

/-- **The cut does not show.** Let the whole expansion of a program give `w` and then finish or
fail. If it finishes, or fails after more instructions than the step limit allows, the program
runs exactly as `w` does. If it fails before, and an error for depth is what is raised, the run
holds the error and shows it in its only snapshot. -/
theorem start_hides_cut (program : Text) (initial : State) (maxDepth maxSteps : Int)
    (w : List Instruction) (failure : Option ExpansionError) (hsteps : 0 ≤ initial.steps)
    (hmax : 0 ≤ maxSteps)
    (hwhole : (Program.parse program).expand maxDepth none = ⟨w, failure⟩) :
    (failure = none ∨ maxSteps + 1 ≤ w.length →
      ∃ sim, (start program initial maxDepth maxSteps).value = .ok sim ∧ sim.error = none ∧
        ∀ n, sim.answers n = (ofInstructions (Instruction.write w) initial maxSteps).answers n) ∧
      ∀ e, failure.map ExpansionError.raised = some (.depth e) → w.length < maxSteps + 1 →
        ∃ sim, (start program initial maxDepth maxSteps).value = .ok sim ∧ sim.error = some e ∧
          ∀ n, sim.answers (n + 1) =
            .snapshot { initial with
              isOver := true, isWon := false, outcome := .error, message := e.message } ::
              List.replicate n .ended := by
  rw [value_start, hwhole]
  refine ⟨fun hcase => ?_, fun e he hshort => ?_⟩
  · have hcut : cut (some (maxSteps + 1).toNat) ⟨w, failure⟩ =
        ⟨w.take (maxSteps + 1).toNat, none⟩ := by
      rcases hcase with rfl | hlong
      · exact cut_ok _ _
      · exact cut_of_le (by simp only; omega)
    rw [hcut]
    exact ⟨_, rfl, rfl, answers_take w hsteps hmax⟩
  · obtain ⟨cause, rfl, hraised⟩ := Option.map_eq_some_iff.1 he
    rw [cut_of_lt (by simp only; omega)]
    show ∃ sim, ofExpansion initial maxSteps (.error cause.raised) = .ok sim ∧ _
    rw [hraised]
    exact ⟨_, rfl, rfl, answers_of_failed initial maxSteps e⟩

/-- A function that calls itself for ever gives three instructions before it is too deep. With two
steps allowed this does not show, with three it does. -/
theorem start_hides_cut_endless :
    let endless := "f:sf\nf".toList
    let board := Level.newGame ".\n.\n.\nu".toList 4
    (∃ sim, (start endless board 2 2).value = .ok sim ∧ sim.error = none ∧
      ∀ n, sim.answers n = (ofInstructions "sss".toList board 2).answers n) ∧
      ∃ sim, (start endless board 2 3).value = .ok sim ∧ sim.error = some ⟨['f'], 3, 2⟩ ∧
        ∀ n, sim.answers (n + 1) =
          .snapshot { board with
            isOver := true, isWon := false, outcome := .error
            message := "Maximum recursion depth (2) exceeded while calling 'f'." } ::
            List.replicate n .ended := by
  intro endless board
  have hwhole : (Program.parse endless).expand 2 none =
      ⟨[.step, .step, .step], some (.depth ⟨['f'], 3, 2⟩)⟩ := expand_eq_of_runWithin 20 (by decide)
  have hraised : (some (.depth ⟨['f'], 3, 2⟩)).map ExpansionError.raised =
      some (.depth ⟨['f'], 3, 2⟩) :=
    congrArg some (ExpansionError.raised_eq_depth_iff.2
      ⟨rfl, Numeral.writable_of_natAbs_le (by decide)⟩)
  exact ⟨(start_hides_cut endless board 2 2 _ _ (by decide) (by decide) hwhole).1
      (.inr (by decide)),
    (start_hides_cut endless board 2 3 _ _ (by decide) (by decide) hwhole).2 _ hraised (by decide)⟩

end Simulation

end RobotMaze
