import RobotMaze.Simulation

/-!
# Asking a simulation again and again

`Simulation.next` answers once and returns the simulation after the answer. This file follows a
simulation through any number of questions, past its end and past failures: `answers` is the list of
the first answers.

## One question

`Turn` says what a question can do, one constructor for each branch, guards included. A proof about
all questions is a case analysis on it and never opens `next`.

## All questions

There are two ways to reason about `answers`, and each of them asks for a single question only.
`forall_mem_answers` is for what holds of every answer of one simulation, and `answers_eq` is for
two simulations that go in step.
-/

namespace RobotMaze

namespace Simulation

variable {sim : Simulation}

/-! ### One question -/

/-- What one question leads to: the answer, and the simulation after it. -/
inductive Turn (sim : Simulation) : Delivery × Simulation → Prop
  /-- The run is over or cancelled. -/
  | done (hd : sim.isDone = true) : Turn sim (.ended, sim)
  /-- The first snapshot shows the board as it is. -/
  | first (hd : sim.isDone = false) (hs : sim.started = false) :
    Turn sim (.snapshot sim.state, { sim with started := true, ended := sim.state.isOver })
  /-- No instruction is left. -/
  | exhausted (hd : sim.isDone = false) (hs : sim.started = true) (ha : sim.ahead = []) :
    Turn sim (.ended, { sim with unread := [], ended := true })
  /-- There is an instruction, and the step limit is reached. -/
  | limit (hd : sim.isDone = false) (hs : sim.started = true) {c : Char} {rest : Text}
    (ha : sim.ahead = c :: rest) (hm : sim.maxSteps ≤ sim.state.steps) :
    Turn sim (.snapshot (sim.state.finish .maxSteps (maxStepsMessage sim.maxSteps)),
      { sim with
        unread := c :: rest
        state := sim.state.finish .maxSteps (maxStepsMessage sim.maxSteps)
        ended := true })
  /-- An instruction cannot be carried out and is kept. -/
  | failed (hd : sim.isDone = false) (hs : sim.started = true) {c : Char} {rest : Text}
    (ha : sim.ahead = c :: rest) (hm : ¬sim.maxSteps ≤ sim.state.steps) {state : State}
    {e : StepError} (he : sim.state.apply [c] = (state, some e)) :
    Turn sim (.failed e, { sim with unread := c :: rest, state })
  /-- An instruction is carried out. -/
  | applied (hd : sim.isDone = false) (hs : sim.started = true) {c : Char} {rest : Text}
    (ha : sim.ahead = c :: rest) (hm : ¬sim.maxSteps ≤ sim.state.steps) {state : State}
    (he : sim.state.apply [c] = (state, none)) :
    Turn sim (.snapshot state, { sim with unread := rest, state, ended := state.isOver })

theorem turn_next (sim : Simulation) : Turn sim sim.next := by
  rw [next]
  split
  · rename_i hd; exact .done hd
  rename_i hd
  rw [Bool.not_eq_true] at hd
  split
  · rename_i hs; exact .first hd (by simpa using hs)
  rename_i hs
  have hs : sim.started = true := by simpa using hs
  split
  · rename_i ha; exact .exhausted hd hs ha
  rename_i c rest ha
  split
  · rename_i hm; exact .limit hd hs ha hm
  rename_i hm
  split
  · rename_i he; exact .failed hd hs ha hm he
  · rename_i he; exact .applied hd hs ha hm he

/-- The answer to a question is determined by the branch that applies. -/
theorem Turn.eq_next {r : Delivery × Simulation} (h : Turn sim r) : sim.next = r := by
  cases h with
  | done hd => rw [next, if_pos hd]
  | first hd hs => simp [next, hd, hs]
  | exhausted hd hs ha => simp [next, hd, hs, ha]
  | limit hd hs ha hm => simp [next, hd, hs, ha, hm]
  | failed hd hs ha hm he => simp [next, hd, hs, ha, hm, he]
  | applied hd hs ha hm he => simp [next, hd, hs, ha, hm, he]

/-! ### All questions -/

/-- The answers to the first `n` questions. -/
def answers (sim : Simulation) : Nat → List Delivery
  | 0 => []
  | n + 1 => sim.next.1 :: answers sim.next.2 n

@[simp] theorem answers_zero : sim.answers 0 = [] := rfl

theorem answers_succ (n : Nat) : sim.answers (n + 1) = sim.next.1 :: sim.next.2.answers n := rfl

/-- What holds of the answer to one question, and is kept up by it, holds of all answers. -/
theorem forall_mem_answers {I : Simulation → Prop} {P : Delivery → Prop}
    (turn : ∀ sim, I sim → P sim.next.1 ∧ I sim.next.2) (h : I sim) (n : Nat) :
    ∀ d ∈ sim.answers n, P d := by
  induction n generalizing sim with
  | zero => intro d hd; simp at hd
  | succ n ih =>
    intro d hd
    obtain ⟨hanswer, hafter⟩ := turn sim h
    rcases List.mem_cons.1 (answers_succ n ▸ hd) with rfl | hd
    · exact hanswer
    · exact ih hafter d hd

/-- Two simulations give the same answers if they do so once, and stay in a relation that says
so. -/
theorem answers_eq {R : Simulation → Simulation → Prop}
    (turn : ∀ a b, R a b → a.next.1 = b.next.1 ∧ R a.next.2 b.next.2) {a b : Simulation}
    (h : R a b) (n : Nat) : a.answers n = b.answers n := by
  induction n generalizing a b with
  | zero => rfl
  | succ n ih =>
    obtain ⟨hanswer, hafter⟩ := turn a b h
    rw [answers_succ, answers_succ, hanswer, ih hafter]

/-- After the end there is nothing but the end. -/
theorem answers_of_isDone (h : sim.isDone = true) (n : Nat) :
    sim.answers n = List.replicate n .ended := by
  induction n with
  | zero => rfl
  | succ n ih => rw [answers_succ, (Turn.done h).eq_next, ih, List.replicate_succ]

end Simulation

end RobotMaze
