import RobotMaze.Program.Expansion

/-!
# Running the expander step by step

`Expansion.run` looks at its limit, makes a step and goes on from the stack that the step leads to.
This file has one equation for each of the four things that can happen, and the induction that goes
with them. A proof about runs says what it takes for each of the four, and never unfolds `run`.

Steps that give an instruction and steps that give none are one case here: what a step gives is an
`Option`, and its list is put in front of what has been given already.

The last section compares runs. Where changing the frames of a stack commutes with steps, it
commutes with runs (`Expansion.run_map`).
-/

namespace RobotMaze

namespace Expansion

variable {maxDepth : Int} {room : Option Nat} {stack : List Frame}

/-! ### The four cases -/

/-- Without room left, the run is over. -/
theorem run_of_full (stack : List Frame) (given : List Instruction) :
    run maxDepth (some 0) stack given = ⟨given.reverse, none⟩ := by
  rw [run, if_pos rfl]

theorem run_of_finished (hr : room ≠ some 0) (h : step maxDepth stack = .finished)
    (given : List Instruction) : run maxDepth room stack given = ⟨given.reverse, none⟩ := by
  rw [run, if_neg hr]
  split <;> simp_all

theorem run_of_failed {e : ExpansionError} (hr : room ≠ some 0)
    (h : step maxDepth stack = .failed e) (given : List Instruction) :
    run maxDepth room stack given = ⟨given.reverse, some e⟩ := by
  rw [run, if_neg hr]
  split <;> simp_all

/-- A step that leads to another stack takes as much room as it gives instructions. -/
theorem run_of_next {stack' : List Frame} {emitted : Option Instruction} (hr : room ≠ some 0)
    (h : step maxDepth stack = .next emitted stack') (given : List Instruction) :
    run maxDepth room stack given =
      run maxDepth (room.map (· - emitted.toList.length)) stack' (emitted.toList ++ given) := by
  rw [run, if_neg hr]
  split
  · rename_i hs; rw [h] at hs; cases hs
  · rename_i hs; rw [h] at hs; cases hs
  · rename_i hs
    rw [h] at hs
    cases hs
    simp
  · rename_i hs; rw [h] at hs; cases hs; rfl

/-! ### Induction -/

/-- **Induction along a run.** What holds of every end of a run, and of a run as soon as it holds
of the run from the next stack on, holds of all runs. -/
@[elab_as_elim]
theorem run_induction {P : Option Nat → List Frame → List Instruction → Expansion → Prop}
    (full : ∀ stack given, P (some 0) stack given ⟨given.reverse, none⟩)
    (finished : ∀ room stack given, room ≠ some 0 → step maxDepth stack = .finished →
      P room stack given ⟨given.reverse, none⟩)
    (failed : ∀ room stack given e, room ≠ some 0 → step maxDepth stack = .failed e →
      P room stack given ⟨given.reverse, some e⟩)
    (next : ∀ room stack given emitted stack' rest, room ≠ some 0 →
      step maxDepth stack = .next emitted stack' →
      P (room.map (· - emitted.toList.length)) stack' (emitted.toList ++ given) rest →
      P room stack given rest)
    (room : Option Nat) (stack : List Frame) (given : List Instruction) :
    P room stack given (run maxDepth room stack given) := by
  induction stack using (wellFounded_successor maxDepth).induction generalizing room given with
  | _ stack ih =>
    by_cases hr : room = some 0
    · rw [hr, run_of_full]
      exact full stack given
    cases hs : step maxDepth stack with
    | finished =>
      rw [run_of_finished hr hs]
      exact finished room stack given hr hs
    | failed e =>
      rw [run_of_failed hr hs]
      exact failed room stack given e hr hs
    | next emitted stack' =>
      rw [run_of_next hr hs]
      exact next room stack given emitted stack' _ hr hs (ih stack' ⟨emitted, hs⟩ _ _)

/-! ### Runs that mirror each other -/

/-- The same step, with other frames and another error. -/
def Step.map (onFrame : Frame → Frame) (onError : ExpansionError → ExpansionError) : Step → Step
  | .finished => .finished
  | .failed e => .failed (onError e)
  | .next emitted stack => .next emitted (stack.map onFrame)

/-- The same expansion, with another error. -/
def mapFailure (onError : ExpansionError → ExpansionError) (e : Expansion) : Expansion :=
  { e with failure := e.failure.map onError }

/-- If frames can be changed so that each step leads to the changed frames of what it led to, then
a run from the changed frames gives the same instructions and the changed error. -/
theorem run_map {maxDepth' : Int} {onFrame : Frame → Frame}
    {onError : ExpansionError → ExpansionError}
    (h : ∀ stack, step maxDepth' (stack.map onFrame) = (step maxDepth stack).map onFrame onError)
    (room : Option Nat) (stack : List Frame) (given : List Instruction) :
    run maxDepth' room (stack.map onFrame) given =
      (run maxDepth room stack given).mapFailure onError := by
  refine run_induction (P := fun room stack given e =>
    run maxDepth' room (stack.map onFrame) given = e.mapFailure onError) ?_ ?_ ?_ ?_
    room stack given
  · intro stack given
    exact run_of_full _ given
  · intro room stack given hr hs
    exact run_of_finished hr (by rw [h, hs]; rfl) given
  · intro room stack given e hr hs
    exact run_of_failed hr (by rw [h, hs]; rfl) given
  · intro room stack given emitted stack' rest hr hs ih
    rw [← ih]
    exact run_of_next hr (by rw [h, hs]; rfl) given

end Expansion

end RobotMaze
