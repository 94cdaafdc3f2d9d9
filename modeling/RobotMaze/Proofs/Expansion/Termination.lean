import RobotMaze.Proofs.Expansion.Run

/-!
# Expansion ends

`Expansion.run` is defined by recursion on the successor relation between stacks, so that it ends is
part of its definition. This file says the same of the plain loop: `runWithin` makes one iteration
after the other and gives up when a budget is used up, with no measure in its definition. From every
stack there is a number of iterations that it needs, neither more nor less, and what it then gives
is what `run` gives.

No single counter falls during an expansion. A call raises the depth, a reference to a fragment
keeps the depth and goes back to a context that nests less deeply, and reading on shortens the text
of one frame while others wait below it. `Frame.rank` orders these three, and `acc_cons` lifts the
order to stacks; the induction below is along that order.

## Main results

* `Expansion.exists_iterations` — the loop ends from every stack, after a fixed number of iterations
* `exists_iterations_expand` — expansion ends, for every text, context, depth and depth limit
* `expand_eq_of_runWithin` — an expansion can be worked out by running the loop
-/

namespace RobotMaze

namespace Expansion

variable {maxDepth : Int}

/-- Runs the expander without a limit for at most `budget` iterations. There is no result if it has
not come to its end by then. -/
def runWithin (maxDepth : Int) : Nat → List Frame → List Instruction → Option Expansion
  | 0, _, _ => none
  | budget + 1, stack, given =>
    match step maxDepth stack with
    | .finished => some { instructions := given.reverse }
    | .failed e => some { instructions := given.reverse, failure := some e }
    | .next none stack' => runWithin maxDepth budget stack' given
    | .next (some i) stack' => runWithin maxDepth budget stack' (i :: given)

@[simp] theorem runWithin_zero (stack : List Frame) (given : List Instruction) :
    runWithin maxDepth 0 stack given = none := rfl

/-- An iteration that leads to another stack leaves one iteration less for it. -/
theorem runWithin_succ_of_next {stack stack' : List Frame} {emitted : Option Instruction}
    (h : step maxDepth stack = .next emitted stack') (budget : Nat) (given : List Instruction) :
    runWithin maxDepth (budget + 1) stack given =
      runWithin maxDepth budget stack' (emitted.toList ++ given) := by
  rw [runWithin, h]
  cases emitted <;> rfl

/-- An iteration that ends the run is the last one. -/
theorem runWithin_succ_of_end {stack : List Frame}
    (h : ∀ emitted stack', step maxDepth stack ≠ .next emitted stack') (budget : Nat)
    (given : List Instruction) :
    runWithin maxDepth (budget + 1) stack given = some (run maxDepth none stack given) := by
  rw [runWithin]
  cases hs : step maxDepth stack with
  | finished => rw [run_of_finished (by simp) hs]
  | failed e => rw [run_of_failed (by simp) hs]
  | next emitted stack' => exact (h emitted stack' hs).elim

/-- **The loop ends.** From every stack it needs a fixed number of iterations: with fewer there is
no result, and with that many or more the result is that of the run. -/
theorem exists_iterations (stack : List Frame) (given : List Instruction) :
    ∃ iterations, ∀ budget, runWithin maxDepth budget stack given =
      if iterations ≤ budget then some (run maxDepth none stack given) else none := by
  induction stack using (wellFounded_successor maxDepth).induction generalizing given with
  | _ stack ih =>
    by_cases hnext : ∃ emitted stack', step maxDepth stack = .next emitted stack'
    · obtain ⟨emitted, stack', hs⟩ := hnext
      obtain ⟨n, hn⟩ := ih stack' ⟨emitted, hs⟩ (emitted.toList ++ given)
      refine ⟨n + 1, fun budget => ?_⟩
      cases budget with
      | zero => simp
      | succ budget => rw [runWithin_succ_of_next hs, hn, run_of_next (by simp) hs]; simp
    · refine ⟨1, fun budget => ?_⟩
      have hend : ∀ emitted stack', step maxDepth stack ≠ .next emitted stack' :=
        fun emitted stack' hs => hnext ⟨emitted, stack', hs⟩
      cases budget with
      | zero => simp
      | succ budget => rw [runWithin_succ_of_end hend]; simp

end Expansion

open Expansion

/-- **Expansion ends.** Whatever the text, the functions, the fragments that are bound, the starting
depth and the depth limit, the expander comes to its end after finitely many iterations, with
instructions or with a failure. -/
theorem exists_iterations_expand (maxDepth : Int) (context : Context) (depth : Int) (text : Text) :
    ∃ iterations, ∀ budget,
      runWithin maxDepth budget [.start text context depth .entry] [] =
        if iterations ≤ budget then some (expand maxDepth none context depth text) else none :=
  exists_iterations _ _

/-- What the loop gives within some budget is the expansion. -/
theorem expand_eq_of_runWithin {maxDepth : Int} {context : Context} {depth : Int} {text : Text}
    {e : Expansion} (budget : Nat)
    (h : runWithin maxDepth budget [.start text context depth .entry] [] = some e) :
    expand maxDepth none context depth text = e := by
  obtain ⟨n, hn⟩ := @exists_iterations maxDepth [.start text context depth .entry] []
  rw [hn] at h
  split at h
  · exact Option.some.inj h
  · cases h

end RobotMaze
