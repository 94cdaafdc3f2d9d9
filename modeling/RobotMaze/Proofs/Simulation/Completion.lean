import RobotMaze.Proofs.Expansion.Equations
import RobotMaze.Proofs.Expansion.Literals
import RobotMaze.Proofs.Simulation.Consistency
import RobotMaze.Proofs.Simulation.Trace

/-!
# Runs that come to an end

Three things could keep a run from ending in a state: there is no simulation, an instruction fails,
or there are ever more snapshots. This file shows that the last two do not happen to a program on a
level, when the first does not happen to one without long numerals, and how many snapshots there are
at most.

The bound is the step limit and nothing else. Every snapshot but the first and the last counts a
step, since an instruction that is carried out counts one unless it finds the game over, and a game
that is over has no snapshots to come. `allowance` is what the limit leaves, with one more for a
snapshot that tells of the limit and one more for the first; every snapshot lowers it
(`allowance_lt_of_next`). It is the measure of the induction as well as the bound.

## Main results

* `exists_deliversExactly` — a run in which nothing fails delivers what its allowance allows at most
* `runToEnd_newGame_iff` — when programs without long numerals run to their end
* `maxSteps_lt_of_limit` — the step limits that runs meet
-/

namespace RobotMaze

open Text

namespace Simulation

variable {sim after : Simulation} {state : State}

/-! ### How many snapshots there can be -/

/-- A bound on the number of snapshots to come: one for each step that the limit leaves, one for
meeting the limit, and one for the first snapshot. -/
def allowance (sim : Simulation) : Nat :=
  if sim.isDone then 0
  else (sim.maxSteps - sim.state.steps).toNat + (if sim.started then 1 else 2)

theorem allowance_of_isDone (h : sim.isDone = true) : sim.allowance = 0 := if_pos h

theorem allowance_of_not_isDone (h : sim.isDone = false) :
    sim.allowance = (sim.maxSteps - sim.state.steps).toNat + if sim.started then 1 else 2 :=
  if_neg (Bool.eq_false_iff.1 h)

theorem allowance_le (h : sim.started = true) :
    sim.allowance ≤ (sim.maxSteps - sim.state.steps).toNat + 1 := by
  rw [allowance, if_pos h]
  split
  · exact Nat.zero_le _
  · exact Nat.le_refl _

/-- **One question.** Every snapshot lowers the allowance. -/
theorem allowance_lt_of_next (h : sim.next = (.snapshot state, after)) :
    after.allowance < sim.allowance := by
  have hturn := sim.turn_next
  rw [h] at hturn
  cases hturn with
  | first hd hs =>
    rw [allowance_of_not_isDone hd, if_neg (Bool.eq_false_iff.1 hs)]
    exact Nat.lt_succ_of_le (allowance_le rfl)
  | limit hd hs ha hm =>
    rw [allowance_of_isDone (by simp [isDone]), allowance_of_not_isDone hd, if_pos hs]
    exact Nat.succ_pos _
  | applied hd hs ha hm he =>
    rw [allowance_of_not_isDone hd, if_pos hs]
    -- Either the game goes on and has counted a step below the limit, or it is over.
    rcases State.steps_of_apply_letter (isLetter_of_ahead ha) he with hsteps | ⟨hover, -⟩
    · refine Nat.lt_of_le_of_lt (allowance_le hs) ?_
      simp only
      omega
    · rw [allowance_of_isDone (by simp [isDone, hover])]
      exact Nat.succ_pos _

theorem isDone_of_ended (h : sim.next = (.ended, after)) : after.isDone = true := by
  have hturn := sim.turn_next
  rw [h] at hturn
  cases hturn with
  | done hd => exact hd
  | exhausted hd hs ha => simp [isDone]

/-- **All questions.** A run in which nothing fails comes to its end. -/
theorem exists_deliversExactly {I : Simulation → Prop}
    (turn : ∀ sim, I sim → (∀ e, sim.next.1 ≠ .failed e) ∧ I sim.next.2) (h : I sim) :
    ∃ snapshots, sim.DeliversExactly snapshots ∧ snapshots.length ≤ sim.allowance := by
  induction hn : sim.allowance using Nat.strongRecOn generalizing sim with
  | _ n ih =>
    obtain ⟨hok, hafter⟩ := turn sim h
    cases hnext : sim.next with
    | mk answer after =>
      rw [hnext] at hok hafter
      cases answer with
      | ended => exact ⟨[], .nil hnext (isDone_of_ended hnext), Nat.zero_le _⟩
      | failed e => exact absurd rfl (hok e)
      | snapshot state =>
        have hlt := allowance_lt_of_next hnext
        obtain ⟨rest, hrest, hlength⟩ := ih after.allowance (by omega) hafter rfl
        refine ⟨state :: rest, .cons hnext hrest, ?_⟩
        rw [List.length_cons]
        omega

/-! ### Programs -/

/-- A simulation that has not been asked yet, on a board that has not counted steps. -/
structure Fresh (maxSteps : Int) (sim : Simulation) : Prop where
  notDone : sim.isDone = false
  notStarted : sim.started = false
  maxSteps : sim.maxSteps = maxSteps
  steps : sim.state.steps = 0

theorem fresh_of_ofExpansion {initial : State} {maxSteps : Int}
    {expansion : Except ExpansionError (List Instruction)} (h : initial.steps = 0)
    (hsim : ofExpansion initial maxSteps expansion = .ok sim) : sim.Fresh maxSteps := by
  rcases expansion with (e | e) | instructions
  · cases hsim
    exact ⟨rfl, rfl, rfl, h⟩
  · cases hsim
  · cases hsim
    exact ⟨rfl, rfl, rfl, h⟩

/-- A fresh simulation has a first snapshot. -/
theorem Fresh.ne_nil {maxSteps : Int} {snapshots : List State} (h : sim.Fresh maxSteps)
    (hsnapshots : sim.DeliversExactly snapshots) : snapshots ≠ [] := by
  rintro rfl
  have hanswer := hsnapshots.answered 1
  rw [List.length_nil, Nat.zero_add, answers_succ, (Turn.first h.notDone h.notStarted).eq_next]
    at hanswer
  cases hanswer

theorem value_simulate {program : Text} {initial : State} {maxDepth maxSteps : Int}
    {snapshots : List State} (hsim : (start program initial maxDepth maxSteps).value = .ok sim)
    (h : sim.DeliversExactly snapshots) :
    (simulate program initial maxDepth maxSteps).value = .ok snapshots := by
  rw [simulate, Recorded.value_bind, hsim]
  simp only [Recorded.value_bind, h.unfailing, Recorded.value_pure, h.drained]

/-- A simulation of a program on a level runs to its end, where the last snapshot is left. -/
theorem exists_runToEnd_eq {program level : Text} {size maxDepth maxSteps : Int} (hsize : 1 ≤ size)
    (hsim : (start program (Level.newGame level size) maxDepth maxSteps).value = .ok sim) :
    ∃ snapshots last, sim.DeliversExactly snapshots ∧
      1 ≤ snapshots.length ∧ (snapshots.length : Int) ≤ max 0 maxSteps + 2 ∧
      (simulate program (Level.newGame level size) maxDepth maxSteps).value = .ok snapshots ∧
      snapshots.getLast? = some last ∧
      (runToEnd program (Level.newGame level size) maxDepth maxSteps).value = .ok (some last) := by
  have hfresh : sim.Fresh maxSteps := fresh_of_ofExpansion rfl hsim
  have hconsistent := consistent_of_ofExpansion (Level.consistent_newGame hsize) rfl hsim
  obtain ⟨snapshots, hsnapshots, hlength⟩ :=
    exists_deliversExactly (fun _ h => ⟨h.next.1.1, h.next.2⟩) hconsistent
  have hne := hfresh.ne_nil hsnapshots
  have hlast := List.getLast?_eq_some_getLast hne
  have hvalue := value_simulate hsim hsnapshots
  rw [allowance_of_not_isDone hfresh.notDone, hfresh.notStarted, hfresh.maxSteps, hfresh.steps]
    at hlength
  refine ⟨snapshots, _, hsnapshots, List.length_pos_iff.2 hne, ?_, hvalue, hlast, ?_⟩
  · simp only [Bool.false_eq_true, if_false] at hlength
    omega
  · rw [runToEnd, Recorded.value_bind, hvalue, Recorded.value_pure, Except.map, hlast]

/-- **Runs to the end.** Let a program without long numerals be run on a level of at least one cell,
under any limits. If the limit on depth can be written out or no call exceeds it, there is a
simulation. It delivers one snapshot or more, and two more than the step limit at most; nothing
fails on the way, and what is left in the end is the last snapshot. Otherwise there is none. -/
theorem runToEnd_newGame_iff (program level : Text) {size : Int} (maxDepth maxSteps : Int)
    (hsize : 1 ≤ size) (hmain : ShortRuns (Program.parse program).main)
    (hbodies : ∀ d ∈ (Program.parse program).functions, ShortRuns d.body) :
    (∃ sim snapshots last,
      (start program (Level.newGame level size) maxDepth maxSteps).value = .ok sim ∧
      sim.DeliversExactly snapshots ∧
      1 ≤ snapshots.length ∧ (snapshots.length : Int) ≤ max 0 maxSteps + 2 ∧
      (simulate program (Level.newGame level size) maxDepth maxSteps).value = .ok snapshots ∧
      snapshots.getLast? = some last ∧
      (runToEnd program (Level.newGame level size) maxDepth maxSteps).value = .ok (some last)) ↔
      Numeral.Writable maxDepth ∨
        ∀ e, expandProgram program maxDepth (some (maxSteps + 1)) ≠ .error (.depth e) := by
  rw [← exists_start_iff ⟨hmain, hbodies⟩ maxDepth maxSteps (Level.newGame level size)]
  constructor
  · rintro ⟨sim, -, -, hsim, -⟩
    exact ⟨sim, hsim⟩
  · rintro ⟨sim, hsim⟩
    obtain ⟨snapshots, last, hruns⟩ := exists_runToEnd_eq hsize hsim
    exact ⟨sim, snapshots, last, hsim, hruns⟩

/-- A program that counts down from a number which is written on two lines. -/
theorem runToEnd_newGame_twelve :
    let program := "f(A):sf(A-1)\nf(1\n2)".toList
    (Program.parse program).main = "f(12)".toList ∧ ∃ sim snapshots last,
      (start program (Level.newGame ['u'] 3) 20 5).value = .ok sim ∧
      sim.DeliversExactly snapshots ∧
      1 ≤ snapshots.length ∧ (snapshots.length : Int) ≤ max 0 5 + 2 ∧
      (simulate program (Level.newGame ['u'] 3) 20 5).value = .ok snapshots ∧
      snapshots.getLast? = some last ∧
      (runToEnd program (Level.newGame ['u'] 3) 20 5).value = .ok (some last) := by
  intro program
  have hmain : (Program.parse program).main.length ≤ Numeral.maxDigits := by decide
  have hbodies : ∀ d ∈ (Program.parse program).functions, d.body.length ≤ Numeral.maxDigits := by
    decide
  exact ⟨by decide, (runToEnd_newGame_iff program ['u'] 20 5 (by decide)
    (shortRuns_of_length_le hmain) fun d hd => shortRuns_of_length_le (hbodies d hd)).2
      (.inl (Numeral.writable_of_natAbs_le (by decide)))⟩

/-- A call under a limit below zero, with more digits than can be written out. The call is too deep,
the error for it cannot be worded, and no state is left. -/
theorem runToEnd_newGame_unwritable :
    let program := ['f']
    let maxDepth : Int := -(Nat.pow 10 Numeral.maxDigits : Nat)
    ShortRuns (Program.parse program).main ∧
      (∀ d ∈ (Program.parse program).functions, ShortRuns d.body) ∧
      (start program (Level.newGame ['u'] 1) maxDepth 10000).value = .error .writing ∧
      (runToEnd program (Level.newGame ['u'] 1) maxDepth 10000).value =
        .error (.literal .writing) := by
  intro program maxDepth
  have hw : ¬Numeral.Writable maxDepth := by
    rw [Numeral.Writable, Int.natAbs_neg, Int.natAbs_natCast]
    exact Nat.lt_irrefl _
  have hpos : ∀ k, 0 < Nat.pow 10 k := fun k => Nat.pow_pos (by decide)
  have hneg : maxDepth < 0 := Int.neg_neg_of_pos (Int.natCast_pos.2 (hpos Numeral.maxDigits))
  have hdeep : expandProgram program maxDepth (some (10000 + 1)) =
      .error (.depth ⟨['f'], 0, maxDepth⟩) :=
    expandProgram_call_of_neg rfl (by decide) hneg (by decide)
  have hstart := value_start_of_not_writable hdeep hw (Level.newGame ['u'] 1)
  have hmain : (Program.parse program).main.length ≤ Numeral.maxDigits := by decide
  have hbodies : ∀ d ∈ (Program.parse program).functions, d.body.length ≤ Numeral.maxDigits := by
    decide
  refine ⟨shortRuns_of_length_le hmain, fun d hd => shortRuns_of_length_le (hbodies d hd), hstart,
    ?_⟩
  rw [runToEnd, simulate, Recorded.value_bind, Recorded.value_bind, hstart]
  rfl

/-! ### The limit that a run meets -/

/-- The steps counted and the letters left to read are no more than `length` together, and there are
letters only if the limit allows a step. -/
structure Paced (length : Nat) (sim : Simulation) : Prop where
  allowed : sim.unread ≠ [] → 0 ≤ sim.maxSteps
  counted : sim.isDone = false → sim.state.steps + sim.unread.length ≤ length

theorem unread_ne_nil (h : sim.ahead ≠ []) : sim.unread ≠ [] :=
  fun hnil => h (by simp [ahead, hnil])

/-- **One question** that is answered without a failure. -/
theorem Paced.next {length : Nat} (h : sim.Paced length) (hok : ∀ e, sim.next.1 ≠ .failed e) :
    sim.next.2.maxSteps = sim.maxSteps ∧ sim.next.2.Paced length := by
  have hturn := sim.turn_next
  have hahead := sim.length_ahead_le
  generalize sim.next = r at hturn hok ⊢
  cases hturn with
  | done hd => exact ⟨rfl, h⟩
  | first hd hs => exact ⟨rfl, h.allowed, fun _ => h.counted hd⟩
  | exhausted hd hs ha => exact ⟨rfl, by simp, by simp [isDone]⟩
  | limit hd hs ha hm =>
    exact ⟨rfl, fun _ => h.allowed (unread_ne_nil (by simp [ha])), by simp [isDone]⟩
  | failed hd hs ha hm he => exact absurd rfl (hok _)
  | @applied hd hs c rest ha hm state he =>
    refine ⟨rfl, fun _ => h.allowed (unread_ne_nil (by simp [ha])), fun hd' => ?_⟩
    have hcounted := h.counted hd
    have hover : state.isOver = false := (Bool.or_eq_false_iff.1 hd').1
    rw [ha, List.length_cons] at hahead
    rcases State.steps_of_apply_letter (isLetter_of_ahead ha) he with hsteps | ⟨hend, -⟩
    · simp only
      omega
    · rw [hover] at hend
      cases hend

/-- A program starts with one instruction more than its limit allows at most. -/
theorem paced_of_start {program : Text} {initial : State} {maxDepth maxSteps : Int}
    (h : initial.steps = 0)
    (hsim : (start program initial maxDepth maxSteps).value = .ok sim) :
    sim.maxSteps = maxSteps ∧ sim.Paced sim.instructions.length := by
  change ofExpansion initial maxSteps (expandForRun program maxDepth maxSteps) = .ok sim at hsim
  cases hexpansion : expandProgram program maxDepth (some (maxSteps + 1)) with
  | error failure =>
    rw [expandForRun_of_error hexpansion] at hsim
    cases hraised : failure.raised with
    | depth e =>
      rw [hraised] at hsim
      cases hsim
      have hsteps : (failedState initial e).steps = 0 := h
      exact ⟨rfl, fun hne => absurd rfl hne, fun _ => by simp [ofInstructions, hsteps]⟩
    | literal e =>
      rw [hraised] at hsim
      cases hsim
  | ok w =>
    rw [expandForRun_of_ok hexpansion] at hsim
    cases hsim
    refine ⟨rfl, fun hne => ?_, fun _ => by simp [ofInstructions, h]⟩
    have hlength := length_le_of_expandProgram hexpansion
    have hpos : 0 < w.length := List.length_pos_iff.2 fun hnil => hne (by rw [hnil]; rfl)
    show 0 ≤ maxSteps
    omega

/-- **The limit that a run meets** is not negative, and there are more instructions than it allows
steps. -/
theorem maxSteps_lt_of_limit {program level : Text} {size maxDepth maxSteps : Int}
    (hsize : 1 ≤ size)
    (hsim : (start program (Level.newGame level size) maxDepth maxSteps).value = .ok sim) (n : Nat)
    (hd : (sim.afterAsking n).isDone = false) (ha : (sim.afterAsking n).ahead ≠ [])
    (hm : maxSteps ≤ (sim.afterAsking n).state.steps) :
    0 ≤ maxSteps ∧ maxSteps < sim.instructions.length := by
  have hconsistent := consistent_of_ofExpansion (Level.consistent_newGame hsize) rfl hsim
  obtain ⟨hmax, hpaced⟩ := paced_of_start rfl hsim
  have hkept : (sim.afterAsking n).maxSteps = maxSteps ∧
      (sim.afterAsking n).Paced sim.instructions.length := by
    generalize sim.instructions.length = length at hpaced
    clear hsim hd ha hm
    induction n generalizing sim with
    | zero => exact ⟨hmax, hpaced⟩
    | succ n ih =>
      obtain ⟨hsame, hnext⟩ := hpaced.next hconsistent.next.1.1
      exact ih hconsistent.next.2 (hsame.trans hmax) hnext
  obtain ⟨hsame, hallowed, hcounted⟩ := hkept
  have hunread := unread_ne_nil ha
  have hpos := List.length_pos_iff.2 hunread
  have hleft := hcounted hd
  refine ⟨hsame ▸ hallowed hunread, ?_⟩
  omega

end Simulation

end RobotMaze
