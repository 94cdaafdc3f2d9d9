import RobotMaze.Board.Level
import RobotMaze.Program.Expansion

/-!
# Simulations

A simulation plays an instruction text on a board, one snapshot at a time. The first snapshot is the
board as it was given. Each later one applies the next primitive instruction of the text; characters
that stand for none are skipped. The run ends when the game is over, when no instruction is left, or
when it is cancelled; an instruction beyond the step limit ends the game instead of being applied.

An instruction that cannot be carried out is not consumed, so asking again tries it again.
`Simulation.remaining` bounds the number of snapshots still to come, and every snapshot lowers it.
-/

namespace RobotMaze

/-- A run of instructions on a board of its own. -/
structure Simulation where
  /-- The instruction text of the run. -/
  instructions : Text
  /-- How many steps the game may have counted when an instruction is applied. -/
  maxSteps : Int
  /-- The board of the run, which later snapshots show. -/
  state : State
  /-- What is left of the instruction text. -/
  unread : Text
  /-- The error that kept the program of the run from being expanded. -/
  error : Option DepthExceeded := none
  /-- Whether the first snapshot has been delivered. -/
  started : Bool := false
  /-- Whether the run has come to its own end. -/
  ended : Bool := false
  cancelled : Bool := false
deriving DecidableEq, Repr

/-- The answer to asking for the next snapshot. -/
inductive Delivery where
  | ended
  | snapshot (state : State)
  | failed (e : StepError)
deriving DecidableEq, Repr

namespace Simulation

/-- A simulation of an instruction text. -/
def ofInstructions (instructions : Text) (initial : State) (maxSteps : Int) : Simulation :=
  { instructions, maxSteps, state := initial, unread := instructions }

/-- The state that a failed expansion leaves of a board. -/
def failedState (initial : State) (e : DepthExceeded) : State := initial.finish .error e.message

/-- The simulation of an expanded program. A program that recurses too deeply has a simulation whose
only snapshot tells so. -/
def ofExpansion (initial : State) (maxSteps : Int) :
    Except ExpansionError (List Instruction) → Except Numeral.TooLong Simulation
  | .ok instructions => .ok (ofInstructions (Instruction.write instructions) initial maxSteps)
  | .error (.depth e) =>
    .ok { ofInstructions [] (failedState initial e) maxSteps with error := some e }
  | .error (.literal e) => .error e

/-- What making a simulation of an expanded program leaves in the log. -/
def expansionRecords : Except ExpansionError (List Instruction) → List Record
  | .error (.depth e) => [⟨.info, "engine", s!"expansion failed: {e.message}"⟩]
  | _ => []

/-- Expands a program as far as the step limit can see: one instruction more than may be applied. A
failure is raised. -/
def expandForRun (program : Text) (maxDepth maxSteps : Int) :
    Except ExpansionError (List Instruction) :=
  (expandProgram program maxDepth (some (maxSteps + 1))).mapError ExpansionError.raised

theorem expandForRun_of_ok {program : Text} {maxDepth maxSteps : Int} {w : List Instruction}
    (h : expandProgram program maxDepth (some (maxSteps + 1)) = .ok w) :
    expandForRun program maxDepth maxSteps = .ok w := by
  rw [expandForRun, h]
  rfl

theorem expandForRun_of_error {program : Text} {maxDepth maxSteps : Int} {failure : ExpansionError}
    (h : expandProgram program maxDepth (some (maxSteps + 1)) = .error failure) :
    expandForRun program maxDepth maxSteps = .error failure.raised := by
  rw [expandForRun, h]
  rfl

/-- The simulation of a program. -/
def ofProgram (program : Text) (initial : State) (maxDepth maxSteps : Int) :
    Except Numeral.TooLong Simulation :=
  ofExpansion initial maxSteps (expandForRun program maxDepth maxSteps)

/-- The simulation of a program, with what making it leaves in the log. -/
def start (program : Text) (initial : State) (maxDepth maxSteps : Int) :
    Recorded (Except Numeral.TooLong Simulation) := do
  let expansion := expandForRun program maxDepth maxSteps
  Recorded.log (expandRecords program expansion ++ expansionRecords expansion)
  return ofExpansion initial maxSteps expansion

/-- Whether no snapshot will come any more. -/
def isDone (sim : Simulation) : Bool := sim.ended || sim.cancelled

/-- Stops the run before the next snapshot. -/
def cancel (sim : Simulation) : Simulation := { sim with cancelled := true }

/-- The message of a game that ran into the step limit. Any limit is written out here, also one with
more digits than `Numeral.maxDigits`. Such a limit is met by instructions that are played under it
directly, if it is negative or steps have been counted before. A program on a new game does not meet
it: the limits that its run meets are not negative, and below the number of its instructions. -/
def maxStepsMessage (maxSteps : Int) : String :=
  s!"Maximum steps ({maxSteps}) reached. Check for infinite loops."

/-- The instructions not yet applied, from the first primitive one on. -/
def ahead (sim : Simulation) : Text := sim.unread.dropWhile (!Instruction.isLetter ·)

theorem length_ahead_le (sim : Simulation) : sim.ahead.length ≤ sim.unread.length :=
  (List.dropWhile_suffix _).length_le

/-- The next snapshot, and the simulation after delivering it. -/
def next (sim : Simulation) : Delivery × Simulation :=
  if sim.isDone then (.ended, sim)
  else if !sim.started then
    (.snapshot sim.state, { sim with started := true, ended := sim.state.isOver })
  else match sim.ahead with
    | [] => (.ended, { sim with unread := [], ended := true })
    | c :: rest =>
      if sim.maxSteps ≤ sim.state.steps then
        let state := sim.state.finish .maxSteps (maxStepsMessage sim.maxSteps)
        (.snapshot state, { sim with unread := c :: rest, state, ended := true })
      else match sim.state.apply [c] with
        | (state, some e) => (.failed e, { sim with unread := c :: rest, state })
        | (state, none) =>
          (.snapshot state, { sim with unread := rest, state, ended := state.isOver })

/-- What asking for the next snapshot leaves in the log. -/
def nextRecords (sim : Simulation) : List Record :=
  if sim.isDone || !sim.started then []
  else if sim.ahead.isEmpty then
    let state := sim.state
    [⟨.info, "engine", s!"instructions exhausted after {state.steps} step(s); " ++
      s!"{state.collected}/{state.totalPoints} points"⟩]
  else if sim.maxSteps ≤ sim.state.steps then
    [⟨.info, "engine", s!"step cap of {sim.maxSteps} reached"⟩]
  else match sim.next with
    | (.snapshot state, _) =>
      if state.isOver then
        [⟨.info, "engine", s!"run ended: {state.outcome.name} after {state.steps} step(s)"⟩]
      else []
    | _ => []

/-- A bound on the number of snapshots to come. -/
def remaining (sim : Simulation) : Nat :=
  if sim.isDone then 0 else (if sim.started then 1 else 2) + sim.unread.length

theorem remaining_of_isDone {sim : Simulation} (h : sim.isDone = true) : sim.remaining = 0 := by
  rw [remaining, if_pos h]

theorem remaining_of_not_isDone {sim : Simulation} (h : ¬sim.isDone = true) :
    sim.remaining = (if sim.started then 1 else 2) + sim.unread.length := by
  rw [remaining, if_neg h]

/-- Once the first snapshot is out, every snapshot but one uses up an instruction. -/
theorem remaining_le_of_started {sim : Simulation} (h : sim.started = true) :
    sim.remaining ≤ 1 + sim.unread.length := by
  by_cases hd : sim.isDone = true
  · exact Nat.le_trans (Nat.le_of_eq (remaining_of_isDone hd)) (Nat.zero_le _)
  · exact Nat.le_of_eq (by rw [remaining_of_not_isDone hd, if_pos h])

/-- Every snapshot lowers the number of those to come. -/
theorem remaining_lt_of_next {sim after : Simulation} {state : State}
    (h : sim.next = (.snapshot state, after)) : after.remaining < sim.remaining := by
  have hle := sim.length_ahead_le
  unfold next at h
  by_cases hd : sim.isDone = true
  · rw [if_pos hd] at h
    cases h
  rw [if_neg hd] at h
  rw [remaining_of_not_isDone hd]
  by_cases hs : sim.started = true
  · rw [if_neg (by rw [hs]; decide)] at h
    rw [if_pos hs]
    split at h
    · cases h
    · rename_i c rest ha
      rw [ha, List.length_cons] at hle
      split at h
      · cases h
        rw [remaining_of_isDone (by rfl)]
        omega
      · split at h
        · cases h
        · cases h
          refine Nat.lt_of_le_of_lt (remaining_le_of_started hs) ?_
          show 1 + rest.length < 1 + sim.unread.length
          omega
  · rw [if_pos (by rw [Bool.not_eq_true] at hs; rw [hs]; decide)] at h
    rw [if_neg hs]
    cases h
    refine Nat.lt_of_le_of_lt (remaining_le_of_started rfl) ?_
    show 1 + sim.unread.length < 2 + sim.unread.length
    omega

/-- A run from now to its end. -/
structure Trace where
  /-- The snapshots delivered, in order. -/
  snapshots : List State := []
  /-- The failure that stopped the run, if one did. -/
  failure : Option StepError := none
  records : List Record := []
deriving DecidableEq, Repr

/-- Asks for snapshots until the run ends or an instruction fails. -/
def drain (sim : Simulation) : Trace :=
  match _h : sim.next with
  | (.ended, _) => { records := sim.nextRecords }
  | (.failed e, _) => { failure := some e, records := sim.nextRecords }
  | (.snapshot state, after) =>
    let rest := after.drain
    { rest with
      snapshots := state :: rest.snapshots
      records := sim.nextRecords ++ rest.records }
termination_by sim.remaining
decreasing_by exact remaining_lt_of_next _h

end Simulation

/-- Why a run breaks off. -/
inductive RunError where
  | literal (e : Numeral.TooLong)
  | step (e : StepError)
deriving DecidableEq, Repr

/-- The wording of the error. -/
def RunError.message : RunError → String
  | .literal e => e.message
  | .step e => e.message

/-- The snapshots of a program on a board. -/
def simulate (program : Text) (initial : State) (maxDepth maxSteps : Int) :
    Recorded (Except RunError (List State)) := do
  match ← Simulation.start program initial maxDepth maxSteps with
  | .error e => return .error (.literal e)
  | .ok sim =>
    let trace := sim.drain
    Recorded.log trace.records
    match trace.failure with
    | some e => return .error (.step e)
    | none => return .ok trace.snapshots

/-- The last snapshot of a program on a board. -/
def runToEnd (program : Text) (initial : State) (maxDepth maxSteps : Int) :
    Recorded (Except RunError (Option State)) := do
  return (← simulate program initial maxDepth maxSteps).map List.getLast?

end RobotMaze
