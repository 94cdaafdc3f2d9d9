import RobotMaze.Simulation
import RobotMaze.Text.Utf8

/-!
# Sessions

A session is one level and at most one run on it. Starting a program drops the current run and
begins from a fresh board; the state of the session is always that board or the last snapshot
delivered, so stopping early leaves a consistent board. A program whose expansion breaks off on a
numeral that is too long leaves the session as a reset does.

`Session.play` runs a program to its end. It can show every snapshot, and it can react once, when a
given number of steps is first seen, by cancelling, resetting or starting another program.
-/

namespace RobotMaze

/-- The size metric shown to players: the bytes of the program text. -/
def programSize (program : Text) : Nat := (Utf8.encode program).length

/-- A level and the run on it. -/
structure Session where
  level : Text
  size : Int
  maxDepth : Int
  maxSteps : Int
  state : State
  simulation : Option Simulation := none
deriving DecidableEq, Repr

/-- A level was asked for by a key that it does not have. -/
structure UnknownLevel where
  key : Text
deriving DecidableEq, Repr

/-- The wording of the error. -/
def UnknownLevel.message (e : UnknownLevel) : String := Text.quotedString e.key

namespace Session

/-- A new session on a level. -/
def new (level : Text) (size maxDepth maxSteps : Int) : Session :=
  { level, size, maxDepth, maxSteps, state := Level.newGame level size }

/-- A new session on the level that `levels` has under a key. -/
def load (levels : Text → Option Text) (key : Text) (size maxDepth maxSteps : Int) :
    Except UnknownLevel Session :=
  match levels key with
  | none => .error ⟨key⟩
  | some level => .ok (new level size maxDepth maxSteps)

/-- What building the board of a session leaves in the log. -/
def boardRecords (s : Session) : List Record := Level.newGameRecords s.level s.size

/-- Whether a run has snapshots to come. -/
def isRunning (s : Session) : Bool :=
  match s.simulation with
  | none => false
  | some sim => !sim.isDone

/-- Drops the run and builds a fresh board. -/
def reset (s : Session) : Session :=
  { s with simulation := none, state := Level.newGame s.level s.size }

/-- What beginning a run leaves in the log before the program is read. -/
def startRecords (s : Session) (program : Text) : List Record :=
  s.boardRecords ++ [⟨.debug, "session", s!"starting run: {programSize program} byte program"⟩]

/-- Begins a run of a program on a fresh board; nothing is applied before the first snapshot is
asked for. -/
def start (s : Session) (program : Text) : Recorded (Session × Option Numeral.TooLong) := do
  let fresh := s.reset
  Recorded.log (s.startRecords program)
  match ← Simulation.start program fresh.state s.maxDepth s.maxSteps with
  | .ok sim => return ({ fresh with simulation := some sim }, none)
  | .error e => return (fresh, some e)

/-- Asks the run for its next snapshot; without a run there is none. -/
def next (s : Session) : Delivery × Session :=
  match s.simulation with
  | none => (.ended, s)
  | some sim =>
    match sim.next with
    | (.snapshot state, after) => (.snapshot state, { s with state, simulation := some after })
    | (delivery, after) => (delivery, { s with simulation := some after })

/-- What asking for the next snapshot leaves in the log. -/
def nextRecords (s : Session) : List Record :=
  match s.simulation with
  | none => []
  | some sim => sim.nextRecords

/-- Stops the run before its next snapshot. -/
def cancel (s : Session) : Session := { s with simulation := s.simulation.map Simulation.cancel }

/-- A bound on the number of snapshots to come. -/
def remaining (s : Session) : Nat :=
  match s.simulation with
  | none => 0
  | some sim => sim.remaining

theorem remaining_lt_of_next {s after : Session} {state : State}
    (h : s.next = (.snapshot state, after)) : after.remaining < s.remaining := by
  unfold next at h
  split at h
  · simp at h
  · rename_i sim hsim
    split at h
    · rename_i hn
      simp only [Prod.mk.injEq, Delivery.snapshot.injEq] at h
      simpa [remaining, hsim, ← h.2] using Simulation.remaining_lt_of_next hn
    · rename_i other _
      simp only [Prod.mk.injEq] at h
      exact (other _ h.1).elim

/-- What a player does to the session while it plays. -/
inductive Action where
  | cancel
  | reset
  | start (program : Text)
deriving DecidableEq, Repr

/-- An action to take when a snapshot with this many steps is first seen. -/
structure Reaction where
  steps : Int
  action : Action
deriving DecidableEq, Repr

/-- Carries out an action. -/
def act (s : Session) : Action → Recorded (Session × Option Numeral.TooLong)
  | .cancel => return (s.cancel, none)
  | .reset => do
    Recorded.log s.boardRecords
    return (s.reset, none)
  | .start program => s.start program

/-- A played run. -/
structure Playback where
  /-- The session when play stopped. -/
  session : Session
  /-- The snapshots seen, in order. -/
  snapshots : List State := []
  /-- The error that play broke off with, if it did. -/
  failure : Option RunError := none
deriving DecidableEq, Repr

/-- A playback with a snapshot in front of those that it has. -/
def Playback.cons (state : State) (p : Playback) : Playback :=
  { p with snapshots := state :: p.snapshots }

/-- Plays the current run. `display` gives what is shown of a snapshot. -/
def playOn (display : State → List Event) (reaction : Option Reaction) (s : Session) :
    Recorded Playback :=
  match _h : s.next with
  | (.ended, after) => ⟨{ session := after }, s.nextRecords.map .log⟩
  | (.failed e, after) =>
    ⟨{ session := after, failure := some (.step e) }, s.nextRecords.map .log⟩
  | (.snapshot state, after) =>
    let seen := s.nextRecords.map .log ++ display state
    match _hr : reaction.filter (·.steps = state.steps) with
    | some r =>
      let acted := after.act r.action
      match acted.value with
      | (changed, some e) =>
        ⟨{ session := changed, snapshots := [state], failure := some (.literal e) },
          seen ++ acted.events⟩
      | (changed, none) =>
        if state.isOver then ⟨{ session := changed, snapshots := [state] }, seen ++ acted.events⟩
        else
          let rest := changed.playOn display none
          ⟨rest.value.cons state, seen ++ acted.events ++ .pause :: rest.events⟩
    | none =>
      if state.isOver then ⟨{ session := after, snapshots := [state] }, seen⟩
      else
        let rest := after.playOn display reaction
        ⟨rest.value.cons state, seen ++ .pause :: rest.events⟩
termination_by (reaction.isSome.toNat, s.remaining)
decreasing_by
  · rw [(Option.filter_eq_some_iff.1 _hr).1]
    exact .left _ _ (by simp)
  · exact .right _ (remaining_lt_of_next _h)

/-- Starts a program and plays it to its end, or until the reaction stops it. -/
def play (s : Session) (program : Text) (display : State → List Event)
    (reaction : Option Reaction) : Recorded Playback := do
  match ← s.start program with
  | (fresh, some e) => return { session := fresh, failure := some (.literal e) }
  | (started, none) => started.playOn display reaction

end Session

end RobotMaze
