import RobotMaze.Proofs.Expansion.LongNumeral
import RobotMaze.Session

/-!
# Sessions forget their history

A session goes through runs one after the other, and each of them may be left in the middle: it may
be stopped, replaced by another one, reset, or never get started because its program breaks off.
This file shows that nothing of this is left when a program is started. What a session answers and
shows from then on depends on the level, the limits and that program alone.

## Operations

`Operation` is what a player can do to a session, and `perform` carries it out with the functions of
the session. An operation answers, hands out snapshots, and leads to another session. Playing a
program is one operation here, which hands out all snapshots of the run.

## Why it holds

All that a session is made of, besides the run and the board, are the level and the limits, and no
operation changes them. The short way to say so is that a reset leads from every session of a
history to the new session (`reset_performAll`). A start begins with a reset, so it cannot tell two
histories apart.

The board of a session is settled by the snapshots handed out since the last operation that began
with a reset: it is the last of them, or a fresh board if there is none (`Shows`). This too is an
invariant of single operations.

## Main results

* `reset_perform`, `Shows.perform` — one operation
* `reset_performAll`, `Shows.performAll` — any history
* `observe_start_eq` — what follows a start does not depend on the history before it
-/

namespace RobotMaze

/-- The snapshot of a delivery, if it has one. -/
def Delivery.snapshots : Delivery → List State
  | .ended => []
  | .snapshot state => [state]
  | .failed _ => []

namespace Session

variable {s after : Session} {state : State}

/-! ### Operations -/

/-- What a player can do to a session. -/
inductive Operation where
  | start (program : Text)
  | next
  | cancel
  | reset
  | play (program : Text)
deriving DecidableEq, Repr

/-- Whether an operation begins with a reset. -/
def Operation.restarts : Operation → Bool
  | .start _ => true
  | .next => false
  | .cancel => false
  | .reset => true
  | .play _ => true

/-- What an operation answers. -/
inductive Reply where
  /-- It is carried out, or there is no snapshot. -/
  | nothing
  | state (state : State)
  | failed (e : RunError)
deriving DecidableEq, Repr

/-- An operation that has been carried out. -/
structure Performed where
  reply : Reply
  /-- The snapshots handed out, in order. -/
  delivered : List State := []
  /-- The session after the operation. -/
  session : Session
deriving DecidableEq, Repr

/-- Carries out an operation. -/
def perform (s : Session) : Operation → Performed
  | .start program =>
    match (s.start program).value with
    | (started, none) => { reply := .nothing, session := started }
    | (fresh, some e) => { reply := .failed (.literal e), session := fresh }
  | .next =>
    match s.next with
    | (.ended, after) => { reply := .nothing, session := after }
    | (.snapshot state, after) => { reply := .state state, delivered := [state], session := after }
    | (.failed e, after) => { reply := .failed (.step e), session := after }
  | .cancel => { reply := .nothing, session := s.cancel }
  | .reset => { reply := .state s.reset.state, session := s.reset }
  | .play program =>
    let played := (s.play program (fun _ => []) none).value
    { reply := played.failure.elim (.state played.session.state) .failed
      delivered := played.snapshots
      session := played.session }

/-- The session after a history of operations. -/
def performAll (s : Session) (history : List Operation) : Session :=
  history.foldl (fun s op => (s.perform op).session) s

/-- The snapshots handed out since the last operation that began with a reset; `before` holds those
from before the history. -/
def shown (s : Session) (before : List State) : List Operation → List State
  | [] => before
  | op :: history =>
    (s.perform op).session.shown
      ((if op.restarts then [] else before) ++ (s.perform op).delivered) history

/-- What can be seen of a session after an operation. -/
structure Observation where
  reply : Reply
  state : State
  isRunning : Bool
  hasSimulation : Bool
deriving DecidableEq, Repr

/-- What can be seen of a session, operation by operation. -/
def observe (s : Session) : List Operation → List Observation
  | [] => []
  | op :: history =>
    let done := s.perform op
    ⟨done.reply, done.session.state, done.session.isRunning, done.session.simulation.isSome⟩ ::
      done.session.observe history

/-! ### Asking for a snapshot -/

theorem reset_of_next {delivery : Delivery} (h : s.next = (delivery, after)) :
    after.reset = s.reset := by
  rw [next] at h
  split at h
  · cases h
    rfl
  · split at h <;> cases h <;> rfl

/-- The board changes only by a snapshot that is handed out. -/
theorem state_of_next {delivery : Delivery} (h : s.next = (delivery, after)) :
    after.state = match delivery with | .snapshot state => state | _ => s.state := by
  rw [next] at h
  split at h
  · cases h
    rfl
  · split at h
    · cases h
      rfl
    · rename_i hother _
      cases h
      cases delivery with
      | snapshot state => exact (hother state rfl).elim
      | ended => rfl
      | failed e => rfl

/-! ### Starting -/

theorem value_start (s : Session) (program : Text) :
    (s.start program).value =
      match Simulation.ofProgram program s.reset.state s.maxDepth s.maxSteps with
      | .ok sim => ({ s.reset with simulation := some sim }, none)
      | .error e => (s.reset, some e) := by
  have hvalue : (Simulation.start program s.reset.state s.maxDepth s.maxSteps).value =
      Simulation.ofProgram program s.reset.state s.maxDepth s.maxSteps := rfl
  rw [start]
  simp only [Recorded.value_bind, hvalue]
  cases Simulation.ofProgram program s.reset.state s.maxDepth s.maxSteps <;> rfl

/-- A start leads to a reset session, with a run unless the program breaks off. -/
theorem start_cases (s : Session) (program : Text) :
    (∃ sim, (s.start program).value = ({ s.reset with simulation := some sim }, none)) ∨
      ∃ e, (s.start program).value = (s.reset, some e) := by
  rw [value_start]
  cases Simulation.ofProgram program s.reset.state s.maxDepth s.maxSteps with
  | ok sim => exact .inl ⟨sim, rfl⟩
  | error e => exact .inr ⟨e, rfl⟩

theorem start_reset (s : Session) (program : Text) : s.reset.start program = s.start program := rfl

/-! ### Playing -/

/-- **Induction along a played run.** Play asks for snapshots until there is none, one fails, or one
shows that the game is over. -/
theorem playOn_induction {display : State → List Event} {P : Session → Playback → Prop}
    (ended : ∀ s after, s.next = (.ended, after) → P s { session := after })
    (failed : ∀ s e after, s.next = (.failed e, after) →
      P s { session := after, failure := some (.step e) })
    (terminal : ∀ s state after, s.next = (.snapshot state, after) → state.isOver = true →
      P s { session := after, snapshots := [state] })
    (going : ∀ s state after played, s.next = (.snapshot state, after) → state.isOver = false →
      P after played → P s (played.cons state)) (s : Session) :
    P s (s.playOn display none).value := by
  induction hn : s.remaining using Nat.strongRecOn generalizing s with
  | _ n ih =>
    rw [playOn]
    split
    · rename_i after h
      exact ended s after h
    · rename_i e after h
      exact failed s e after h
    · rename_i state after h
      split
      · rename_i hr
        cases hr
      · by_cases ho : state.isOver = true
        · rw [if_pos ho]
          exact terminal s state after h ho
        · rw [if_neg ho]
          exact going s state after _ h (by simpa using ho)
            (ih _ (hn ▸ remaining_lt_of_next h) after rfl)

theorem reset_start (s : Session) (program : Text) :
    (s.start program).value.1.reset = s.reset := by
  obtain ⟨sim, h⟩ | ⟨e, h⟩ := s.start_cases program <;> rw [h] <;> rfl

theorem reset_of_act {action : Action} {e : Option Numeral.TooLong}
    (h : (s.act action).value = (after, e)) : after.reset = s.reset := by
  cases action with
  | cancel => cases h; rfl
  | reset => cases h; rfl
  | start program =>
    have hstart := s.reset_start program
    rwa [show (s.start program).value = (after, e) from h] at hstart

/-- A play changes neither the level nor the limits, even if it reacts to a snapshot. -/
theorem reset_playOn (display : State → List Event) (reaction : Option Reaction) (s : Session) :
    (s.playOn display reaction).value.session.reset = s.reset := by
  fun_induction playOn display reaction s with
  | case1 reaction s after h => exact reset_of_next h
  | case2 reaction s e after h => exact reset_of_next h
  | case3 reaction s state after h seen r hr acted changed e hacted =>
    exact (reset_of_act hacted).trans (reset_of_next h)
  | case4 reaction s state after h seen r hr acted changed hacted ho =>
    exact (reset_of_act hacted).trans (reset_of_next h)
  | case5 reaction s state after h seen r hr acted changed hacted ho rest ih =>
    exact ih.trans ((reset_of_act hacted).trans (reset_of_next h))
  | case6 reaction s state after h seen hr ho => exact reset_of_next h
  | case7 reaction s state after h seen hr ho rest ih => exact ih.trans (reset_of_next h)

theorem reset_play (s : Session) (program : Text) (display : State → List Event)
    (reaction : Option Reaction) :
    (s.play program display reaction).value.session.reset = s.reset := by
  rw [play, Recorded.value_bind]
  obtain ⟨sim, h⟩ | ⟨e, h⟩ := s.start_cases program
  · rw [h]
    exact reset_playOn display reaction _
  · rw [h]
    rfl

/-- Playing starts the program, and plays on unless it breaks off. -/
theorem play_cases (display : State → List Event) (s : Session) (program : Text) :
    (∃ sim, (s.play program display none).value =
        (playOn display none { s.reset with simulation := some sim }).value) ∨
      ∃ e, (s.play program display none).value =
        { session := s.reset, failure := some (.literal e) } := by
  rw [play]
  simp only [Recorded.value_bind]
  obtain ⟨sim, h⟩ | ⟨e, h⟩ := s.start_cases program
  · rw [h]
    exact .inl ⟨sim, rfl⟩
  · rw [h]
    exact .inr ⟨e, rfl⟩

/-! ### What a reset leads to -/

/-- **One operation.** It changes neither the level nor the limits, so that a reset after it leads
to the same session as a reset before it. -/
theorem reset_perform (s : Session) (op : Operation) :
    (s.perform op).session.reset = s.reset := by
  cases op with
  | start program =>
    obtain ⟨sim, h⟩ | ⟨e, h⟩ := s.start_cases program
    · rw [perform, h]
      rfl
    · rw [perform, h]
      rfl
  | next =>
    rw [perform]
    split <;> rename_i h <;> exact reset_of_next h
  | cancel => rfl
  | reset => rfl
  | play program => exact s.reset_play program _ none

/-- **Any history.** -/
theorem reset_performAll (s : Session) (history : List Operation) :
    (s.performAll history).reset = s.reset := by
  induction history generalizing s with
  | nil => rfl
  | cons op history ih => exact (ih _).trans (s.reset_perform op)

/-! ### What a session shows -/

/-- The board of the session is the last of these snapshots, or fresh if there is none. -/
def Shows (s : Session) (snapshots : List State) : Prop :=
  s.state = snapshots.getLast?.getD s.reset.state

/-- A session that has just been reset shows a fresh board, whether a run has begun or not. -/
theorem shows_reset (s : Session) (simulation : Option Simulation) :
    Shows { s.reset with simulation } [] := rfl

/-- A session shows the snapshot that it hands out, and without one what it showed before. -/
theorem Shows.next {snapshots : List State} {delivery : Delivery} (hs : s.Shows snapshots)
    (h : s.next = (delivery, after)) : after.Shows (snapshots ++ delivery.snapshots) := by
  have hstate := state_of_next h
  rw [Shows, reset_of_next h]
  cases delivery with
  | snapshot state => rw [Delivery.snapshots, List.getLast?_concat, hstate, Option.getD_some]
  | ended => rw [Delivery.snapshots, List.append_nil, hstate, hs]
  | failed e => rw [Delivery.snapshots, List.append_nil, hstate, hs]

theorem Shows.playOn {snapshots : List State} (hs : s.Shows snapshots)
    (display : State → List Event) :
    (s.playOn display none).value.session.Shows
      (snapshots ++ (s.playOn display none).value.snapshots) := by
  revert snapshots
  refine playOn_induction (P := fun s played => ∀ {snapshots}, s.Shows snapshots →
    played.session.Shows (snapshots ++ played.snapshots)) ?_ ?_ ?_ ?_ s
  · intro s after h snapshots hs
    exact hs.next h
  · intro s e after h snapshots hs
    exact hs.next h
  · intro s state after h _ snapshots hs
    exact hs.next h
  · intro s state after played h _ ih snapshots hs
    rw [Playback.cons, List.append_cons]
    exact ih (hs.next h)

/-- **One operation.** -/
theorem Shows.perform {snapshots : List State} (hs : s.Shows snapshots) (op : Operation) :
    (s.perform op).session.Shows
      ((if op.restarts then [] else snapshots) ++ (s.perform op).delivered) := by
  cases op with
  | start program =>
    obtain ⟨sim, h⟩ | ⟨e, h⟩ := s.start_cases program
    · rw [Session.perform, h]
      exact s.shows_reset (some sim)
    · rw [Session.perform, h]
      exact s.shows_reset none
  | next =>
    rw [Session.perform]
    split <;> rename_i h <;> exact hs.next h
  | cancel => exact (List.append_nil snapshots).symm ▸ hs
  | reset => exact s.shows_reset none
  | play program =>
    obtain ⟨sim, h⟩ | ⟨e, h⟩ := s.play_cases (fun _ => []) program
    · rw [Session.perform, h]
      exact (s.shows_reset (some sim)).playOn _
    · rw [Session.perform, h]
      exact s.shows_reset none

/-- **Any history.** -/
theorem Shows.performAll {snapshots : List State} (hs : s.Shows snapshots)
    (history : List Operation) : (s.performAll history).Shows (s.shown snapshots history) := by
  induction history generalizing s snapshots with
  | nil => exact hs
  | cons op history ih => exact ih (hs.perform op)

/-! ### Histories -/

/-- A start leads to the same from every session of a history as from the new session. -/
theorem perform_start_performAll (s : Session) (history : List Operation) (program : Text) :
    (s.performAll history).perform (.start program) = s.perform (.start program) := by
  rw [perform, perform, ← start_reset, reset_performAll, start_reset]

theorem observe_start (s : Session) (history : List Operation) (program : Text)
    (operations : List Operation) :
    (s.performAll history).observe (.start program :: operations) =
      s.observe (.start program :: operations) := by
  rw [observe, observe, perform_start_performAll]

/-- A start that fails leaves the session as a reset does. -/
theorem perform_start_of_failed {program : Text} {e : RunError}
    (h : (s.perform (.start program)).reply = .failed e) :
    (s.perform (.start program)).session = s.reset := by
  obtain ⟨sim, hstart⟩ | ⟨e', hstart⟩ := s.start_cases program
  · rw [perform, hstart] at h
    cases h
  · rw [perform, hstart]

/-- Being told that there is no snapshot leaves the board alone. -/
theorem state_perform_next (h : (s.perform .next).reply = .nothing) :
    (s.perform .next).session.state = s.state := by
  rw [perform] at h ⊢
  split at h
  · rename_i hnext
    exact state_of_next hnext
  · cases h
  · cases h

/-- **Sessions forget their history.** Whatever has been done to a session, starting a program and
going on from there gives the same answers, boards and runs as after anything else. Throughout, the
board is the last snapshot handed out since the last reset or start, and fresh if there is none;
being told that there is no snapshot, and cancelling, leave it alone; a start that fails leaves the
session as a reset does, with a fresh board and no run. -/
theorem observe_start_eq (level : Text) (size maxDepth maxSteps : Int) :
    let first := new level size maxDepth maxSteps
    let fresh := Level.newGame level size
    (∀ history₁ history₂ program operations,
      (first.performAll history₁).observe (.start program :: operations) =
        (first.performAll history₂).observe (.start program :: operations)) ∧
      ∀ history,
        let s := first.performAll history
        s.state = (first.shown [] history).getLast?.getD fresh ∧
          ((s.perform .next).reply = .nothing → (s.perform .next).session.state = s.state) ∧
          (s.perform .cancel).session.state = s.state ∧
          ∀ program e, (s.perform (.start program)).reply = .failed e →
            (s.perform (.start program)).session = (s.perform .reset).session ∧
              (s.perform .reset).session.state = fresh ∧
              (s.perform .reset).session.simulation = none := by
  intro first fresh
  refine ⟨fun history₁ history₂ program operations => ?_, fun history => ?_⟩
  · rw [observe_start, observe_start]
  intro s
  have hreset : s.reset = first := first.reset_performAll history
  refine ⟨?_, fun hnone => ?_, rfl, fun program e he => ⟨?_, ?_, rfl⟩⟩
  · have hfirst : first.Shows [] := first.shows_reset none
    have hshows : s.state = (first.shown [] history).getLast?.getD s.reset.state :=
      hfirst.performAll history
    rw [hreset] at hshows
    exact hshows
  · exact state_perform_next hnone
  · exact perform_start_of_failed he
  · exact congrArg state hreset

/-- A program that breaks off is started after another one has been played to its end. The session
is then as a new one, and a third program runs on it as if it were the first. -/
theorem observe_start_eq_broken :
    let first := new "o\nu".toList 2 9 9
    let s := first.performAll [.play "s".toList]
    let broken := s.perform (.start (longProgram 4301))
    broken.reply = .failed (.literal (.reading 4301)) ∧ broken.session = first ∧
      (first.perform .next).reply = .nothing ∧ (first.perform .next).session.state = first.state ∧
      (first.performAll [.play "s".toList, .start (longProgram 4301)]).observe
          [.start "lsr".toList, .next, .cancel, .next] =
        (first.performAll []).observe [.start "lsr".toList, .next, .cancel, .next] := by
  intro first s broken
  have hbreaks : Simulation.ofProgram (longProgram 4301) first.reset.state first.maxDepth
      first.maxSteps = .error (.reading 4301) :=
    Simulation.ofProgram_longProgram (by decide) _ (by decide) (by decide)
  have hreply : broken.reply = .failed (.literal (.reading 4301)) := by
    simp only [broken, s]
    rw [perform_start_performAll, perform, value_start, hbreaks]
  obtain ⟨hindependent, hhistory⟩ := observe_start_eq "o\nu".toList 2 9 9
  have hreset : s.reset = first := first.reset_performAll _
  refine ⟨hreply, ?_, rfl, ?_, hindependent _ _ _ _⟩
  · exact ((hhistory [.play "s".toList]).2.2.2 _ _ hreply).1.trans hreset
  · exact (hhistory []).2.1 rfl

end Session

end RobotMaze
