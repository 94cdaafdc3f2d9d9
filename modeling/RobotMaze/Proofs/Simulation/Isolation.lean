import RobotMaze.Proofs.Board.Memory
import RobotMaze.Proofs.Simulation.Completion
import RobotMaze.Proofs.Simulation.Effects

/-!
# Cancelling, and writing to boards that were handed over

Whoever drives a simulation holds boards that belong to it in some way: the one that it was made
for, and the snapshots that it has delivered. In this file the driver may do anything in any order:
ask for snapshots, cancel, and overwrite cells of the boards that it holds. The answers are those of
an undisturbed run, up to where it is cancelled.

## Boards in memory

With boards as values there would be nothing to show about writing to them. So all boards are kept
in one memory here (`Shared`). The simulation takes a copy of the board that it is made for, works
on that copy in place, and hands out copies of it. `Holds` is the invariant: the simulation is to be
seen in the memory, and its rows are its own. Each operation keeps it, and gives the answer that the
simulation as a value would give (`Holds.perform`).

## Cancelling

What is left is about values. A run that is asked some times and then cancelled has delivered the
first snapshots of the whole run, and answers every other question with its end
(`DeliversExactly.replies`).

## Main results

* `Shared.Holds.perform`, `Shared.Holds.performAll` — one operation, and any number of them
* `Simulation.DeliversExactly.replies` — the answers, with cancelling
* `Shared.replies_begin` — the answers, with cancelling and with writing
-/

namespace RobotMaze

/-- What the driver of a simulation can do. -/
inductive Operation where
  | next
  | cancel
  /-- Overwrites a cell of the board that the simulation was made for. -/
  | overwriteInitial (x y : Nat) (code : Char)
  /-- Overwrites a cell of the last snapshot delivered. -/
  | overwriteLast (x y : Nat) (code : Char)
deriving DecidableEq

namespace Operation

/-- How often a snapshot is asked for. -/
def questions (ops : List Operation) : Nat := ops.count .next

/-- How often a snapshot is asked for before the run is cancelled. -/
def questionsInTime (ops : List Operation) : Nat := questions (ops.takeWhile (· ≠ .cancel))

variable (ops : List Operation)

@[simp] theorem questions_cons_next : questions (.next :: ops) = questions ops + 1 :=
  List.count_cons_self

@[simp] theorem questions_cons_of_ne {op : Operation} (h : op ≠ .next) :
    questions (op :: ops) = questions ops :=
  List.count_cons_of_ne h

@[simp] theorem questionsInTime_cons_cancel : questionsInTime (.cancel :: ops) = 0 := rfl

theorem questionsInTime_cons_of_ne {op : Operation} (h : op ≠ .cancel) :
    questionsInTime (op :: ops) = questions (op :: ops.takeWhile (· ≠ .cancel)) := by
  rw [questionsInTime, List.takeWhile_cons_of_pos (by simpa using h)]

@[simp] theorem questionsInTime_cons_next :
    questionsInTime (.next :: ops) = questionsInTime ops + 1 := by
  rw [questionsInTime_cons_of_ne ops (by simp), questions_cons_next, questionsInTime]

end Operation

open Operation

/-! ### Boards of games -/

/-- No text changes the number of rows. -/
theorem State.length_grid_apply (s : State) (text : Text) :
    (s.apply text).1.grid.length = s.grid.length := by
  have hshape := congrArg List.length (s.shape_apply text)
  rwa [List.length_map, List.length_map] at hshape

/-! ### Simulations as values -/

namespace Simulation

variable {sim : Simulation}

/-- What an operation does to a simulation, and the answer if it asks for one. -/
def perform (sim : Simulation) : Operation → Option Delivery × Simulation
  | .next => (some sim.next.1, sim.next.2)
  | .cancel => (none, sim.cancel)
  | _ => (none, sim)

/-- The simulation after some operations. -/
def performAll (sim : Simulation) : List Operation → Simulation
  | [] => sim
  | op :: ops => (sim.perform op).2.performAll ops

/-- The answers to the questions among some operations. -/
def replies (sim : Simulation) : List Operation → List Delivery
  | [] => []
  | op :: ops => (sim.perform op).1.toList ++ (sim.perform op).2.replies ops

theorem performAll_append (sim : Simulation) (ops more : List Operation) :
    sim.performAll (ops ++ more) = (sim.performAll ops).performAll more := by
  induction ops generalizing sim with
  | nil => rfl
  | cons op ops ih => exact ih _

/-- What every operation keeps is kept by any number of them. -/
theorem performAll_induction {P : Simulation → Prop}
    (h : ∀ sim op, P sim → P (sim.perform op).2) (hsim : P sim) (ops : List Operation) :
    P (sim.performAll ops) := by
  induction ops generalizing sim with
  | nil => exact hsim
  | cons op ops ih => exact ih (h sim op hsim)

/-- No operation changes the instructions, the error or a run that is over or cancelled. -/
theorem perform_keeps (sim : Simulation) (op : Operation) :
    (sim.perform op).2.instructions = sim.instructions ∧ (sim.perform op).2.error = sim.error ∧
      (sim.isDone = true → (sim.perform op).2.isDone = true) ∧
      (sim.cancelled = true → (sim.perform op).2.cancelled = true) := by
  cases op with
  | next =>
    have hturn := sim.turn_next
    simp only [perform]
    generalize sim.next = r at hturn ⊢
    cases hturn with
    | done hd => exact ⟨rfl, rfl, id, id⟩
    | first hd | exhausted hd | limit hd | failed hd | applied hd =>
      exact ⟨rfl, rfl, fun h => absurd h (Bool.eq_false_iff.1 hd), id⟩
  | cancel => exact ⟨rfl, rfl, fun _ => Bool.or_true _, fun _ => rfl⟩
  | overwriteInitial | overwriteLast => exact ⟨rfl, rfl, id, id⟩

theorem replies_of_isDone (h : sim.isDone = true) (ops : List Operation) :
    sim.replies ops = List.replicate (questions ops) .ended := by
  induction ops generalizing sim with
  | nil => rfl
  | cons op ops ih =>
    have hafter := (sim.perform_keeps op).2.2.1 h
    rw [replies, ih hafter]
    cases op with
    | next =>
      have hnext : (sim.perform .next).1 = some .ended := by
        rw [perform, (Turn.done h).eq_next]
      simp [hnext, questions, List.replicate_succ]
    | cancel | overwriteInitial | overwriteLast => simp [perform, questions]

/-! ### Cancelling -/

theorem DeliversExactly.next_nil (h : sim.DeliversExactly []) :
    sim.next = (.ended, sim.next.2) ∧ sim.next.2.DeliversExactly [] := by
  have hanswer := h.answered 1
  rw [List.length_nil, Nat.zero_add, answers_succ] at hanswer
  have hnext : sim.next = (.ended, sim.next.2) := Prod.ext (List.cons.inj hanswer).1 rfl
  exact ⟨hnext, deliversExactly_of_isDone (isDone_of_ended hnext)⟩

theorem DeliversExactly.next_cons {state : State} {snapshots : List State}
    (h : sim.DeliversExactly (state :: snapshots)) :
    sim.next = (.snapshot state, sim.next.2) ∧ sim.next.2.DeliversExactly snapshots := by
  have hanswered : ∀ n, sim.next.1 :: sim.next.2.answers (snapshots.length + n) =
      .snapshot state :: (snapshots.map .snapshot ++ List.replicate n .ended) := by
    intro n
    rw [← answers_succ, ← Nat.add_right_comm]
    exact h.answered n
  have hnext : sim.next = (.snapshot state, sim.next.2) :=
    Prod.ext (List.cons.inj (hanswered 0)).1 rfl
  obtain ⟨hsnapshots, hfailure⟩ := drain_of_snapshot hnext
  refine ⟨hnext, ⟨?_, ?_, fun n => (List.cons.inj (hanswered n)).2, fun n hn => ?_⟩⟩
  · exact (List.cons.inj (hsnapshots.symm.trans h.drained)).2
  · exact hfailure.symm.trans h.unfailing
  · exact h.done (n + 1) (Nat.succ_lt_succ hn)

/-- **Cancelling.** The questions before the run is cancelled get its first snapshots, as long as
there are any, and every other question gets its end. -/
theorem DeliversExactly.replies {snapshots : List State} (h : sim.DeliversExactly snapshots)
    (ops : List Operation) :
    sim.replies ops = (snapshots.take (questionsInTime ops)).map .snapshot ++
      List.replicate (questions ops - min (questionsInTime ops) snapshots.length) .ended := by
  induction ops generalizing sim snapshots with
  | nil => simp [Simulation.replies, questionsInTime, questions]
  | cons op ops ih =>
    rw [Simulation.replies]
    cases op with
    | next =>
      rw [questions_cons_next, questionsInTime_cons_next]
      cases snapshots with
      | nil =>
        obtain ⟨hnext, hafter⟩ := h.next_nil
        rw [perform, hnext, ih hafter]
        simp [List.replicate_succ]
      | cons state snapshots =>
        obtain ⟨hnext, hafter⟩ := h.next_cons
        rw [perform, hnext, ih hafter, List.length_cons, Nat.add_min_add_right,
          Nat.add_sub_add_right, List.take_succ_cons]
        rfl
    | cancel =>
      have hcancel : sim.cancel.isDone = true := Bool.or_true _
      rw [perform, replies_of_isDone hcancel]
      simp
    | overwriteInitial x y code | overwriteLast x y code =>
      rw [questions_cons_of_ne ops (by simp), questionsInTime_cons_of_ne ops (by simp),
        questions_cons_of_ne _ (by simp)]
      exact ih h

/-! ### Boards of simulations -/

theorem length_grid_next (sim : Simulation) :
    sim.next.2.state.grid.length = sim.state.grid.length := by
  have hturn := sim.turn_next
  generalize sim.next = r at hturn ⊢
  cases hturn with
  | done | first | exhausted | limit => rfl
  | failed hd hs ha hm he | applied hd hs ha hm he =>
    rw [← State.length_grid_apply sim.state _, he]

theorem state_of_snapshot {state : State} {after : Simulation}
    (h : sim.next = (.snapshot state, after)) : after.state = state := by
  have hturn := sim.turn_next
  rw [h] at hturn
  cases hturn <;> rfl

/-- On a rectangular board nothing fails, and the board stays rectangular. -/
theorem rectangular_next (sim : Simulation) (h : sim.state.grid.IsRectangular) :
    (∀ e, sim.next.1 ≠ .failed e) ∧ sim.next.2.state.grid.IsRectangular := by
  have hturn := sim.turn_next
  generalize sim.next = r at hturn ⊢
  cases hturn with
  | done | first | exhausted | limit => exact ⟨by simp, h⟩
  | failed hd hs ha hm he =>
    have hok := (State.rectangular_apply h (isLetter_of_ahead ha)).1
    rw [he] at hok
    cases hok
  | applied hd hs ha hm he =>
    have hafter := (State.rectangular_apply h (isLetter_of_ahead ha)).2
    rw [he] at hafter
    exact ⟨by simp, hafter⟩

/-- The simulation is made for a board, to play instructions or a program on it. -/
inductive MadeFor (initial : State) : Simulation → Prop
  | ofInstructions (instructions : Text) (maxSteps : Int) :
    MadeFor initial (.ofInstructions instructions initial maxSteps)
  | start {program : Text} {maxDepth maxSteps : Int} {sim : Simulation}
    (h : (start program initial maxDepth maxSteps).value = .ok sim) : MadeFor initial sim

theorem grid_of_ofExpansion {initial : State} {maxSteps : Int}
    {expansion : Except ExpansionError (List Instruction)}
    (h : ofExpansion initial maxSteps expansion = .ok sim) : sim.state.grid = initial.grid := by
  rcases expansion with (e | e) | instructions <;> cases h <;> rfl

theorem MadeFor.grid_eq {initial : State} (h : MadeFor initial sim) :
    sim.state.grid = initial.grid := by
  cases h with
  | ofInstructions => rfl
  | start h => exact grid_of_ofExpansion h

end Simulation

/-! ### Simulations in memory -/

/-- A simulation whose board is in memory. -/
structure StoredSimulation where
  /-- All that is not in memory; the state in it is not looked at. -/
  bare : Simulation
  state : StoredState

/-- The simulation that is to be seen in a memory. -/
def StoredSimulation.view (s : StoredSimulation) (m : Memory) : Simulation :=
  { s.bare with state := s.state.view m }

/-- A simulation and the boards that its driver holds, in one memory. -/
structure Shared where
  memory : Memory
  /-- The board that the simulation was made for. -/
  initial : StoredState
  simulation : StoredSimulation
  /-- The last snapshot delivered. -/
  last : Option StoredState := none

namespace Shared

/-- The simulation as it is to be seen now. -/
def current (w : Shared) : Simulation := w.simulation.view w.memory

/-- A simulation that is made for a board in memory. It has a copy of that board. -/
def begin (m : Memory) (initial : StoredState) (sim : Simulation) : Shared :=
  let (copy, memory) := initial.copy m
  { memory, initial, simulation := ⟨sim, { copy with bare := sim.state }⟩ }

/-- The simulation goes on, and writes to its board in place. -/
def update (w : Shared) (after : Simulation) : Shared :=
  { w with
    memory := w.memory.store w.simulation.state.rows after.state.grid
    simulation := ⟨after, { w.simulation.state with bare := after.state }⟩ }

/-- Hands out a copy of the board of the simulation; the answer is what is to be seen of it. -/
def deliver (w : Shared) : Delivery × Shared :=
  let (copy, memory) := w.simulation.state.copy w.memory
  (.snapshot (copy.view memory), { w with memory, last := some copy })

/-- What an operation does, and the answer if it asks for one. -/
def perform (w : Shared) : Operation → Option Delivery × Shared
  | .next =>
    match w.current.next with
    | (.snapshot _, after) => (some (w.update after).deliver.1, (w.update after).deliver.2)
    | (answer, after) => (some answer, w.update after)
  | .cancel =>
    (none, { w with simulation := { w.simulation with bare := w.simulation.bare.cancel } })
  | .overwriteInitial x y code =>
    (none, { w with memory := w.memory.overwrite w.initial.rows x y code })
  | .overwriteLast x y code =>
    match w.last with
    | some last => (none, { w with memory := w.memory.overwrite last.rows x y code })
    | none => (none, w)

/-- All that is there after some operations. -/
def performAll (w : Shared) : List Operation → Shared
  | [] => w
  | op :: ops => (w.perform op).2.performAll ops

/-- The answers to the questions among some operations. -/
def replies (w : Shared) : List Operation → List Delivery
  | [] => []
  | op :: ops => (w.perform op).1.toList ++ (w.perform op).2.replies ops

variable {w : Shared} {sim : Simulation}

/-- The simulation is to be seen in the memory, and no row of its board is in a board that the
driver holds. -/
structure Holds (w : Shared) (sim : Simulation) : Prop where
  current : w.current = sim
  allocated : ∀ a ∈ w.simulation.state.rows, a < w.memory.length
  distinct : w.simulation.state.rows.Nodup
  own : ∀ a ∈ w.simulation.state.rows, a ∉ w.initial.rows ∧ ∀ last ∈ w.last, a ∉ last.rows

namespace Holds

/-- Writing to rows that are not those of the simulation does not change it. -/
theorem overwrite (h : w.Holds sim) {rows : List Nat}
    (hrows : ∀ a ∈ w.simulation.state.rows, a ∉ rows) (x y : Nat) (code : Char) :
    Holds { w with memory := w.memory.overwrite rows x y code } sim := by
  have hboard : (w.memory.overwrite rows x y code).board w.simulation.state.rows =
      w.memory.board w.simulation.state.rows :=
    Memory.board_congr fun a ha =>
      Memory.getElem?_overwrite_of_notMem w.memory x y code (hrows a ha)
  refine ⟨?_, ?_, h.distinct, h.own⟩
  · rw [← h.current]
    simp only [Shared.current, StoredSimulation.view, StoredState.view, hboard]
  · intro a ha
    rw [Memory.length_overwrite]
    exact h.allocated a ha

/-- **Writing in place.** -/
theorem update (h : w.Holds sim) {after : Simulation}
    (hlength : after.state.grid.length = sim.state.grid.length) :
    (w.update after).Holds after := by
  have hrows : after.state.grid.length = w.simulation.state.rows.length := by
    rw [hlength, ← h.current]
    exact List.length_map _
  refine ⟨?_, ?_, h.distinct, h.own⟩
  · simp only [Shared.current, Shared.update, StoredSimulation.view, StoredState.view,
      Memory.board_store h.allocated h.distinct hrows]
  · intro a ha
    simp only [Shared.update, Memory.length_store]
    exact h.allocated a ha

/-- **Delivering.** A snapshot shows the state of the simulation, on rows of its own. -/
theorem deliver (h : w.Holds sim) :
    w.deliver.1 = .snapshot sim.state ∧ w.deliver.2.Holds sim := by
  have hboard := Memory.board_append (w.memory.board w.simulation.state.rows) h.allocated
  refine ⟨?_, ?_, ?_, h.distinct, ?_⟩
  · rw [← h.current]
    exact congrArg Delivery.snapshot (w.simulation.state.view_copy w.memory)
  · rw [← h.current]
    simp only [Shared.current, Shared.deliver, StoredState.copy, Memory.allocate,
      StoredSimulation.view, StoredState.view, hboard]
  · intro a ha
    have := h.allocated a ha
    simp only [Shared.deliver, StoredState.copy, Memory.allocate, List.length_append]
    omega
  · intro a ha
    refine ⟨(h.own a ha).1, fun last hlast => ?_⟩
    obtain rfl : (w.simulation.state.copy w.memory).1 = last := Option.some.inj hlast
    exact Memory.not_mem_allocate _ (h.allocated a ha)

/-- **One operation.** The answer is that of the simulation as a value, and the simulation stays its
own. -/
theorem perform (h : w.Holds sim) (op : Operation) :
    (w.perform op).1 = (sim.perform op).1 ∧ (w.perform op).2.Holds (sim.perform op).2 := by
  cases op with
  | next =>
    have hlength := sim.length_grid_next
    simp only [Shared.perform, Simulation.perform, h.current]
    cases hnext : sim.next with
    | mk answer after =>
      rw [hnext] at hlength
      cases answer with
      | ended | failed => exact ⟨rfl, h.update hlength⟩
      | snapshot state =>
        obtain ⟨hanswer, hafter⟩ := (h.update hlength).deliver
        rw [Simulation.state_of_snapshot hnext] at hanswer
        exact ⟨congrArg some hanswer, hafter⟩
  | cancel =>
    refine ⟨rfl, ?_, h.allocated, h.distinct, h.own⟩
    rw [← h.current]
    rfl
  | overwriteInitial x y code =>
    exact ⟨rfl, h.overwrite (fun a ha => (h.own a ha).1) x y code⟩
  | overwriteLast x y code =>
    rw [Shared.perform]
    split
    · rename_i last hlast
      exact ⟨rfl, h.overwrite (fun a ha => (h.own a ha).2 last hlast) x y code⟩
    · exact ⟨rfl, h⟩

/-- **Any number of operations.** -/
theorem performAll (h : w.Holds sim) (ops : List Operation) :
    w.replies ops = sim.replies ops ∧ (w.performAll ops).Holds (sim.performAll ops) := by
  induction ops generalizing w sim with
  | nil => exact ⟨rfl, h⟩
  | cons op ops ih =>
    obtain ⟨hanswer, hafter⟩ := h.perform op
    obtain ⟨hreplies, hall⟩ := ih hafter
    refine ⟨?_, hall⟩
    rw [Shared.replies, Simulation.replies, hanswer, hreplies]

end Holds

/-- A simulation starts on rows of its own. -/
theorem holds_begin {m : Memory} {initial : StoredState}
    (hrows : ∀ a ∈ initial.rows, a < m.length)
    (hgrid : sim.state.grid = (initial.view m).grid) : (begin m initial sim).Holds sim := by
  refine ⟨?_, fun a ha => Memory.lt_of_mem_allocate ha, Memory.nodup_allocate _ _, ?_⟩
  · simp only [Shared.current, begin, StoredState.copy, StoredSimulation.view, StoredState.view,
      Memory.board_allocate]
    rw [show m.board initial.rows = sim.state.grid from hgrid.symm]
  · intro a ha
    refine ⟨fun hinitial => ?_, by simp [begin]⟩
    exact Memory.not_mem_allocate _ (hrows a hinitial) ha

-- A simulation that had the rows of the initial board would see what is written there.
example (sim : Simulation) (bare : State) :
    let w : Shared := ⟨[['.'], ['.']], ⟨[0, 1], bare⟩, ⟨sim, ⟨[0, 1], bare⟩⟩, none⟩
    (w.performAll [.overwriteInitial 0 1 '*']).current.state.grid = [['.'], ['*']] := rfl

/-- **Cancelling and writing, in any order.** Let a simulation be made for a rectangular board in
memory, and let `t` be all the snapshots of an undisturbed run. Whatever is done, in whatever order,
the questions before the first cancelling get the first snapshots of `t` as long as there are any,
and every other question gets the end of the run. The instructions and the error stay the same, and
a run that is over or cancelled stays so. -/
theorem replies_begin (m : Memory) (initial : StoredState)
    (hrows : ∀ a ∈ initial.rows, a < m.length) (hgrid : (initial.view m).grid.IsRectangular)
    (hsim : Simulation.MadeFor (initial.view m) sim) :
    ∃ t, sim.DeliversExactly t ∧ ∀ ops,
      (begin m initial sim).replies ops = (t.take (questionsInTime ops)).map .snapshot ++
        List.replicate (questions ops - min (questionsInTime ops) t.length) .ended ∧
      ((begin m initial sim).performAll ops).current.instructions = sim.instructions ∧
      ((begin m initial sim).performAll ops).current.error = sim.error ∧
      ∀ more,
        (((begin m initial sim).performAll ops).current.isDone = true →
          ((begin m initial sim).performAll (ops ++ more)).current.isDone = true) ∧
        (((begin m initial sim).performAll ops).current.cancelled = true →
          ((begin m initial sim).performAll (ops ++ more)).current.cancelled = true) := by
  have hholds := holds_begin hrows hsim.grid_eq
  have hall : ∀ ops, ((begin m initial sim).performAll ops).current = sim.performAll ops :=
    fun ops => (hholds.performAll ops).2.current
  have hrectangular : sim.state.grid.IsRectangular := hsim.grid_eq ▸ hgrid
  obtain ⟨t, ht, -⟩ := Simulation.exists_deliversExactly Simulation.rectangular_next hrectangular
  refine ⟨t, ht, fun ops => ⟨?_, ?_, ?_, fun more => ⟨fun h => ?_, fun h => ?_⟩⟩⟩
  · rw [(hholds.performAll ops).1]
    exact ht.replies ops
  · rw [hall]
    exact Simulation.performAll_induction (P := (·.instructions = sim.instructions))
      (fun s op h => (s.perform_keeps op).1.trans h) rfl ops
  · rw [hall]
    exact Simulation.performAll_induction (P := (·.error = sim.error))
      (fun s op h => (s.perform_keeps op).2.1.trans h) rfl ops
  · rw [hall] at h ⊢
    rw [Simulation.performAll_append]
    exact Simulation.performAll_induction (P := (·.isDone = true))
      (fun s op => (s.perform_keeps op).2.2.1) h more
  · rw [hall] at h ⊢
    rw [Simulation.performAll_append]
    exact Simulation.performAll_induction (P := (·.cancelled = true))
      (fun s op => (s.perform_keeps op).2.2.2) h more

/-- Two rows of the board are one row in memory. It is overwritten with a bomb between the steps,
and so is the first snapshot; the third question comes after cancelling. -/
theorem replies_begin_bomb :
    let m : Memory := [['o'], ['.']]
    let robot : Robot := ⟨0, 2, .up⟩
    let bare : State := ⟨[], robot, robot, 2, 0, false, false, "", 0, .running⟩
    let initial : StoredState := ⟨[0, 0, 1], bare⟩
    let sim := Simulation.ofInstructions "ss".toList (initial.view m) 9
    let ops := [.next, .overwriteLast 0 1 '*', .overwriteInitial 0 1 '*', .next, .cancel, .next]
    (∀ a ∈ initial.rows, a < m.length) ∧ (initial.view m).grid.IsRectangular ∧
      Simulation.MadeFor (initial.view m) sim ∧
      (initial.view ((begin m initial sim).performAll ops).memory).grid = [['*'], ['*'], ['.']] ∧
      ∃ t, sim.DeliversExactly t ∧ (begin m initial sim).replies ops =
        (t.take 2).map .snapshot ++ List.replicate (3 - min 2 t.length) .ended := by
  intro m robot bare initial sim ops
  have hrows : ∀ a ∈ initial.rows, a < m.length := by decide
  have hgrid : (initial.view m).grid.IsRectangular := by
    unfold Grid.IsRectangular
    decide
  have hsim : Simulation.MadeFor (initial.view m) sim := .ofInstructions _ _
  obtain ⟨t, ht, hops⟩ := replies_begin m initial hrows hgrid hsim
  exact ⟨hrows, hgrid, hsim, by decide, t, ht, (hops ops).1⟩

end Shared

end RobotMaze
