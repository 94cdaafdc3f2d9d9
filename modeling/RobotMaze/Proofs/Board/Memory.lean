import RobotMaze.Board.State

/-!
# Boards in memory

A board is a value, and nobody can change a value that somebody else holds. Where the rows of boards
are kept in memory and written in place, that has to be arranged: two boards may have a row in
common, and then a cell that is overwritten in one of them changes in the other.

Here the rows of all boards are in one memory, and a state holds the addresses of its rows. Copying
a state takes new rows for it, and that is the whole arrangement: new rows are in no board that was
there before (`not_mem_allocate`), a cell is overwritten through a board that has its row and
through no other (`getElem?_overwrite_of_notMem`), and a board that has no row twice holds what is
written to it (`board_store`).
-/

namespace RobotMaze

/-- Memory for rows of cells. The address of a row is its place in the list, and no row is ever
given back. -/
abbrev Memory := List (List Char)

namespace Memory

variable {m m' : Memory} {rows : List Nat} {a : Nat}

/-- The board that has its rows at the given addresses. -/
def board (m : Memory) (rows : List Nat) : Grid := rows.map fun a => m[a]?.getD []

/-- Takes new rows for a board, and gives their addresses. -/
def allocate (m : Memory) (g : Grid) : Memory × List Nat :=
  (m ++ g, List.range' m.length g.length)

/-- Writes the rows of a board to the given addresses. -/
def store (m : Memory) : List Nat → Grid → Memory
  | [], _ => m
  | _ :: _, [] => m
  | a :: rows, row :: g => List.set (m.store rows g) a row

/-- Overwrites the cell at column `x` of row `y` of the board that has the given rows. -/
def overwrite (m : Memory) (rows : List Nat) (x y : Nat) (code : Char) : Memory :=
  match rows[y]? with
  | some a => m.modify a (List.set · x code)
  | none => m

/-- A board depends on its rows only. -/
theorem board_congr (h : ∀ a ∈ rows, m'[a]? = m[a]?) : m'.board rows = m.board rows :=
  List.map_congr_left fun a ha => by rw [h a ha]

/-! ### New rows -/

theorem board_allocate (m : Memory) (g : Grid) :
    (m.allocate g).1.board (m.allocate g).2 = g := by
  refine List.ext_getElem? fun i => ?_
  rw [allocate, board, List.getElem?_map]
  by_cases hi : i < g.length
  · rw [List.getElem?_range' hi, Nat.one_mul, Option.map_some,
      List.getElem?_append_right (Nat.le_add_right _ _), Nat.add_sub_cancel_left,
      List.getElem?_eq_getElem hi, Option.getD_some]
  · rw [List.getElem?_eq_none (by simpa using hi), List.getElem?_eq_none (by simpa using hi),
      Option.map_none]

/-- New rows leave the others as they are. -/
theorem board_append (g : Grid) (h : ∀ a ∈ rows, a < m.length) :
    Memory.board (m ++ g) rows = m.board rows :=
  board_congr fun a ha => List.getElem?_append_left (h a ha)

/-- New rows are at new addresses. -/
theorem not_mem_allocate (g : Grid) (h : a < m.length) : a ∉ (m.allocate g).2 := by
  intro ha
  have := (List.mem_range'_1.1 ha).1
  omega

theorem lt_of_mem_allocate {g : Grid} (h : a ∈ (m.allocate g).2) :
    a < (m.allocate g).1.length := by
  rw [allocate, List.length_append]
  exact (List.mem_range'_1.1 h).2

theorem nodup_allocate (m : Memory) (g : Grid) : (m.allocate g).2.Nodup := List.nodup_range' 1

/-! ### Writing in place -/

@[simp] theorem length_store (m : Memory) (rows : List Nat) (g : Grid) :
    (m.store rows g).length = m.length := by
  induction rows generalizing g with
  | nil => rw [store]
  | cons a rows ih =>
    cases g with
    | nil => rfl
    | cons row g => rw [store, List.length_set, ih]

/-- **Read after write.** A board with rows of its own holds what is written to it. -/
theorem board_store {g : Grid} (hrows : ∀ a ∈ rows, a < m.length) (hdistinct : rows.Nodup)
    (hlength : g.length = rows.length) : (m.store rows g).board rows = g := by
  induction rows generalizing g with
  | nil => exact (List.eq_nil_of_length_eq_zero hlength).symm
  | cons a rows ih =>
    cases g with
    | nil => cases hlength
    | cons row g =>
      obtain ⟨ha, hrest⟩ := List.nodup_cons.1 hdistinct
      have htail : (m.store rows g).board rows = g :=
        ih (fun b hb => hrows b (List.mem_cons_of_mem a hb)) hrest (Nat.succ.inj hlength)
      have hsame : Memory.board (List.set (m.store rows g) a row) rows = g := by
        refine (board_congr fun b hb => List.getElem?_set_ne ?_).trans htail
        rintro rfl
        exact ha hb
      have hlt : a < (m.store rows g).length := by
        rw [length_store]
        exact hrows a List.mem_cons_self
      rw [board, store, List.map_cons, List.getElem?_set_self hlt]
      exact congrArg (row :: ·) hsame

@[simp] theorem length_overwrite (m : Memory) (rows : List Nat) (x y : Nat) (code : Char) :
    (m.overwrite rows x y code).length = m.length := by
  rw [overwrite]
  split
  · exact List.length_modify ..
  · rfl

theorem getElem?_overwrite_of_notMem (m : Memory) (x y : Nat) (code : Char) (h : a ∉ rows) :
    (m.overwrite rows x y code)[a]? = m[a]? := by
  rw [overwrite]
  split
  · rename_i b hb
    have hne : b ≠ a := fun heq => h (heq ▸ List.mem_of_getElem? hb)
    exact List.getElem?_modify_ne _ _ hne
  · rfl

end Memory

/-- A state whose board is in memory. -/
structure StoredState where
  /-- The addresses of the rows. -/
  rows : List Nat
  /-- All that is not in memory; the board in it is not looked at. -/
  bare : State
deriving DecidableEq

namespace StoredState

/-- The state that is to be seen in a memory. -/
def view (s : StoredState) (m : Memory) : State := { s.bare with grid := m.board s.rows }

/-- A copy of the state with rows of its own, and the memory with these rows. -/
def copy (s : StoredState) (m : Memory) : StoredState × Memory :=
  let (m', rows) := m.allocate (m.board s.rows)
  ({ s with rows }, m')

/-- A copy shows what the state shows. -/
theorem view_copy (s : StoredState) (m : Memory) : (s.copy m).1.view (s.copy m).2 = s.view m := by
  rw [view, view, copy]
  simp only [Memory.board_allocate]

end StoredState

end RobotMaze
