import RobotMaze.Board.Level
import RobotMaze.Proofs.Board.Grid

/-!
# Boards of levels

A level is cut into lines, cut to size, translated cell by cell and filled up. This file says what
comes out, position by position: `Level.char?` is the character that the text has for a position,
and `cell?_grid` is the cell that the board has there. The board is square and holds cell codes
only, and the robot starts within it, on a cell that the robot mark has left empty if there is one.

Sizes are integers, and a negative size cuts from the end. The laws below are about the others.
-/

namespace RobotMaze

open Text

namespace Level

variable {text : Text} {size : Int}

/-- The character in column `x` of line `y` of a level, both counted from 0. -/
def char? (text : Text) (x y : Nat) : Option Char :=
  (splitLines (stripNewlines text))[y]?.bind (·[x]?)

/-- A robot mark stands among the characters that make cells of the board. -/
def Marked (text : Text) (size : Int) : Prop :=
  ∃ x y : Nat, (x : Int) < size ∧ (y : Int) < size ∧ char? text x y = some Cell.robotMark

/-! ### The window -/

theorem upTo_of_nonneg {α : Type} (h : 0 ≤ size) (l : List α) : upTo size l = l.take size.toNat :=
  if_pos h

theorem getElem?_upTo {α : Type} (h : 0 ≤ size) (l : List α) (i : Nat) :
    (upTo size l)[i]? = if (i : Int) < size then l[i]? else none := by
  rw [upTo_of_nonneg h, List.getElem?_take]
  by_cases hi : (i : Int) < size
  · rw [if_pos hi, if_pos (by omega)]
  · rw [if_neg hi, if_neg (by omega)]

/-- The window holds the characters of the level whose column and row are below the size. -/
theorem getElem?_window (h : 0 ≤ size) (x y : Nat) :
    ((window text size)[y]?.bind (·[x]?)) =
      if (x : Int) < size ∧ (y : Int) < size then char? text x y else none := by
  rw [window, List.getElem?_map, getElem?_upTo h, char?]
  by_cases hy : (y : Int) < size
  · cases hline : (splitLines (stripNewlines text))[y]? with
    | none => simp [hy]
    | some line => simp [hy, getElem?_upTo h]
  · simp [hy]

theorem mem_places_iff (h : 0 ≤ size) {place : Place} :
    place ∈ places text size ↔
      (place.x : Int) < size ∧ (place.y : Int) < size ∧
        char? text place.x place.y = some place.code := by
  have hmem : place ∈ places text size ↔
      ((window text size)[place.y]?.bind (·[place.x]?)) = some place.code := by
    obtain ⟨x, y, code⟩ := place
    simp only [places, List.mem_flatMap, List.mem_map, Prod.exists,
      List.mk_mem_zipIdx_iff_getElem?, Place.mk.injEq, Option.bind_eq_some_iff]
    constructor
    · rintro ⟨line, y', hline, code', x', hcode, rfl, rfl, rfl⟩
      exact ⟨line, hline, hcode⟩
    · rintro ⟨line, hline, hcode⟩
      exact ⟨line, y, hline, code, x, hcode, rfl, rfl, rfl⟩
  rw [hmem, getElem?_window h]
  split
  · rename_i hin
    simp [hin]
  · rename_i hin
    simp only [reduceCtorEq, false_iff]
    rintro ⟨hx, hy, -⟩
    exact hin ⟨hx, hy⟩

/-! ### The board -/

theorem getElem?_fill {α : Type} (filler : α) (l : List α) {i : Nat} (h : (i : Int) < size) :
    (fill size filler l)[i]? = some (l[i]?.getD filler) := by
  rw [fill]
  by_cases hi : i < l.length
  · rw [List.getElem?_append_left hi, List.getElem?_eq_getElem hi]
    rfl
  · rw [List.getElem?_append_right (by omega), List.getElem?_replicate_of_lt (by omega),
      List.getElem?_eq_none (by omega)]
    rfl

theorem length_fill {α : Type} (filler : α) {l : List α} (h : (l.length : Int) ≤ size) :
    ((fill size filler l).length : Int) = size := by
  rw [fill, List.length_append, List.length_replicate]
  omega

theorem length_upTo_le {α : Type} (h : 0 ≤ size) (l : List α) :
    ((upTo size l).length : Int) ≤ size := by
  rw [upTo_of_nonneg h, List.length_take]
  omega

theorem isSquare_grid (h : 0 ≤ size) : (grid text size).IsSquare size := by
  refine ⟨?_, fun row hrow => ?_⟩
  · rw [grid, length_fill]
    rw [List.length_map, window, List.length_map]
    exact length_upTo_le h _
  · rw [grid, fill, List.mem_append] at hrow
    rcases hrow with hrow | hrow
    · obtain ⟨line, hline, rfl⟩ := List.mem_map.1 hrow
      obtain ⟨whole, -, rfl⟩ := List.mem_map.1 hline
      rw [length_fill]
      rw [List.length_map]
      exact length_upTo_le h _
    · rw [List.eq_of_mem_replicate hrow, List.length_replicate]
      omega

theorem isCode_cellOf (c : Char) : Cell.isCode (cellOf c) = true := by
  rw [cellOf]
  split
  · assumption
  · rfl

/-- The board holds cell codes only. -/
theorem isCode_of_mem_grid : ∀ row ∈ grid text size, ∀ c ∈ row, Cell.isCode c = true := by
  intro row hrow c hc
  rw [grid, fill, List.mem_append] at hrow
  rcases hrow with hrow | hrow
  · obtain ⟨line, -, rfl⟩ := List.mem_map.1 hrow
    rcases List.mem_append.1 hc with hc | hc
    · obtain ⟨c, -, rfl⟩ := List.mem_map.1 hc
      exact isCode_cellOf c
    · rw [List.eq_of_mem_replicate hc, Cell.isCode_empty]
  · rw [List.eq_of_mem_replicate hrow] at hc
    rw [List.eq_of_mem_replicate hc, Cell.isCode_empty]

/-- **The board, cell by cell.** A cell is what the character of the level at its place stands for,
and empty if there is none. -/
theorem cell?_grid (h : 0 ≤ size) {x y : Nat} (hx : (x : Int) < size) (hy : (y : Int) < size) :
    (grid text size).cell? x y = some (((char? text x y).map cellOf).getD Cell.empty) := by
  have hchar : ((window text size)[y]?.bind (·[x]?)) = char? text x y := by
    rw [getElem?_window h, if_pos ⟨hx, hy⟩]
  refine Grid.cell?_eq_some_iff.2 ⟨Int.natCast_nonneg x, Int.natCast_nonneg y, _,
    getElem?_fill _ _ hy, ?_⟩
  simp only [List.getElem?_map, ← hchar, Int.toNat_natCast]
  cases (window text size)[y]? with
  | none =>
    have hlt : x < size.toNat := by omega
    exact List.getElem?_replicate_of_lt hlt
  | some line =>
    rw [Option.map_some, Option.getD_some, getElem?_fill _ _ hx, List.getElem?_map]
    rfl

/-! ### The start -/

/-- The robot starts where a robot mark stands, and in the first cell if no mark does. -/
theorem start_cases (h : 0 ≤ size) :
    (∃ x y : Nat, start text size = (x, y) ∧ (x : Int) < size ∧ (y : Int) < size ∧
      char? text x y = some Cell.robotMark) ∨ start text size = (0, 0) ∧ ¬Marked text size := by
  rw [start]
  split
  · rename_i place hlast
    obtain ⟨hmem, hcode⟩ := List.mem_filter.1 (List.mem_of_getLast? hlast)
    obtain ⟨hx, hy, hchar⟩ := (mem_places_iff h).1 hmem
    exact .inl ⟨place.x, place.y, rfl, hx, hy, hchar.trans (by simpa using hcode)⟩
  · rename_i hnone
    refine .inr ⟨rfl, ?_⟩
    rintro ⟨x, y, hx, hy, hchar⟩
    have hmem : (⟨x, y, Cell.robotMark⟩ : Place) ∈
        (places text size).filter (·.code = Cell.robotMark) :=
      List.mem_filter.2 ⟨(mem_places_iff h).2 ⟨hx, hy, hchar⟩, by simp⟩
    rw [List.getLast?_eq_none_iff.1 hnone] at hmem
    cases hmem

/-- The robot starts within the board. -/
theorem start_lt (h : 1 ≤ size) :
    ((start text size).1 : Int) < size ∧ ((start text size).2 : Int) < size := by
  obtain ⟨x, y, hstart, hx, hy, -⟩ | ⟨hstart, -⟩ := @start_cases text size (by omega)
  · rw [hstart]; exact ⟨hx, hy⟩
  · rw [hstart]; simp only; omega

/-- A robot mark leaves an empty cell to start on. -/
theorem cell?_start (h : 0 ≤ size) (hm : Marked text size) :
    (grid text size).cell? (start text size).1 (start text size).2 = some Cell.empty := by
  obtain ⟨x, y, hstart, hx, hy, hchar⟩ | ⟨-, hnone⟩ := @start_cases text size h
  · rw [hstart, cell?_grid h hx hy, hchar]
    rfl
  · exact (hnone hm).elim

end Level

end RobotMaze
