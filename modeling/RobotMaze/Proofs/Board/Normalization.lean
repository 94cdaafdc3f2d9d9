import RobotMaze.Proofs.Board.Level
import RobotMaze.Proofs.Text.Joined

/-!
# Boards as levels

A board can be written down as a level: its rows, one line for each. Building the board of that
level gives the board back, and so a board that comes from a level is its own normal form. The start
is not on the board; it comes back too if the robot mark is written into its cell, as long as that
cell is empty.

Writing a board down is safe because of what its cells are. No cell is a line break, so the lines of
the level are the rows of the board and not parts of them, and no row is lost at either end. All
rows have the size of the board, so nothing is cut off and nothing filled up. This needs a size of
at least one: the rows of a board without columns are empty lines, and empty lines at the ends of a
level do not count.

## Main results

* `Level.grid_toText`, `Level.char?_toText` — what is built from a board that is written down
* `Level.normal_form` — boards of levels
-/

namespace RobotMaze

open Text

/-! ### Boards as text -/

/-- The rows of a board, one line for each. -/
def Grid.toText (g : Grid) : Text := List.intercalate ['\n'] g

/-- The characters of boards, and the robot mark, are no line breaks. -/
theorem Cell.isLineBreak_eq_false {c : Char} (h : isCode c = true ∨ c = robotMark) :
    isLineBreak c = false := by
  have hbounds : 0x2A ≤ c.toNat ∧ c.toNat ≤ 0x75 := by
    rcases h with h | rfl
    · have hcode := toNat_bounds h
      omega
    · decide
  simp only [isLineBreak, Bool.or_eq_false_iff, Bool.and_eq_false_iff, decide_eq_false_iff_not,
    beq_eq_false_iff_ne]
  omega

namespace Level

variable {g : Grid} {size : Int}

theorem fill_of_length {α : Type} (filler : α) {l : List α} (h : (l.length : Int) = size) :
    fill size filler l = l := by
  rw [fill, h, Int.sub_self]
  exact List.append_nil l

theorem upTo_of_length {α : Type} {l : List α} (h : (l.length : Int) = size) :
    upTo size l = l := by
  rw [upTo_of_nonneg (by omega), List.take_of_length_le (by omega)]

/-- The lines of a board that is written down are its rows. -/
theorem lines_toText (h : 1 ≤ size) (hg : g.IsSquare size)
    (hbreak : ∀ row ∈ g, ∀ c ∈ row, isLineBreak c = false) :
    splitLines (stripNewlines g.toText) = g := by
  have hne : ∀ row ∈ g, row ≠ [] := by
    rintro row hrow rfl
    have := hg.columns [] hrow
    simp only [List.length_nil] at this
    omega
  rw [Grid.toText, stripNewlines_joined hne hbreak, splitLines_joined_of_ne_nil hne hbreak]

/-- The characters of a board that is written down are its cells. -/
theorem char?_toText (h : 1 ≤ size) (hg : g.IsSquare size)
    (hbreak : ∀ row ∈ g, ∀ c ∈ row, isLineBreak c = false) (x y : Nat) :
    char? g.toText x y = g.cell? x y := by
  rw [char?, lines_toText h hg hbreak, Grid.cell?, if_pos ⟨by omega, by omega⟩]
  rfl

/-- **Building the board again** translates its cells, and does nothing else. -/
theorem grid_toText (h : 1 ≤ size) (hg : g.IsSquare size)
    (hbreak : ∀ row ∈ g, ∀ c ∈ row, isLineBreak c = false) :
    grid g.toText size = g.map (·.map cellOf) := by
  have hwindow : window g.toText size = g := by
    rw [window, lines_toText h hg hbreak, upTo_of_length hg.rows]
    refine (List.map_congr_left fun row hrow => ?_).trans g.map_id
    exact upTo_of_length (hg.columns row hrow)
  have hrows : g.map (fun row => fill size Cell.empty (row.map cellOf)) = g.map (·.map cellOf) := by
    refine List.map_congr_left fun row hrow => fill_of_length _ ?_
    rw [List.length_map]
    exact hg.columns row hrow
  rw [grid, hwindow, hrows, fill_of_length]
  rw [List.length_map]
  exact hg.rows

/-- Cells stand for themselves. -/
theorem map_cellOf (hg : ∀ row ∈ g, ∀ c ∈ row, Cell.isCode c = true) :
    g.map (·.map cellOf) = g := by
  refine (List.map_congr_left fun row hrow => ?_).trans g.map_id
  refine (List.map_congr_left fun c hc => ?_).trans row.map_id
  exact if_pos (hg row hrow c hc)

theorem cell?_ne_robotMark {x y : Int} (hg : ∀ row ∈ g, ∀ c ∈ row, Cell.isCode c = true) :
    g.cell? x y ≠ some Cell.robotMark := by
  intro hcell
  obtain ⟨-, -, row, hrow, hc⟩ := Grid.cell?_eq_some_iff.1 hcell
  have hcode := hg row (List.mem_of_getElem? hrow) _ (List.mem_of_getElem? hc)
  exact Cell.ne_robotMark_of_isCode hcode rfl

/-! ### Normal forms -/

variable {text : Text}

/-- **A board is its own normal form**, and without a robot mark the robot starts in the first
cell. -/
theorem build_toText (h : 1 ≤ size) (hg : g.IsSquare size)
    (hcodes : ∀ row ∈ g, ∀ c ∈ row, Cell.isCode c = true) :
    grid g.toText size = g ∧ start g.toText size = (0, 0) := by
  have hbreak : ∀ row ∈ g, ∀ c ∈ row, isLineBreak c = false := fun row hrow c hc =>
    Cell.isLineBreak_eq_false (.inl (hcodes row hrow c hc))
  refine ⟨(grid_toText h hg hbreak).trans (map_cellOf hcodes), ?_⟩
  rcases start_cases (show 0 ≤ size by omega) with ⟨x, y, -, -, -, hchar⟩ | ⟨hstart, -⟩
  · rw [char?_toText h hg hbreak] at hchar
    exact absurd hchar (cell?_ne_robotMark hcodes)
  · exact hstart

/-- **The start comes back** with a robot mark on an empty cell. -/
theorem build_marked {x y : Nat} (h : 1 ≤ size) (hg : g.IsSquare size)
    (hcodes : ∀ row ∈ g, ∀ c ∈ row, Cell.isCode c = true) (hxy : g.cell? x y = some Cell.empty) :
    grid (Grid.toText (g.set x y Cell.robotMark)) size = g ∧
      start (Grid.toText (g.set x y Cell.robotMark)) size = (x, y) := by
  have hmarked : (g.set x y Cell.robotMark).IsSquare size := hg.set _ _ _
  have hbreak : ∀ row ∈ g.set x y Cell.robotMark, ∀ c ∈ row, isLineBreak c = false :=
    Grid.forall_mem_set
      (fun row hrow c hc => Cell.isLineBreak_eq_false (.inl (hcodes row hrow c hc)))
      (Cell.isLineBreak_eq_false (.inr rfl))
  constructor
  · -- The mark is translated into an empty cell, and that is what was there.
    rw [grid_toText h hmarked hbreak, Grid.map_set, map_cellOf hcodes]
    exact Grid.set_of_cell? hxy
  · have hself := Grid.cell?_set_self hxy Cell.robotMark
    rcases start_cases (show 0 ≤ size by omega) with ⟨x', y', hstart, -, -, hchar⟩ | ⟨-, hnone⟩
    · rw [char?_toText h hmarked hbreak] at hchar
      by_cases heq : ((x' : Int), (y' : Int)) = ((x : Int), (y : Int))
      · obtain ⟨hx, hy⟩ := Prod.mk.inj heq
        rw [hstart, Int.ofNat.inj hx, Int.ofNat.inj hy]
      · rw [Grid.cell?_set_of_ne heq] at hchar
        exact absurd hchar (cell?_ne_robotMark hcodes)
    · obtain ⟨⟨-, hx⟩, -, hy⟩ := hg.bounds_of_cell? hxy
      exact (hnone ⟨x, y, hx, hy, (char?_toText h hmarked hbreak x y).trans hself⟩).elim

/-- **Boards of levels are normal forms.** The board of a level, written down, is a level with the
same board, where the robot starts in the first cell of the first row. If the cell where the robot
starts is empty, then with a robot mark in it the board is a level with the same board and the same
start. -/
theorem normal_form (text : Text) (size : Int) (h : 1 ≤ size) :
    let g := grid text size
    let (x, y) := start text size
    (grid g.toText size = g ∧ start g.toText size = (0, 0)) ∧
      (g.cell? x y = some Cell.empty →
        let marked := Grid.toText (g.set x y Cell.robotMark)
        grid marked size = g ∧ start marked size = (x, y)) := by
  have hg : (grid text size).IsSquare size := isSquare_grid (by omega)
  exact ⟨build_toText h hg isCode_of_mem_grid, build_marked h hg isCode_of_mem_grid⟩

/-- The first line is cut and a third one is added; the robot starts on the later one of the two
marks that are left. -/
theorem normal_form_marked :
    let text : Text := "A.uu\nux*\n".toList
    let marked := Grid.toText ((grid text 3).set 0 1 Cell.robotMark)
    (1 : Int) ≤ 3 ∧ grid (grid text 3).toText 3 = grid text 3 ∧
      (grid text 3).cell? 0 1 = some Cell.empty ∧ marked = "A..\nu.*\n...".toList ∧
      grid marked 3 = grid text 3 ∧ start marked 3 = (0, 1) := by
  intro text marked
  have hstart : start text 3 = (0, 1) := by decide
  have hcell : (grid text 3).cell? 0 1 = some Cell.empty := by decide
  have hnormal := normal_form text 3 (by decide)
  rw [hstart] at hnormal
  obtain ⟨⟨hgrid, -⟩, hmarked⟩ := hnormal
  exact ⟨by decide, hgrid, hcell, by decide, hmarked hcell⟩

end Level

end RobotMaze
