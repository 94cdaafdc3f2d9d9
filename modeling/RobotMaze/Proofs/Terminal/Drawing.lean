import Mathlib.Data.List.TakeWhile
import RobotMaze.Proofs.Board.Grid
import RobotMaze.Proofs.Text.Joined
import RobotMaze.Proofs.Text.Parts
import RobotMaze.Terminal.Draw

/-!
# What a drawing shows

A drawing leaves out the cell below the robot, and nothing else: from the text that is printed one
can tell where the robot stands, which way it faces, and every other cell of the board.

The text is made in three steps, and each of them can be undone. Cells are drawn as characters, no
two codes alike and none like an arrow. Blanks at the end of a row are left out; all rows are as
long as the board is wide, so it is known how many of them there were (`trimEnd_inj`). Rows are
joined by line feeds, and no row has one, so that the text can be cut at them; a blank row is an
empty piece and not lost.

In between is the `picture`: the drawing as a board again, cell by cell and not trimmed. It is as
square as the board, and it can be read with `Grid.cell?`. Drawings are compared by their pictures
(`draw_eq_iff_picture`), and pictures cell by cell (`Grid.ext_cell?`).

## Main results

* `Terminal.cell?_picture` — the picture, cell by cell
* `Terminal.draw_eq_iff` — when two boards are drawn alike
-/

namespace RobotMaze

open Text

/-! ### Blanks at the end -/

namespace Text

variable {t u : Text}

/-- A text whose white space consists of blanks is what trimming leaves, and blanks. -/
theorem eq_trimEnd_append (h : ∀ c ∈ t, isBlank c = true → c = ' ') :
    t = trimEnd t ++ List.replicate (t.length - (trimEnd t).length) ' ' := by
  have hsplit : trimEnd t ++ (t.reverse.takeWhile isBlank).reverse = t := by
    rw [trimEnd, ← List.reverse_append, List.takeWhile_append_dropWhile, List.reverse_reverse]
  have hblanks : (t.reverse.takeWhile isBlank).reverse =
      List.replicate (t.length - (trimEnd t).length) ' ' := by
    refine List.eq_replicate_iff.2 ⟨?_, fun c hc => ?_⟩
    · have hlength := congrArg List.length hsplit
      rw [List.length_append] at hlength
      omega
    · have hc' := List.mem_reverse.1 hc
      exact h c (hsplit ▸ List.mem_append_right _ hc) (List.mem_takeWhile_imp hc')
  rw [← hblanks, hsplit]

/-- **Trimming can be undone** where the length of the text is known. -/
theorem trimEnd_inj (hlength : t.length = u.length) (ht : ∀ c ∈ t, isBlank c = true → c = ' ')
    (hu : ∀ c ∈ u, isBlank c = true → c = ' ') (h : trimEnd t = trimEnd u) : t = u := by
  rw [eq_trimEnd_append ht, eq_trimEnd_append hu, h, hlength]

end Text

/-! ### Boards, cell by cell -/

theorem Grid.cell?_natCast (g : Grid) (x y : Nat) : g.cell? x y = g[y]?.bind (·[x]?) :=
  if_pos ⟨Int.natCast_nonneg x, Int.natCast_nonneg y⟩

/-- Boards with equally many rows are the same if they have the same cells. -/
theorem Grid.ext_cell? {g h : Grid} (hlength : g.length = h.length)
    (hcells : ∀ x y, g.cell? x y = h.cell? x y) : g = h := by
  refine List.ext_getElem hlength fun y hg hh => List.ext_getElem? fun x => ?_
  have hcell := hcells x y
  rwa [cell?_natCast, cell?_natCast, List.getElem?_eq_getElem hg,
    List.getElem?_eq_getElem hh] at hcell

/-- The codes of cells are no white space. -/
theorem Cell.isBlank_eq_false {c : Char} (h : isCode c = true) : isBlank c = false := by
  have hbounds := toNat_bounds h
  simp only [isBlank, Bool.or_eq_false_iff, Bool.and_eq_false_iff, decide_eq_false_iff_not,
    beq_eq_false_iff_ne]
  omega

namespace Terminal

variable {s t : State} {size x y : Int} {c d : Char}

/-! ### Characters of a drawing -/

/-- The cell that a character of a drawing stands for. -/
def cellShown (shown : Char) : Char :=
  if shown = ' ' then Cell.empty else if shown = 'x' then Cell.bomb else shown

theorem cellShown_shownCell (hc : Cell.isCode c = true) : cellShown (shownCell c) = c := by
  rw [shownCell]
  split
  · rename_i hempty
    rw [hempty]
    rfl
  · split
    · rename_i hbomb
      rw [hbomb]
      rfl
    · -- Neither a blank nor a cross is a code.
      have hblank : c ≠ ' ' := by
        rintro rfl
        exact absurd hc (by decide)
      have hcross : c ≠ 'x' := by
        rintro rfl
        exact absurd hc (by decide)
      rw [cellShown, if_neg hblank, if_neg hcross]

/-- No two cells are drawn alike. -/
theorem shownCell_inj (hc : Cell.isCode c = true) (hd : Cell.isCode d = true)
    (h : shownCell c = shownCell d) : c = d := by
  rw [← cellShown_shownCell hc, h, cellShown_shownCell hd]

/-- No cell is drawn like a robot. -/
theorem shownCell_ne_arrow (hc : Cell.isCode c = true) (direction : Direction) :
    shownCell c ≠ arrow direction := by
  rw [shownCell]
  split
  · cases direction <;> decide
  · split
    · cases direction <;> decide
    · rintro rfl
      cases direction <;> exact absurd hc (by decide)

theorem arrow_inj {d e : Direction} (h : arrow d = arrow e) : d = e := by
  revert h
  cases d <;> cases e <;> decide

/-- The only white space in a drawing is that of empty cells. -/
theorem shownAt_of_isBlank {robot : Robot} {x y : Nat} (hc : Cell.isCode c = true)
    (h : isBlank (shownAt robot x y c) = true) : shownAt robot x y c = ' ' := by
  have harrow : isBlank (arrow robot.direction) = false := by cases robot.direction <;> decide
  rw [shownAt, shownCell] at h ⊢
  split_ifs at h ⊢
  · rw [harrow] at h
    cases h
  · rfl
  · exact absurd h (by decide)
  · rw [Cell.isBlank_eq_false hc] at h
    cases h

/-! ### Pictures -/

/-- A square board of cell codes with the robot on it. -/
structure Drawable (size : Int) (s : State) : Prop where
  square : s.grid.IsSquare size
  codes : ∀ row ∈ s.grid, ∀ c ∈ row, Cell.isCode c = true
  column : 0 ≤ s.robot.x ∧ s.robot.x < size
  row : 0 ≤ s.robot.y ∧ s.robot.y < size

/-- The drawing of a board before blanks are left out and rows are joined. -/
def picture (s : State) : Grid :=
  s.grid.zipIdx.map fun (row, y) => row.zipIdx.map fun (code, x) => shownAt s.robot x y code

theorem draw_eq (s : State) : draw s = List.intercalate ['\n'] ((picture s).map trimEnd) := by
  rw [draw, picture, List.map_map]
  rfl

/-- **The picture, cell by cell.** -/
theorem cell?_picture (s : State) (x y : Int) :
    (picture s).cell? x y = (s.grid.cell? x y).map fun code =>
      if s.robot.x = x ∧ s.robot.y = y then arrow s.robot.direction else shownCell code := by
  rw [Grid.cell?, Grid.cell?]
  split
  · rename_i hxy
    have hrow : (picture s)[y.toNat]? = s.grid[y.toNat]?.map fun row =>
        row.zipIdx.map fun (code, x) => shownAt s.robot x y.toNat code := by
      simp only [picture, List.getElem?_map, List.getElem?_zipIdx, Option.map_map, Nat.zero_add]
      rfl
    rw [hrow]
    cases s.grid[y.toNat]? with
    | none => rfl
    | some row =>
      simp only [Option.map_some, Option.bind_some, List.getElem?_map, List.getElem?_zipIdx,
        Option.map_map, Nat.zero_add]
      refine congrArg (Option.map · row[x.toNat]?) (funext fun code => ?_)
      simp only [Function.comp_apply, shownAt, Int.toNat_of_nonneg hxy.1, Int.toNat_of_nonneg hxy.2]
  · rfl

/-- The rows of the picture are drawn from those of the board. -/
theorem exists_row_of_mem_picture {row : List Char} (h : row ∈ picture s) :
    ∃ old ∈ s.grid, ∃ y, row = old.zipIdx.map fun (code, x) => shownAt s.robot x y code := by
  obtain ⟨⟨old, y⟩, hold, rfl⟩ := List.mem_map.1 h
  exact ⟨old, List.fst_mem_of_mem_zipIdx hold, y, rfl⟩

namespace Drawable

theorem isCode_of_cell? (hs : Drawable size s) (hc : s.grid.cell? x y = some c) :
    Cell.isCode c = true := by
  obtain ⟨-, -, row, hrow, hc⟩ := Grid.cell?_eq_some_iff.1 hc
  exact hs.codes row (List.mem_of_getElem? hrow) c (List.mem_of_getElem? hc)

theorem isSquare_picture (hs : Drawable size s) : (picture s).IsSquare size := by
  constructor
  · rw [picture, List.length_map, List.length_zipIdx]
    exact hs.square.rows
  · intro row hrow
    obtain ⟨old, hold, y, rfl⟩ := exists_row_of_mem_picture hrow
    rw [List.length_map, List.length_zipIdx]
    exact hs.square.columns old hold

theorem blank_of_mem_picture (hs : Drawable size s) {row : List Char} (hrow : row ∈ picture s) :
    ∀ c ∈ row, isBlank c = true → c = ' ' := by
  intro c hc hblank
  obtain ⟨old, hold, y, rfl⟩ := exists_row_of_mem_picture hrow
  obtain ⟨⟨code, x⟩, hcode, rfl⟩ := List.mem_map.1 hc
  exact shownAt_of_isBlank (hs.codes old hold code (List.fst_mem_of_mem_zipIdx hcode)) hblank

/-! ### Reading drawings -/

/-- A drawing that is cut at its line feeds gives the rows of the picture, trimmed. -/
theorem splitOn_draw (hsize : 1 ≤ size) (hs : Drawable size s) :
    List.splitOn '\n' (draw s) = (picture s).map trimEnd := by
  rw [draw_eq]
  refine List.splitOn_intercalate '\n' (fun part hpart hfeed => ?_) ?_
  · -- A line feed is white space, and blanks are the only white space of a picture.
    obtain ⟨row, hrow, rfl⟩ := List.mem_map.1 hpart
    have hfeed : '\n' ∈ row := (isPrefix_trimEnd row).subset hfeed
    exact absurd (hs.blank_of_mem_picture hrow '\n' hfeed (by decide)) (by decide)
  · have hrows := hs.isSquare_picture.rows
    rw [← List.length_pos_iff, List.length_map]
    omega

end Drawable

/-- **Drawings can be told apart** as well as pictures can. -/
theorem draw_eq_iff_picture (hsize : 1 ≤ size) (hs : Drawable size s) (ht : Drawable size t) :
    draw s = draw t ↔ picture s = picture t := by
  constructor
  · intro h
    have htrimmed : (picture s).map trimEnd = (picture t).map trimEnd := by
      rw [← hs.splitOn_draw hsize, ← ht.splitOn_draw hsize, h]
    have hlength : (picture s).length = (picture t).length := by
      simpa using congrArg List.length htrimmed
    refine List.ext_getElem hlength fun y hy hy' => ?_
    have hrow : trimEnd (picture s)[y] = trimEnd (picture t)[y] := by
      simpa [hy, hy'] using congrArg (·[y]?) htrimmed
    have hmem := List.getElem_mem hy
    have hmem' := List.getElem_mem hy'
    have hcolumns := hs.isSquare_picture.columns _ hmem
    have hcolumns' := ht.isSquare_picture.columns _ hmem'
    exact trimEnd_inj (by omega) (hs.blank_of_mem_picture hmem) (ht.blank_of_mem_picture hmem') hrow
  · intro h
    rw [draw_eq, draw_eq, h]

/-- The robot is found in the picture: there is one arrow. -/
theorem robot_eq_of_picture_eq (hs : Drawable size s) (ht : Drawable size t)
    (h : picture s = picture t) : s.robot = t.robot := by
  obtain ⟨c, hc⟩ := hs.square.exists_cell hs.column hs.row
  obtain ⟨d, hd⟩ := ht.square.exists_cell hs.column hs.row
  have hcell : (picture s).cell? s.robot.x s.robot.y = (picture t).cell? s.robot.x s.robot.y := by
    rw [h]
  rw [cell?_picture, cell?_picture, hc, hd, Option.map_some, Option.map_some, if_pos ⟨rfl, rfl⟩,
    Option.some_inj] at hcell
  split at hcell
  · rename_i hplace
    calc s.robot = ⟨s.robot.x, s.robot.y, s.robot.direction⟩ := rfl
      _ = t.robot := by rw [← hplace.1, ← hplace.2, arrow_inj hcell]
  · exact absurd hcell.symm (shownCell_ne_arrow (ht.isCode_of_cell? hd) _)

/-- Every cell but the robot's is found in the picture. -/
theorem cell?_eq_of_picture_eq (hs : Drawable size s) (ht : Drawable size t)
    (h : picture s = picture t) (hrobot : s.robot = t.robot)
    (hplace : (x, y) ≠ (s.robot.x, s.robot.y)) : s.grid.cell? x y = t.grid.cell? x y := by
  have hplace : ¬(s.robot.x = x ∧ s.robot.y = y) := fun ⟨hx, hy⟩ => hplace (by rw [hx, hy])
  have hcell : (picture s).cell? x y = (picture t).cell? x y := by rw [h]
  simp only [cell?_picture, ← hrobot, if_neg hplace] at hcell
  cases hc : s.grid.cell? x y with
  | none =>
    rw [hc, Option.map_none, eq_comm, Option.map_eq_none_iff] at hcell
    exact hcell.symm
  | some c =>
    rw [hc, Option.map_some, eq_comm, Option.map_eq_some_iff] at hcell
    obtain ⟨d, hd, hshown⟩ := hcell
    rw [hd, shownCell_inj (ht.isCode_of_cell? hd) (hs.isCode_of_cell? hc) hshown]

/-- **When two boards are drawn alike**: the robot stands on the same cell and faces the same way,
and all other cells are the same. -/
theorem draw_eq_iff (hsize : 1 ≤ size) (hs : Drawable size s) (ht : Drawable size t) :
    draw s = draw t ↔ s.robot = t.robot ∧
      ∀ x y, (x, y) ≠ (s.robot.x, s.robot.y) → s.grid.cell? x y = t.grid.cell? x y := by
  rw [draw_eq_iff_picture hsize hs ht]
  constructor
  · intro h
    have hrobot := robot_eq_of_picture_eq hs ht h
    exact ⟨hrobot, fun x y => cell?_eq_of_picture_eq hs ht h hrobot⟩
  · rintro ⟨hrobot, hcells⟩
    have hrows := hs.isSquare_picture.rows
    have hrows' := ht.isSquare_picture.rows
    refine Grid.ext_cell? (by omega) fun x y => ?_
    rw [cell?_picture, cell?_picture, ← hrobot]
    by_cases hplace : s.robot.x = x ∧ s.robot.y = y
    · -- Both boards have a cell below the robot, and neither shows it.
      obtain ⟨c, hc⟩ := hs.square.exists_cell hs.column hs.row
      obtain ⟨d, hd⟩ := ht.square.exists_cell hs.column hs.row
      rw [← hplace.1, ← hplace.2, hc, hd]
      simp
    · rw [hcells x y fun h => hplace ⟨(Prod.ext_iff.1 h).1.symm, (Prod.ext_iff.1 h).2.symm⟩]

/-- A bomb below the robot does not show; one in the empty row does. -/
theorem draw_eq_iff_bomb :
    let robot : Robot := ⟨0, 1, .left⟩
    let s : State :=
      { grid := ["..".toList, "o.".toList], robot, initialRobot := robot, totalPoints := 1 }
    let below : State := { s with grid := s.grid.set 0 1 Cell.bomb }
    let beside : State := { s with grid := s.grid.set 1 0 Cell.bomb }
    draw s = "\n←".toList ∧ draw s = draw below ∧ draw s ≠ draw beside := by
  intro robot s below beside
  have hcodes : ∀ row ∈ s.grid, row.all Cell.isCode = true := by decide
  have hs : Drawable 2 s :=
    ⟨⟨rfl, by decide⟩, fun row hrow => List.all_eq_true.1 (hcodes row hrow), by decide, by decide⟩
  have hbomb : ∀ x y, Drawable 2 { s with grid := s.grid.set x y Cell.bomb } := fun x y =>
    ⟨hs.square.set x y _, Grid.forall_mem_set hs.codes (by decide), hs.column, hs.row⟩
  refine ⟨by decide, ?_, fun h => ?_⟩
  · exact (draw_eq_iff (by decide) hs (hbomb 0 1)).2
      ⟨rfl, fun x y h => (Grid.cell?_set_of_ne h Cell.bomb).symm⟩
  · obtain ⟨-, hcells⟩ := (draw_eq_iff (by decide) hs (hbomb 1 0)).1 h
    exact absurd (hcells 1 0 (by decide)) (by decide)

end Terminal

end RobotMaze
