import RobotMaze.Board.Grid

/-!
# Reading and writing cells

`Grid.cell?` and `Grid.set` are total: a position that is not there has no cell, and writing to it
changes nothing. The laws of this file say what a write does to what can be read, to the number of
points and to the shape of the board.

`IsSquare` is the shape of boards that come from a level, and `IsRectangular` is all that it takes
for the width of the first row to be the width of every row. On such boards a position within bounds
has a cell.
-/

namespace RobotMaze

namespace Cell

@[simp] theorem isCode_empty : isCode empty = true := rfl

@[simp] theorem kind_empty : kind empty = .empty := rfl

/-- Only the code of points is a point. -/
theorem eq_point_of_kind {c : Char} (h : kind c = .point) : c = point := by
  rw [kind] at h
  split at h
  · cases h
  · split at h
    · assumption
    · split at h <;> cases h

theorem ne_robotMark_of_isCode {c : Char} (h : isCode c = true) : c ≠ robotMark := by
  rintro rfl
  exact absurd h (by decide)

/-- Codes lie between that of bombs and that of points. -/
theorem toNat_bounds {c : Char} (h : isCode c = true) : 0x2A ≤ c.toNat ∧ c.toNat ≤ 0x6F := by
  simp only [isCode, isWall, Bool.or_eq_true, decide_eq_true_eq, Bool.and_eq_true] at h
  rcases h with ((rfl | rfl) | rfl) | ⟨hA, hK⟩
  · decide
  · decide
  · decide
  · have hA : 'A'.toNat ≤ c.toNat := hA
    have hK : c.toNat ≤ 'K'.toNat := hK
    simp only [Char.reduceToNat] at hA hK
    omega

end Cell

namespace Grid

variable {g : Grid} {size x y : Int} {c : Char}

/-! ### Reading -/

theorem cell?_eq_some_iff : g.cell? x y = some c ↔
    0 ≤ x ∧ 0 ≤ y ∧ ∃ row, g[y.toNat]? = some row ∧ row[x.toNat]? = some c := by
  rw [cell?]
  split
  · rename_i h
    simp [h, Option.bind_eq_some_iff]
  · rename_i h
    simp only [reduceCtorEq, false_iff]
    rintro ⟨hx, hy, -⟩
    exact h ⟨hx, hy⟩

/-- A grid of `size` rows of `size` cells. -/
structure IsSquare (size : Int) (g : Grid) : Prop where
  rows : (g.length : Int) = size
  columns : ∀ row ∈ g, (row.length : Int) = size

/-- On a square board the width of the first row is the width of the board. -/
theorem IsSquare.inBounds_iff (h : g.IsSquare size) :
    g.inBounds x y = true ↔ (0 ≤ x ∧ x < size) ∧ 0 ≤ y ∧ y < size := by
  have hrows := h.rows
  cases g with
  | nil =>
    simp only [List.length_nil] at hrows
    simp [inBounds]
    omega
  | cons row rest =>
    have hcolumns := h.columns row List.mem_cons_self
    simp only [inBounds, Bool.and_eq_true, decide_eq_true_eq]
    rw [List.headD_cons]
    omega

/-- On a square board every position within bounds has a cell. -/
theorem IsSquare.exists_cell (h : g.IsSquare size) (hx : 0 ≤ x ∧ x < size) (hy : 0 ≤ y ∧ y < size) :
    ∃ c, g.cell? x y = some c := by
  have hrows := h.rows
  have hylt : y.toNat < g.length := by omega
  have hcolumns := h.columns g[y.toNat] (List.getElem_mem hylt)
  have hxlt : x.toNat < g[y.toNat].length := by omega
  exact ⟨g[y.toNat][x.toNat], cell?_eq_some_iff.2 ⟨hx.1, hy.1, g[y.toNat],
    List.getElem?_eq_getElem hylt, List.getElem?_eq_getElem hxlt⟩⟩

/-- On a square board every cell is within bounds. -/
theorem IsSquare.bounds_of_cell? (h : g.IsSquare size) (hc : g.cell? x y = some c) :
    (0 ≤ x ∧ x < size) ∧ 0 ≤ y ∧ y < size := by
  obtain ⟨hx, hy, row, hrow, hc⟩ := cell?_eq_some_iff.1 hc
  have hylt : y.toNat < g.length := (List.getElem?_eq_some_iff.1 hrow).1
  have hxlt : x.toNat < row.length := (List.getElem?_eq_some_iff.1 hc).1
  have hrows := h.rows
  have hcolumns := h.columns row (List.mem_of_getElem? hrow)
  omega

/-- A grid whose rows have the same length. -/
def IsRectangular (g : Grid) : Prop := ∀ row ∈ g, ∀ other ∈ g, row.length = other.length

/-- On a rectangular board every position within bounds has a cell. -/
theorem IsRectangular.exists_cell (h : g.IsRectangular) (hb : g.inBounds x y = true) :
    ∃ c, g.cell? x y = some c := by
  simp only [inBounds, Bool.and_eq_true, decide_eq_true_eq] at hb
  obtain ⟨⟨⟨hy, hylt⟩, hx⟩, hxlt⟩ := hb
  have hyn : y.toNat < g.length := by omega
  have hwidth : g[y.toNat].length = (g.headD []).length := by
    refine h _ (List.getElem_mem hyn) _ ?_
    cases g with
    | nil => simp at hyn
    | cons row rest => exact List.mem_cons_self
  have hxn : x.toNat < g[y.toNat].length := by omega
  exact ⟨g[y.toNat][x.toNat], cell?_eq_some_iff.2 ⟨hx, hy, g[y.toNat],
    List.getElem?_eq_getElem hyn, List.getElem?_eq_getElem hxn⟩⟩

/-! ### Writing -/

theorem set_of_nonneg (g : Grid) (hx : 0 ≤ x) (hy : 0 ≤ y) (code : Char) :
    g.set x y code = g.modify y.toNat fun row => List.set row x.toNat code :=
  if_pos ⟨hx, hy⟩

/-- **Read after write.** -/
theorem cell?_set_self (h : g.cell? x y = some c) (code : Char) :
    (g.set x y code).cell? x y = some code := by
  obtain ⟨hx, hy, row, hrow, hc⟩ := cell?_eq_some_iff.1 h
  rw [set_of_nonneg g hx hy]
  refine cell?_eq_some_iff.2 ⟨hx, hy, List.set row x.toNat code, ?_, ?_⟩
  · simp [hrow]
  · exact List.getElem?_set_self (List.getElem?_eq_some_iff.1 hc).1

/-- A write changes one row, and in it one cell. -/
theorem getElem?_set (g : Grid) (x y : Int) (code : Char) (i : Nat) :
    (g.set x y code)[i]? = g[i]?.map fun row =>
      if (0 ≤ x ∧ 0 ≤ y) ∧ y.toNat = i then List.set row x.toNat code else row := by
  rw [set]
  split
  · rename_i hxy
    rw [List.getElem?_modify]
    by_cases hi : y.toNat = i <;> simp [hxy, hi]
  · rename_i hxy
    simp [hxy]

/-- A write changes no cell but the one written. -/
theorem cell?_set_of_ne {x' y' : Int} (h : (x', y') ≠ (x, y)) (code : Char) :
    (g.set x y code).cell? x' y' = g.cell? x' y' := by
  rw [cell?, cell?, getElem?_set]
  split
  · rename_i hxy'
    cases g[y'.toNat]? with
    | none => rfl
    | some row =>
      rw [Option.map_some, Option.bind_some, Option.bind_some]
      split
      · rename_i hxy
        have hne : x.toNat ≠ x'.toNat := fun hx =>
          h (Prod.ext (show x' = x by omega) (show y' = y by omega))
        exact List.getElem?_set_ne hne
      · rfl
  · rfl

/-- Writing what is there changes nothing. -/
theorem set_of_cell? (h : g.cell? x y = some c) : g.set x y c = g := by
  obtain ⟨-, -, row, hrow, hc⟩ := cell?_eq_some_iff.1 h
  obtain ⟨hlt, rfl⟩ := List.getElem?_eq_some_iff.1 hc
  refine List.ext_getElem? fun i => ?_
  rw [getElem?_set]
  by_cases hi : y.toNat = i
  · rw [← hi, hrow, Option.map_some, List.set_getElem_self, ite_self]
  · simp [hi]

/-- Translating a board and writing to it can be done in either order. -/
theorem map_set (f : Char → Char) (g : Grid) (x y : Int) (code : Char) :
    (g.set x y code).map (·.map f) = Grid.set (g.map (·.map f)) x y (f code) := by
  refine List.ext_getElem? fun i => ?_
  rw [List.getElem?_map, getElem?_set, getElem?_set, List.getElem?_map, Option.map_map,
    Option.map_map]
  refine congrArg (Option.map · g[i]?) (funext fun row => ?_)
  rw [Function.comp_apply, Function.comp_apply, apply_ite (List.map f), List.map_set]

/-- A row of a grid with a cell replaced is a row of the grid, perhaps with a cell replaced. -/
theorem exists_row_of_mem_set {code : Char} {row : List Char} (h : row ∈ g.set x y code) :
    ∃ old ∈ g, row = old ∨ row = List.set old x.toNat code := by
  obtain ⟨i, hi⟩ := List.mem_iff_getElem?.1 h
  rw [getElem?_set] at hi
  obtain ⟨old, hold, rfl⟩ := Option.map_eq_some_iff.1 hi
  refine ⟨old, List.mem_of_getElem? hold, ?_⟩
  split
  · exact .inr rfl
  · exact .inl rfl

/-- A write keeps the shape of the board. -/
theorem map_length_set (g : Grid) (x y : Int) (code : Char) :
    (g.set x y code).map List.length = g.map List.length := by
  refine List.ext_getElem? fun i => ?_
  rw [List.getElem?_map, getElem?_set, List.getElem?_map, Option.map_map]
  refine congrArg (Option.map · g[i]?) (funext fun row => ?_)
  rw [Function.comp_apply, apply_ite List.length, List.length_set, ite_self]

theorem length_set (g : Grid) (x y : Int) (code : Char) : (g.set x y code).length = g.length := by
  have hshape := congrArg List.length (map_length_set g x y code)
  rwa [List.length_map, List.length_map] at hshape

/-- A write keeps the lengths of rows. -/
theorem exists_length_of_mem_set {code : Char} {row : List Char} (h : row ∈ g.set x y code) :
    ∃ old ∈ g, row.length = old.length := by
  have hmem : row.length ∈ (g.set x y code).map List.length := List.mem_map_of_mem h
  rw [map_length_set] at hmem
  obtain ⟨old, hold, hlength⟩ := List.mem_map.1 hmem
  exact ⟨old, hold, hlength.symm⟩

theorem IsSquare.set (h : g.IsSquare size) (x y : Int) (code : Char) :
    (g.set x y code).IsSquare size := by
  refine ⟨by rw [length_set]; exact h.rows, fun row hrow => ?_⟩
  obtain ⟨old, hold, hlength⟩ := exists_length_of_mem_set hrow
  rw [hlength]
  exact h.columns old hold

theorem IsRectangular.set (h : g.IsRectangular) (x y : Int) (code : Char) :
    (g.set x y code).IsRectangular := by
  intro row hrow other hother
  obtain ⟨old, hold, hlength⟩ := exists_length_of_mem_set hrow
  obtain ⟨old', hold', hlength'⟩ := exists_length_of_mem_set hother
  rw [hlength, hlength']
  exact h old hold old' hold'

/-- A write brings no cell but the one written. -/
theorem forall_mem_set {P : Char → Prop} {code : Char} (h : ∀ row ∈ g, ∀ c ∈ row, P c)
    (hcode : P code) : ∀ row ∈ g.set x y code, ∀ c ∈ row, P c := by
  intro row hrow c hc
  obtain ⟨old, hold, rfl | rfl⟩ := exists_row_of_mem_set hrow
  · exact h row hold c hc
  · rcases List.mem_or_eq_of_mem_set hc with hc | rfl
    · exact h old hold c hc
    · exact hcode

/-! ### Counting points -/

theorem points_cons (row : List Char) (g : Grid) :
    points (row :: g) = row.count Cell.point + points g := rfl

/-- Changing a row changes the number of points by as much as in that row. -/
theorem points_modify {i : Nat} {row : List Char} (f : List Char → List Char)
    (h : g[i]? = some row) :
    points (g.modify i f) + row.count Cell.point = points g + (f row).count Cell.point := by
  induction g generalizing i with
  | nil => simp at h
  | cons first rest ih =>
    cases i with
    | zero =>
      obtain rfl : first = row := by simpa using h
      rw [List.modify_zero_cons, points_cons, points_cons]
      omega
    | succ i =>
      have := ih (by simpa using h)
      rw [List.modify_succ_cons, points_cons, points_cons]
      omega

/-- Clearing a point leaves one point less. -/
theorem points_set_empty (h : g.cell? x y = some Cell.point) :
    points (g.set x y Cell.empty) + 1 = points g := by
  obtain ⟨hx, hy, row, hrow, hc⟩ := cell?_eq_some_iff.1 h
  obtain ⟨hlt, hc⟩ := List.getElem?_eq_some_iff.1 hc
  have hpos : 0 < row.count Cell.point := List.count_pos_iff.2 (hc ▸ List.getElem_mem hlt)
  have hcount : (List.set row x.toNat Cell.empty).count Cell.point = row.count Cell.point - 1 := by
    rw [List.count_set hlt, hc]
    rfl
  have hmodify := points_modify (fun row => List.set row x.toNat Cell.empty) hrow
  rw [set_of_nonneg g hx hy]
  omega

end Grid

end RobotMaze
