import Mathlib.Algebra.BigOperators.Group.Finset.Piecewise
import Mathlib.Algebra.BigOperators.Group.Finset.Sigma
import RobotMaze.Proofs.Board.Level
import RobotMaze.Proofs.Text.Places

/-!
# Levels, place by place

`Level.char?` tells which character a level has for a position. This file says how all that is read
from a level depends on these characters: the cells of the board, the place where the robot starts,
and the number of points.

The first is a matter of one position, and `Level.cell?_grid` settles it. The other two are about
all positions together. A level is read row by row, so the robot mark that is found last is the last
one in row-major order (`pairwise_places`). Points are counted row by row, so their number is the
number of positions with a point (`Grid.points_eq_card`); that a row or the board may have been
filled up does not matter, since filling up brings no points.
-/

namespace RobotMaze

open Finset

namespace Grid

/-! ### Counting by position -/

/-- Adding up along a list is adding up over its positions. -/
theorem foldr_eq_sum_range {α : Type} (f : α → Nat) (l : List α) :
    l.foldr (fun a n => f a + n) 0 = ∑ i ∈ range l.length, (l[i]?.map f).getD 0 := by
  induction l with
  | nil => rfl
  | cons a l ih =>
    rw [List.foldr_cons, ih, List.length_cons, sum_range_succ', Nat.add_comm]
    rfl

theorem count_eq_card (c : Char) (row : List Char) :
    row.count c = #{x ∈ range row.length | row[x]? = some c} := by
  have hcount : row.count c = row.foldr (fun d n => (if d = c then 1 else 0) + n) 0 := by
    induction row with
    | nil => rfl
    | cons d row ih => rw [List.count_cons, ih, List.foldr_cons, Nat.add_comm]; simp
  rw [hcount, foldr_eq_sum_range, card_filter]
  refine sum_congr rfl fun x hx => ?_
  rw [List.getElem?_eq_getElem (mem_range.1 hx)]
  simp

/-- The cells of a row of the board. -/
theorem cell?_eq_some_iff_of_row {g : Grid} {row : List Char} {x y : Nat} {c : Char}
    (h : g[y]? = some row) : g.cell? (x : Int) (y : Int) = some c ↔ row[x]? = some c := by
  rw [cell?_eq_some_iff]
  simp [h]

/-- **Points by position.** The points of a square board are the positions with a point. -/
theorem points_eq_card {g : Grid} {size : Int} (h : g.IsSquare size) :
    g.points = #{p ∈ range size.toNat ×ˢ range size.toNat |
      g.cell? (p.1 : Int) (p.2 : Int) = some Cell.point} := by
  have hrows : g.length = size.toNat := by have := h.rows; omega
  rw [points, foldr_eq_sum_range, card_filter, sum_product_right, hrows]
  refine sum_congr rfl fun y hy => ?_
  have hylt : y < g.length := by rw [hrows]; exact mem_range.1 hy
  have hrow : g[y]? = some g[y] := List.getElem?_eq_getElem hylt
  have hcolumns : g[y].length = size.toNat := by
    have := h.columns g[y] (List.getElem_mem hylt)
    omega
  rw [hrow, Option.map_some, Option.getD_some, count_eq_card, card_filter, hcolumns]
  exact sum_congr rfl fun x _ => if_congr (cell?_eq_some_iff_of_row hrow).symm rfl rfl

end Grid

namespace Level

variable {text : Text} {size : Int}

/-! ### The order of places -/

/-- The places of a level are listed row by row, and from left to right in a row. -/
theorem pairwise_places (text : Text) (size : Int) :
    (places text size).Pairwise fun p q => p.y < q.y ∨ p.y = q.y ∧ p.x < q.x := by
  refine List.pairwise_flatMap.2 ⟨?_, ?_⟩
  · rintro ⟨line, y⟩ -
    refine List.pairwise_map.2 ((Text.pairwise_zipIdx line 0).imp ?_)
    intro a b hab
    exact .inr ⟨rfl, hab⟩
  · refine (Text.pairwise_zipIdx _ 0).imp ?_
    intro a b hab p hp q hq
    obtain ⟨_, -, rfl⟩ := List.mem_map.1 hp
    obtain ⟨_, -, rfl⟩ := List.mem_map.1 hq
    exact .inl hab

/-- No robot mark comes after the start. -/
theorem le_start (h : 0 ≤ size) {x y : Nat} (hx : (x : Int) < size) (hy : (y : Int) < size)
    (hchar : char? text x y = some Cell.robotMark) :
    y < (start text size).2 ∨ y = (start text size).2 ∧ x ≤ (start text size).1 := by
  have hmem : (⟨x, y, Cell.robotMark⟩ : Place) ∈
      (places text size).filter (·.code = Cell.robotMark) :=
    List.mem_filter.2 ⟨(mem_places_iff h).2 ⟨hx, hy, hchar⟩, by simp⟩
  rw [start]
  split
  · rename_i last hlast
    obtain ⟨earlier, hall⟩ := List.getLast?_eq_some_iff.1 hlast
    have hsorted := (pairwise_places text size).filter (·.code = Cell.robotMark)
    rw [hall] at hmem hsorted
    rcases List.mem_append.1 hmem with hmem | hmem
    · have hbefore := (List.pairwise_append.1 hsorted).2.2 _ hmem last List.mem_cons_self
      exact hbefore.imp_right fun hrow => ⟨hrow.1, Nat.le_of_lt hrow.2⟩
    · obtain rfl := List.mem_singleton.1 hmem
      exact .inr ⟨rfl, Nat.le_refl x⟩
  · rename_i hnone
    rw [List.getLast?_eq_none_iff.1 hnone] at hmem
    cases hmem

/-! ### What is read from a level -/

/-- Filling up and translating brings no points. -/
theorem cell?_grid_eq_point_iff (h : 0 ≤ size) {x y : Nat} (hx : (x : Int) < size)
    (hy : (y : Int) < size) :
    (grid text size).cell? x y = some Cell.point ↔ char? text x y = some Cell.point := by
  rw [cell?_grid h hx hy, Option.some.injEq]
  cases char? text x y with
  | none => simp [Cell.point, Cell.empty]
  | some c =>
    rw [Option.map_some, Option.getD_some, cellOf, Option.some.injEq]
    split
    · exact Iff.rfl
    · rename_i hcode
      constructor
      · intro hc
        exact absurd hc (by decide)
      · rintro rfl
        exact absurd rfl hcode

/-- **A level, place by place.** The board has `size` rows of `size` cells. A cell is the character
that the level has for its position if that is a cell code, and empty otherwise. The robot starts on
the last robot mark in row-major order among these characters, and in the first cell of the first
row if there is none. The points of a new game are the points among these characters. -/
theorem newGame_by_place (text : Text) (size : Int) (h : 0 ≤ size) :
    (grid text size).IsSquare size ∧
    (∀ x y : Nat, (x : Int) < size → (y : Int) < size →
      (grid text size).cell? x y = some (match char? text x y with
        | some c =>
          if c = Cell.empty ∨ c = Cell.bomb ∨ c = Cell.point ∨ ('A' ≤ c ∧ c ≤ 'K') then c
          else Cell.empty
        | none => Cell.empty)) ∧
    ((∃ x y : Nat, start text size = (x, y) ∧ (x : Int) < size ∧ (y : Int) < size ∧
        char? text x y = some Cell.robotMark ∧
        ∀ x' y' : Nat, (x' : Int) < size → (y' : Int) < size →
          char? text x' y' = some Cell.robotMark → y' < y ∨ y' = y ∧ x' ≤ x) ∨
      start text size = (0, 0) ∧ ∀ x y : Nat, (x : Int) < size → (y : Int) < size →
        char? text x y ≠ some Cell.robotMark) ∧
    (newGame text size).totalPoints = #{p ∈ range size.toNat ×ˢ range size.toNat |
      char? text p.1 p.2 = some Cell.point} := by
  refine ⟨isSquare_grid h, fun x y hx hy => ?_, ?_, ?_⟩
  · rw [cell?_grid h hx hy]
    cases char? text x y with
    | none => rfl
    | some c => simp [cellOf, Cell.isCode, Cell.isWall, or_assoc]
  · rcases start_cases h with ⟨x, y, hstart, hx, hy, hchar⟩ | ⟨hstart, hnone⟩
    · refine .inl ⟨x, y, hstart, hx, hy, hchar, fun x' y' hx' hy' hchar' => ?_⟩
      have hle := le_start h hx' hy' hchar'
      rwa [hstart] at hle
    · exact .inr ⟨hstart, fun x y hx hy hchar => hnone ⟨x, y, hx, hy, hchar⟩⟩
  · have hpoints : (newGame text size).totalPoints = ((grid text size).points : Int) := rfl
    rw [hpoints, Grid.points_eq_card (isSquare_grid h)]
    congr 2
    refine filter_congr fun p hp => ?_
    obtain ⟨hx, hy⟩ := mem_product.1 hp
    have hx := mem_range.1 hx
    have hy := mem_range.1 hy
    exact cell?_grid_eq_point_iff h (by omega) (by omega)

/-- Of the four robot marks two are cut off, one on either side, and of the others the later one is
further to the left. The second point is cut off, and `x` is no cell code. -/
theorem newGame_by_place_cut :
    let text : Text := "\no.uu\nux\n\nou".toList
    (0 : Int) ≤ 3 ∧ (grid text 3).IsSquare 3 ∧ (grid text 3).cell? 0 0 = some Cell.point ∧
      (grid text 3).cell? 1 1 = some Cell.empty ∧ start text 3 = (0, 1) ∧
      (newGame text 3).totalPoints = 1 := by
  intro text
  obtain ⟨hsquare, hcell, hstart, hpoints⟩ := newGame_by_place text 3 (by decide)
  refine ⟨by decide, hsquare, hcell 0 0 (by decide) (by decide), hcell 1 1 (by decide) (by decide),
    ?_, hpoints.trans (by decide)⟩
  rcases hstart with ⟨x, y, hstart, hx, hy, hchar, hlast⟩ | ⟨-, hnone⟩
  · have hmarks : ∀ y < 3, ∀ x < 3, char? text x y = some Cell.robotMark →
        x = 2 ∧ y = 0 ∨ x = 0 ∧ y = 1 := by decide
    have hmark := hmarks y (by omega) x (by omega) hchar
    have hle := hlast 0 1 (by decide) (by decide) (by decide)
    obtain ⟨rfl, rfl⟩ : x = 0 ∧ y = 1 := by omega
    exact hstart
  · exact absurd (show char? text 0 1 = some Cell.robotMark by decide)
      (hnone 0 1 (by decide) (by decide))

end Level

end RobotMaze
