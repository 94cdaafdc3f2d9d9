import Mathlib.Order.Bounds.Defs
import RobotMaze.Proofs.Diagnostic.Columns

/-!
# Rows of marks

`Marks.underline` is told two columns and is not told that they make sense. They can be beyond the
line, before it or in the wrong order, and the line can be empty. This file says what the row of
marks looks like whatever the columns are: blanks, then one run of marks, then blanks, as wide as
the line, and with one column if the line has none.

## The first mark decides

Moving a column into the line and cutting a range off at its end are three nested bounds. They come
down to one condition on each column (`charAt?_underline`): the first mark is in the first column
given, or in the column of the line that is nearest to it, and a column further on has a mark if it
is before the second column given. So there is always a first mark, and the marks cannot leave the
line; where the columns are in order and within the line, nothing is moved (`getElem?_underline`).

## Main results

* `charAt?_underline` — every column of a row of marks
* `getElem?_underline` — marks that stay within the line
* `underline_shape` — the shape of every row of marks
-/

namespace RobotMaze

namespace Marks

variable {line : Text} {x₀ x₁ x : Int} {mark : Char}

/-! ### Runs -/

/-- Blanks, a run of marks, and blanks. -/
def markedRow (mark : Char) (before marked after : Nat) : Text :=
  List.replicate before ' ' ++ List.replicate marked mark ++ List.replicate after ' '

theorem length_markedRow (mark : Char) (before marked after : Nat) :
    (markedRow mark before marked after).length = before + marked + after := by
  simp [markedRow, Nat.add_assoc]

theorem getElem?_markedRow {before marked after i : Nat} (h : i < before + marked + after) :
    (markedRow mark before marked after)[i]? =
      some (if before ≤ i ∧ i < before + marked then mark else ' ') := by
  have hlength : (List.replicate before ' ' ++ List.replicate marked mark).length =
      before + marked := by simp
  rw [markedRow]
  rcases Nat.lt_or_ge i (before + marked) with hi | hi
  · rw [List.getElem?_append_left (by omega)]
    rcases Nat.lt_or_ge i before with hbefore | hmarked
    · rw [List.getElem?_append_left (by rwa [List.length_replicate]), List.getElem?_replicate,
        if_pos hbefore, if_neg (by omega)]
    · rw [List.getElem?_append_right (by rwa [List.length_replicate]), List.getElem?_replicate,
        List.length_replicate, if_pos (by omega), if_pos ⟨hmarked, hi⟩]
  · rw [List.getElem?_append_right (by omega), List.getElem?_replicate, if_pos (by omega),
      if_neg (by omega)]

/-! ### Where the marks are -/

/-- The column of the first mark: the one that is asked for, moved into the line. A line without
characters counts as one column. -/
def firstMark (line : Text) (x₀ : Int) : Int := max 1 (min x₀ (max 1 line.length))

theorem one_le_firstMark (line : Text) (x₀ : Int) : 1 ≤ firstMark line x₀ := Int.le_max_left ..

theorem firstMark_le (line : Text) (x₀ : Int) : firstMark line x₀ ≤ max 1 (line.length : Int) :=
  Int.max_le.2 ⟨Int.le_max_left .., Int.min_le_right ..⟩

/-- A column of the line is not moved. -/
theorem firstMark_of_le (h₀ : 1 ≤ x₀) (hn : x₀ ≤ line.length) : firstMark line x₀ = x₀ := by
  rw [firstMark, Int.min_eq_left (Int.le_trans hn (Int.le_max_right ..)), Int.max_eq_right h₀]

theorem repeated_singleton (n : Int) (c : Char) : repeated n [c] = List.replicate n.toNat c := by
  simp [repeated]

/-- The columns that are drawn, as three lengths. -/
theorem exists_underline_eq (line : Text) (x₀ x₁ : Int) (mark : Char) :
    ∃ before marked after : Nat,
      underline line x₀ x₁ [mark] = markedRow mark before marked after ∧
      before + marked + after = max 1 line.length ∧ (before : Int) + 1 = firstMark line x₀ ∧
      (before : Int) + marked + 1 = max (firstMark line x₀ + 1) (min x₁ (line.length + 1)) := by
  have hfirst : max 1 (min x₀ line.length) = firstMark line x₀ := by
    rw [firstMark]
    omega
  have hone := one_le_firstMark line x₀
  have hle := firstMark_le line x₀
  simp only [underline, hfirst, repeated_singleton]
  generalize hstop : max (firstMark line x₀ + 1) (min x₁ (line.length + 1)) = stop
  have hlt : firstMark line x₀ < stop := by omega
  have hend : stop ≤ max 1 (line.length : Int) + 1 := by omega
  -- The lengths need no more than these two bounds on where the marks stop.
  clear hfirst hstop
  exact ⟨_, _, _, rfl, by omega, by omega, by omega⟩

/-- **Every column of a row of marks.** -/
theorem charAt?_underline (line : Text) (x₀ x₁ : Int) (mark : Char) (x : Int) :
    charAt? (underline line x₀ x₁ [mark]) x =
      if 1 ≤ x ∧ x ≤ max 1 (line.length : Int) then
        some (if firstMark line x₀ ≤ x ∧ (x = firstMark line x₀ ∨ x < x₁) then mark else ' ')
      else none := by
  obtain ⟨before, marked, after, heq, hlength, hfirst, hlast⟩ :=
    exists_underline_eq line x₀ x₁ mark
  rw [heq, charAt?]
  by_cases hx : 1 ≤ x ∧ x ≤ max 1 (line.length : Int)
  · have hrun : (before ≤ (x - 1).toNat ∧ (x - 1).toNat < before + marked) ↔
        firstMark line x₀ ≤ x ∧ (x = firstMark line x₀ ∨ x < x₁) := by omega
    rw [if_pos hx, if_pos hx.1, getElem?_markedRow (by omega)]
    simp only [hrun]
  · rw [if_neg hx]
    split
    · exact List.getElem?_eq_none (by rw [length_markedRow]; omega)
    · rfl

theorem charAt?_underline_eq_mark_iff (hmark : mark ≠ ' ') :
    charAt? (underline line x₀ x₁ [mark]) x = some mark ↔
      firstMark line x₀ ≤ x ∧ x ≤ max 1 (line.length : Int) ∧
        (x = firstMark line x₀ ∨ x < x₁) := by
  have hone := one_le_firstMark line x₀
  rw [charAt?_underline]
  split
  · rw [Option.some.injEq]
    constructor
    · intro h
      split at h
      · omega
      · exact absurd h.symm hmark
    · intro h
      exact if_pos (by omega)
  · exact iff_of_false (by simp) (by omega)

theorem length_underline (line : Text) (x₀ x₁ : Int) (mark : Char) :
    (underline line x₀ x₁ [mark]).length = max 1 line.length := by
  obtain ⟨before, marked, after, heq, hlength, -⟩ := exists_underline_eq line x₀ x₁ mark
  rw [heq, length_markedRow, hlength]

/-- **Marks within the line** are in the columns from the first to the one before the last given,
and nowhere else. -/
theorem getElem?_underline (h₀ : 1 ≤ x₀) (h₁ : x₀ < x₁) (hn : x₁ ≤ line.length + 1) (mark : Char) :
    (underline line x₀ x₁ [mark]).length = line.length ∧
      ∀ i < line.length, (underline line x₀ x₁ [mark])[i]? =
        some (if x₀ ≤ i + 1 ∧ i + 1 < x₁ then mark else ' ') := by
  have hfirst : firstMark line x₀ = x₀ := firstMark_of_le h₀ (by omega)
  refine ⟨by rw [length_underline]; omega, fun i hi => ?_⟩
  have hrun : (x₀ ≤ (i : Int) + 1 ∧ ((i : Int) + 1 = x₀ ∨ (i : Int) + 1 < x₁)) ↔
      x₀ ≤ (i : Int) + 1 ∧ (i : Int) + 1 < x₁ := by omega
  rw [← charAt?_natCast_add_one, charAt?_underline, if_pos (by omega), hfirst]
  simp only [hrun]

/-- **The shape of a row of marks.** It is as wide as the line, and one column wide below an empty
line. There are blanks, then one mark or more, then blanks. Columns that are in order and within the
line are the columns with marks; whatever the columns are, the first mark is in the first of them,
moved into the line. -/
theorem underline_shape (line : Text) (x₀ x₁ : Int) (hmark : mark ≠ ' ') :
    (underline line x₀ x₁ [mark]).length = max 1 line.length ∧
      (∃ before marked after, 0 < marked ∧
        underline line x₀ x₁ [mark] = markedRow mark before marked after) ∧
      (1 ≤ x₀ ∧ x₀ ≤ line.length ∧ x₀ < x₁ ∧ x₁ ≤ line.length + 1 →
        ∀ x, charAt? (underline line x₀ x₁ [mark]) x = some mark ↔ x₀ ≤ x ∧ x < x₁) ∧
      IsLeast {x | charAt? (underline line x₀ x₁ [mark]) x = some mark} (firstMark line x₀) := by
  refine ⟨length_underline line x₀ x₁ mark, ?_, ?_, ?_⟩
  · obtain ⟨before, marked, after, heq, -, hfirst, hlast⟩ := exists_underline_eq line x₀ x₁ mark
    exact ⟨before, marked, after, by omega, heq⟩
  · rintro ⟨h₀, hn, h₁, hn₁⟩ x
    rw [charAt?_underline_eq_mark_iff hmark, firstMark_of_le h₀ hn]
    omega
  · refine ⟨(charAt?_underline_eq_mark_iff hmark).2
      ⟨Int.le_refl _, firstMark_le line x₀, .inl rfl⟩, ?_⟩
    intro x hx
    exact ((charAt?_underline_eq_mark_iff hmark).1 hx).1

/-- Columns in the wrong order, the first of them past the end of the line. -/
theorem underline_shape_reversed :
    underline "f:s".toList 9 2 ['^'] = "  ^".toList ∧
      (underline "f:s".toList 9 2 ['^']).length = 3 ∧
      IsLeast {x | charAt? (underline "f:s".toList 9 2 ['^']) x = some '^'} 3 := by
  obtain ⟨hlength, -, -, hfirst⟩ := underline_shape "f:s".toList 9 2 (show '^' ≠ ' ' by decide)
  exact ⟨by decide, hlength, hfirst⟩

end Marks

end RobotMaze
