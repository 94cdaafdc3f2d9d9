import RobotMaze.Diagnostic.Marks

/-!
# Display columns

A line is shown with its tabs expanded, and marks are drawn below the line that is shown. This file
says where a character of the line is then to be seen. Its *display column* is worked out from the
characters before it alone: a tab leads to the next tab stop, and any other character one column on.

`Marks.expandTabs` carries a running column, the text so far and the columns so far through one
loop. The three are taken apart here: the columns are the running columns of a scan over the line
(`expandTabs_eq`), the text shows every character in its display columns and has nothing else
(`expands_shown`), and looking a column up gives the display column (`column_eq`).
-/

namespace RobotMaze

namespace Marks

variable {tabWidth col : Int} {line t : Text} {c : Char} {k : Nat}

/-! ### Running columns -/

/-- The first column after `col` that follows a multiple of the tab width. -/
def tabStop (tabWidth col : Int) : Int := ((col - 1) / tabWidth + 1) * tabWidth + 1

/-- The column after a character that is shown at `col`. -/
def advance (tabWidth col : Int) (c : Char) : Int :=
  if c = '\t' then tabStop tabWidth col else col + 1

/-- The column after a text that is shown at `col`. -/
def columnAfter (tabWidth col : Int) (t : Text) : Int := t.foldl (advance tabWidth) col

/-- The display column of the character of a line that has `k` characters before it. -/
def displayColumn (tabWidth : Int) (line : Text) (k : Nat) : Int :=
  columnAfter tabWidth 1 (line.take k)

theorem tabAdvance_eq (hw : 1 ≤ tabWidth) (col : Int) :
    tabAdvance tabWidth col = .ok (tabStop tabWidth col - col) := by
  have hdiv := Int.mul_ediv_add_emod (col - 1) tabWidth
  rw [tabAdvance, if_neg (by omega), Int.fmod_eq_emod_of_nonneg _ (by omega), tabStop, Int.add_mul,
    Int.mul_comm, Int.one_mul]
  congr 1
  omega

theorem lt_advance (hw : 1 ≤ tabWidth) (col : Int) (c : Char) : col < advance tabWidth col c := by
  have hdiv := Int.mul_ediv_add_emod (col - 1) tabWidth
  have hmod := Int.emod_lt_of_pos (col - 1) (by omega : 0 < tabWidth)
  rw [advance, tabStop, Int.add_mul, Int.mul_comm, Int.one_mul]
  split <;> omega

/-- Every character takes up one column or more. -/
theorem add_length_le_columnAfter (hw : 1 ≤ tabWidth) (col : Int) (t : Text) :
    col + t.length ≤ columnAfter tabWidth col t := by
  induction t generalizing col with
  | nil => simp [columnAfter]
  | cons c rest ih =>
    have hfirst := lt_advance hw col c
    have hrest := ih (advance tabWidth col c)
    simp only [columnAfter, List.foldl_cons, List.length_cons] at hrest ⊢
    omega

/-- Characters further on are shown further on, by one column or more for each of them. -/
theorem displayColumn_add_le (hw : 1 ≤ tabWidth) {j : Nat} (hjk : j ≤ k) (hk : k ≤ line.length) :
    displayColumn tabWidth line j + (k - j : Nat) ≤ displayColumn tabWidth line k := by
  have hsplit : displayColumn tabWidth line k =
      columnAfter tabWidth (displayColumn tabWidth line j) ((line.take k).drop j) := by
    have htake : (line.take k).take j = line.take j := by
      rw [List.take_take, Nat.min_eq_left hjk]
    rw [displayColumn, displayColumn, ← htake, columnAfter, columnAfter, columnAfter,
      ← List.foldl_append, List.take_append_drop]
  have hmore := add_length_le_columnAfter hw (displayColumn tabWidth line j) ((line.take k).drop j)
  rw [← hsplit, List.length_drop, List.length_take, Nat.min_eq_left hk] at hmore
  exact hmore

/-- The character after `c` is shown where `c` leads to. -/
theorem displayColumn_succ (h : t[k]? = some c) :
    displayColumn tabWidth t (k + 1) = advance tabWidth (displayColumn tabWidth t k) c := by
  rw [displayColumn, displayColumn, List.take_add_one, h]
  simp [columnAfter]

theorem one_le_displayColumn (hw : 1 ≤ tabWidth) (line : Text) (k : Nat) :
    1 ≤ displayColumn tabWidth line k := by
  have := add_length_le_columnAfter hw 1 (line.take k)
  simp only [displayColumn]
  omega

/-! ### The line that is shown -/

/-- The character of a text in a column; the first column is 1. -/
def charAt? (t : Text) (x : Int) : Option Char := if 1 ≤ x then t[(x - 1).toNat]? else none

theorem charAt?_natCast_add_one (t : Text) (i : Nat) : charAt? t (i + 1) = t[i]? := by
  rw [charAt?, if_pos (by omega), Int.add_sub_cancel, Int.toNat_natCast]

/-- A text that is shown at `col`, every character over the columns that it takes up. -/
def shownFrom (tabWidth : Int) : Int → Text → Text
  | _, [] => []
  | col, c :: rest =>
    List.replicate (advance tabWidth col c - col).toNat (if c = '\t' then ' ' else c) ++
      shownFrom tabWidth (advance tabWidth col c) rest

/-- A line with its tabs expanded. -/
def shown (tabWidth : Int) (line : Text) : Text := shownFrom tabWidth 1 line

theorem expandFrom_eq (hw : 1 ≤ tabWidth) (col : Int) (t : Text) :
    expandFrom tabWidth col t =
      .ok ⟨shownFrom tabWidth col t, t.scanl (advance tabWidth) col⟩ := by
  induction t generalizing col with
  | nil => rfl
  | cons c rest ih =>
    rw [expandFrom]
    split
    · rename_i hc
      have hstop : col + (tabStop tabWidth col - col) = advance tabWidth col c := by
        rw [advance, if_pos hc]
        omega
      rw [tabAdvance_eq hw]
      simp only [bind, Except.bind, hstop, ih]
      simp [shownFrom, hc, advance, pure, Except.pure]
    · rename_i hc
      have hnext : col + 1 = advance tabWidth col c := (if_neg hc).symm
      have hone : (advance tabWidth col c - col).toNat = 1 := by omega
      simp only [bind, Except.bind, hnext, ih]
      simp [shownFrom, hc, hone, pure, Except.pure]

/-- **Expanding tabs.** The columns are the running columns of the line. -/
theorem expandTabs_eq (hw : 1 ≤ tabWidth) (line : Text) :
    expandTabs tabWidth line =
      .ok ⟨shown tabWidth line, line.scanl (advance tabWidth) 1⟩ :=
  expandFrom_eq hw 1 line

theorem length_shownFrom (hw : 1 ≤ tabWidth) (col : Int) (t : Text) :
    col + (shownFrom tabWidth col t).length = columnAfter tabWidth col t := by
  induction t generalizing col with
  | nil => simp [shownFrom, columnAfter]
  | cons c rest ih =>
    have hfirst := lt_advance hw col c
    have hrest := ih (advance tabWidth col c)
    simp only [shownFrom, columnAfter, List.length_append, List.length_replicate,
      List.foldl_cons] at hrest ⊢
    omega

theorem getElem?_shownFrom (hw : 1 ≤ tabWidth) (h : t[k]? = some c) {x : Int}
    (hle : columnAfter tabWidth col (t.take k) ≤ x)
    (hlt : x < columnAfter tabWidth col (t.take (k + 1))) :
    (shownFrom tabWidth col t)[(x - col).toNat]? = some (if c = '\t' then ' ' else c) := by
  induction t generalizing col k with
  | nil => simp at h
  | cons d rest ih =>
    have hfirst := lt_advance hw col d
    rw [shownFrom]
    cases k with
    | zero =>
      obtain rfl : d = c := by simpa using h
      simp only [columnAfter, List.take_zero, List.take_succ_cons, List.foldl_cons,
        List.foldl_nil] at hle hlt
      rw [List.getElem?_append_left (by rw [List.length_replicate]; omega),
        List.getElem?_replicate, if_pos (by omega)]
    | succ k =>
      simp only [columnAfter, List.take_succ_cons, List.foldl_cons] at hle hlt
      have hstart := add_length_le_columnAfter hw (advance tabWidth col d) (rest.take k)
      simp only [columnAfter] at hstart
      rw [List.getElem?_append_right (by rw [List.length_replicate]; omega),
        List.length_replicate, show (x - col).toNat - (advance tabWidth col d - col).toNat =
          (x - advance tabWidth col d).toNat by omega]
      exact ih (by simpa using h) hle hlt

/-- The text shows the line: every character is in its display columns, a tab as blanks, and there
is nothing else. -/
structure Expands (tabWidth : Int) (raw text : Text) : Prop where
  columns : (text.length : Int) + 1 = displayColumn tabWidth raw raw.length
  characters : ∀ k c, raw[k]? = some c → ∀ x, displayColumn tabWidth raw k ≤ x →
    x < displayColumn tabWidth raw (k + 1) →
      text[(x - 1).toNat]? = some (if c = '\t' then ' ' else c)

/-- **Expanding tabs** shows the line. -/
theorem expands_shown (hw : 1 ≤ tabWidth) (line : Text) :
    Expands tabWidth line (shown tabWidth line) := by
  refine ⟨?_, fun k c hc x hle hlt => getElem?_shownFrom hw hc hle hlt⟩
  rw [displayColumn, List.take_length, ← length_shownFrom hw 1 line, Int.add_comm]
  rfl

/-! ### Looking columns up -/

/-- **Looking a column up** gives its display column, and that of the end of the line for a column
further on. -/
theorem column_eq (tabWidth : Int) (line text : Text) (h : 1 ≤ col) :
    Expanded.column ⟨text, line.scanl (advance tabWidth) 1⟩ col =
      .ok (displayColumn tabWidth line (min col (line.length + 1) - 1).toNat) := by
  have hlength : (line.scanl (advance tabWidth) 1).length = line.length + 1 := by simp
  rw [Expanded.column]
  simp only [hlength]
  rw [if_neg (by omega), if_neg (by omega), List.getElem?_scanl, if_pos (by omega)]
  rfl

end Marks

end RobotMaze
