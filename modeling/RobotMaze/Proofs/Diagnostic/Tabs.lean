import Mathlib.Data.Int.ModEq
import Mathlib.Order.Bounds.Basic
import RobotMaze.Proofs.Diagnostic.Columns

/-!
# Tabs

Expanding a line gives a text and a list of columns, and everything that is drawn below the line
trusts that the two belong together. `Proofs/Diagnostic/Columns` works both out from the line. Here
they are judged by what can be seen of them: `Aligned` compares the text, the columns and the line
at each character, and says what a tab stop is without a formula for it.

## No choice is left

That expanding a line gives an aligned text (`aligned_shown`) would be worth little if other texts
were aligned with the line as well. There are none. The first column is given, and a character at a
known column gives the next one, so the columns are the display columns
(`Aligned.getElem?_columns`). These leave no gaps: each column of the text belongs to one character
of the line (`exists_displayColumn_le`), which says what stands there (`Expands.eq`).

## Main results

* `isLeast_tabStop` — a tab leads to the next tab stop, also from a column that is one
* `aligned_shown`, `Aligned.eq_shown` — the expanded line is aligned, and nothing else is
* `expandTabs_aligned` — expanding the tabs of a line
-/

namespace RobotMaze

namespace Marks

variable {tabWidth x : Int} {raw text text' : Text} {c : Char} {k : Nat} {e : Expanded}

/-! ### Tab stops -/

/-- **A tab leads to the next tab stop**, the least column further on that follows a multiple of the
tab width. -/
theorem isLeast_tabStop (hw : 1 ≤ tabWidth) (col : Int) :
    IsLeast {x | col < x ∧ x ≡ 1 [ZMOD tabWidth]} (tabStop tabWidth col) := by
  refine ⟨⟨lt_advance hw col '\t', ?_⟩, ?_⟩
  · have hmultiple : tabStop tabWidth col - 1 = tabWidth * ((col - 1) / tabWidth + 1) := by
      rw [tabStop, Int.mul_comm, Int.add_sub_cancel]
    exact (Int.modEq_iff_dvd.2 ⟨_, hmultiple⟩).symm
  · rintro x ⟨hlt, hx⟩
    obtain ⟨m, hm⟩ := Int.modEq_iff_dvd.1 hx.symm
    have hquotient : (col - 1) / tabWidth < m := by
      rw [Int.ediv_lt_iff_lt_mul (by omega), Int.mul_comm]
      omega
    have hmultiple : ((col - 1) / tabWidth + 1) * tabWidth ≤ m * tabWidth :=
      Int.mul_le_mul_of_nonneg_right hquotient (by omega)
    rw [Int.mul_comm m] at hmultiple
    rw [tabStop]
    omega

/-! ### Every column belongs to a character -/

/-- A column before that of a character belongs to one of the characters before it. -/
theorem exists_displayColumn_le (h : 1 ≤ x) (n : Nat) (hlt : x < displayColumn tabWidth raw n) :
    ∃ k < n, displayColumn tabWidth raw k ≤ x ∧ x < displayColumn tabWidth raw (k + 1) := by
  induction n with
  | zero => exact absurd hlt (Int.not_lt.2 h)
  | succ n ih =>
    rcases Int.lt_or_le x (displayColumn tabWidth raw n) with hbefore | hhere
    · obtain ⟨k, hk, hx⟩ := ih hbefore
      exact ⟨k, Nat.lt_succ_of_lt hk, hx⟩
    · exact ⟨n, Nat.lt_succ_self n, hhere, hlt⟩

/-- **There is one text** that shows a line. -/
theorem Expands.eq (h : Expands tabWidth raw text) (h' : Expands tabWidth raw text') :
    text = text' := by
  have hlength : text.length = text'.length := by
    have hcolumns := h.columns.trans h'.columns.symm
    omega
  refine List.ext_getElem? fun i => ?_
  rcases Nat.lt_or_ge i text.length with hi | hi
  · have hcolumn : (i : Int) + 1 < displayColumn tabWidth raw raw.length := by
      rw [← h.columns]
      omega
    obtain ⟨k, hk, hle, hlt⟩ := exists_displayColumn_le (by omega) raw.length hcolumn
    have hget := List.getElem?_eq_getElem hk
    have hindex : ((i : Int) + 1 - 1).toNat = i := by omega
    rw [← hindex, h.characters k _ hget _ hle hlt, h'.characters k _ hget _ hle hlt]
  · rw [List.getElem?_eq_none hi, List.getElem?_eq_none (hlength ▸ hi)]

theorem Expands.charAt?_eq (h : Expands tabWidth raw text) (hw : 1 ≤ tabWidth)
    (hc : raw[k]? = some c) (hle : displayColumn tabWidth raw k ≤ x)
    (hlt : x < displayColumn tabWidth raw (k + 1)) :
    charAt? text x = some (if c = '\t' then ' ' else c) := by
  have hone := one_le_displayColumn hw raw k
  rw [charAt?, if_pos (by omega)]
  exact h.characters k c hc x hle hlt

/-! ### The text in step with the columns -/

/-- The text is the line with its tabs expanded, and the columns are those of the characters of the
line in the text, with the column after the last one. -/
structure Aligned (tabWidth : Int) (raw : Text) (e : Expanded) : Prop where
  tab_notMem : '\t' ∉ e.text
  length_columns : e.columns.length = raw.length + 1
  head?_columns : e.columns.head? = some 1
  increasing : e.columns.Pairwise (· < ·)
  getLast?_columns : e.columns.getLast? = some ((e.text.length : Int) + 1)
  /-- Any character but a tab stands in its own column, and the next column follows. -/
  other : ∀ i c, raw[i]? = some c → c ≠ '\t' → ∃ x, e.columns[i]? = some x ∧
    e.columns[i + 1]? = some (x + 1) ∧ charAt? e.text x = some c
  /-- A tab is blank up to the next tab stop. -/
  tab : ∀ i, raw[i]? = some '\t' → ∃ x y, e.columns[i]? = some x ∧ e.columns[i + 1]? = some y ∧
    IsLeast {z | x < z ∧ z ≡ 1 [ZMOD tabWidth]} y ∧ ∀ z, x ≤ z → z < y → charAt? e.text z = some ' '

theorem getElem?_scanl_advance (h : k ≤ raw.length) :
    (raw.scanl (advance tabWidth) 1)[k]? = some (displayColumn tabWidth raw k) := by
  rw [List.getElem?_scanl, if_pos h]
  rfl

theorem pairwise_scanl_advance (hw : 1 ≤ tabWidth) (raw : Text) :
    (raw.scanl (advance tabWidth) 1).Pairwise (· < ·) := by
  rw [List.pairwise_iff_getElem]
  intro i j hi hj hij
  have hi' : i ≤ raw.length := by rwa [List.length_scanl, Nat.lt_succ_iff] at hi
  have hj' : j ≤ raw.length := by rwa [List.length_scanl, Nat.lt_succ_iff] at hj
  have hstep := displayColumn_add_le hw (Nat.le_of_lt hij) hj'
  rw [(List.getElem?_eq_some_iff.1 (getElem?_scanl_advance hi')).2,
    (List.getElem?_eq_some_iff.1 (getElem?_scanl_advance hj')).2]
  omega

theorem tab_notMem_shownFrom (tabWidth col : Int) (t : Text) : '\t' ∉ shownFrom tabWidth col t := by
  induction t generalizing col with
  | nil => exact List.not_mem_nil
  | cons c rest ih =>
    rw [shownFrom, List.mem_append]
    rintro (hmem | hmem)
    · have heq := List.eq_of_mem_replicate hmem
      split at heq
      · cases heq
      · exact absurd heq.symm ‹_›
    · exact ih _ hmem

/-- **The expanded line is aligned.** -/
theorem aligned_shown (hw : 1 ≤ tabWidth) (raw : Text) :
    Aligned tabWidth raw ⟨shown tabWidth raw, raw.scanl (advance tabWidth) 1⟩ := by
  have hexpands := expands_shown hw raw
  have hcolumns : ∀ i c, raw[i]? = some c →
      (raw.scanl (advance tabWidth) 1)[i]? = some (displayColumn tabWidth raw i) ∧
        (raw.scanl (advance tabWidth) 1)[i + 1]? =
          some (advance tabWidth (displayColumn tabWidth raw i) c) := by
    intro i c hc
    have hi : i < raw.length := (List.getElem?_eq_some_iff.1 hc).1
    rw [← displayColumn_succ hc]
    exact ⟨getElem?_scanl_advance (Nat.le_of_lt hi), getElem?_scanl_advance hi⟩
  refine ⟨tab_notMem_shownFrom tabWidth 1 raw, List.length_scanl .., List.head?_scanl ..,
    pairwise_scanl_advance hw raw, ?_, ?_, ?_⟩
  · rw [List.getLast?_scanl, hexpands.columns, displayColumn, List.take_length]
    rfl
  · intro i c hc hne
    have hadvance : ∀ x, advance tabWidth x c = x + 1 := fun x => if_neg hne
    obtain ⟨hhere, hnext⟩ := hcolumns i c hc
    rw [hadvance] at hnext
    refine ⟨_, hhere, hnext, ?_⟩
    rw [hexpands.charAt?_eq hw hc (Int.le_refl _) (by rw [displayColumn_succ hc, hadvance]; omega),
      if_neg hne]
  · intro i hc
    obtain ⟨hhere, hnext⟩ := hcolumns i '\t' hc
    refine ⟨_, _, hhere, hnext, isLeast_tabStop hw _, fun z hle hlt => ?_⟩
    exact hexpands.charAt?_eq hw hc hle (displayColumn_succ hc ▸ hlt)

namespace Aligned

/-- A character at a known column, whether it is a tab or not. -/
theorem step (h : Aligned tabWidth raw e) (hw : 1 ≤ tabWidth) (hc : raw[k]? = some c) :
    ∃ x, e.columns[k]? = some x ∧ e.columns[k + 1]? = some (advance tabWidth x c) ∧
      ∀ z, x ≤ z → z < advance tabWidth x c →
        charAt? e.text z = some (if c = '\t' then ' ' else c) := by
  by_cases htab : c = '\t'
  · subst htab
    obtain ⟨x, y, hx, hy, hleast, hblank⟩ := h.tab k hc
    obtain rfl : y = tabStop tabWidth x := hleast.unique (isLeast_tabStop hw x)
    exact ⟨x, hx, hy, hblank⟩
  · obtain ⟨x, hx, hy, hchar⟩ := h.other k c hc htab
    have hadvance : advance tabWidth x c = x + 1 := if_neg htab
    refine ⟨x, hx, hadvance ▸ hy, fun z hle hlt => ?_⟩
    obtain rfl : z = x := by omega
    rw [if_neg htab]
    exact hchar

theorem getElem?_columns (h : Aligned tabWidth raw e) (hw : 1 ≤ tabWidth) (hk : k ≤ raw.length) :
    e.columns[k]? = some (displayColumn tabWidth raw k) := by
  induction k with
  | zero =>
    rw [← List.head?_eq_getElem?, h.head?_columns]
    rfl
  | succ k ih =>
    have hget := List.getElem?_eq_getElem hk
    obtain ⟨x, hx, hnext, -⟩ := h.step hw hget
    obtain rfl : x = displayColumn tabWidth raw k :=
      Option.some.inj (hx.symm.trans (ih (Nat.le_of_lt hk)))
    rw [hnext, displayColumn_succ hget]

theorem expands (h : Aligned tabWidth raw e) (hw : 1 ≤ tabWidth) :
    Expands tabWidth raw e.text := by
  refine ⟨?_, fun k c hc x hle hlt => ?_⟩
  · have hlast := h.getLast?_columns
    rw [List.getLast?_eq_getElem?, h.length_columns, Nat.add_sub_cancel,
      h.getElem?_columns hw (Nat.le_refl _)] at hlast
    exact (Option.some.inj hlast).symm
  · have hk : k < raw.length := (List.getElem?_eq_some_iff.1 hc).1
    have hone := one_le_displayColumn hw raw k
    obtain ⟨y, hy, -, hchar⟩ := h.step hw hc
    obtain rfl : y = displayColumn tabWidth raw k :=
      Option.some.inj (hy.symm.trans (h.getElem?_columns hw (Nat.le_of_lt hk)))
    rw [← hchar x hle (displayColumn_succ hc ▸ hlt), charAt?, if_pos (by omega)]

/-- **Nothing but the expanded line is aligned.** -/
theorem eq_shown (h : Aligned tabWidth raw e) (hw : 1 ≤ tabWidth) :
    e = ⟨shown tabWidth raw, raw.scanl (advance tabWidth) 1⟩ := by
  have htext : e.text = shown tabWidth raw := (h.expands hw).eq (expands_shown hw raw)
  have hcolumns : e.columns = raw.scanl (advance tabWidth) 1 := by
    refine List.ext_getElem? fun k => ?_
    rcases Nat.lt_or_ge raw.length k with hk | hk
    · rw [List.getElem?_eq_none (by rw [h.length_columns]; exact hk),
        List.getElem?_eq_none (by rw [List.length_scanl]; exact hk)]
    · rw [h.getElem?_columns hw hk, getElem?_scanl_advance hk]
  rw [← htext, ← hcolumns]

end Aligned

/-- **Expanding the tabs of a line** does not fail. It gives the one text, with the one list of
columns, that is aligned with the line. -/
theorem expandTabs_aligned (hw : 1 ≤ tabWidth) (raw : Text) :
    ∃ e, expandTabs tabWidth raw = .ok e ∧ Aligned tabWidth raw e ∧
      ∀ e', Aligned tabWidth raw e' → e' = e := by
  refine ⟨_, expandTabs_eq hw raw, aligned_shown hw raw, ?_⟩
  intro e' h
  exact h.eq_shown hw

/-- The second tab stands on a tab stop, and leads to the next one. -/
theorem expandTabs_aligned_stop :
    let raw := "ab\t\tc\td".toList
    let e : Expanded := ⟨"ab      c   d".toList, [1, 2, 3, 5, 9, 10, 13, 14]⟩
    expandTabs 4 raw = .ok e ∧ Aligned 4 raw e ∧ ∀ e', Aligned 4 raw e' → e' = e := by
  intro raw e
  have heq : expandTabs 4 raw = .ok e := by decide
  obtain ⟨e', he', haligned⟩ := expandTabs_aligned (show (1 : Int) ≤ 4 by decide) raw
  obtain rfl : e = e' := Except.ok.inj (heq.symm.trans he')
  exact ⟨heq, haligned⟩

end Marks

end RobotMaze
