import RobotMaze.Diagnostic.Render
import RobotMaze.Proofs.Diagnostic.Columns

/-!
# The frame of a diagnostic

Drawing a frame can fail in two places, at a tab and at a column of a label, and it gives texts in
which nothing tells a source line from the marks below it. Here a frame is taken apart before it is
written out: `Renderer.rows` lists its rows, with what each of them shows, and `Row.text` writes one
of them. As long as tabs lead forward and the labels have columns, nothing fails, and the frame is
these rows (`frameRows_eq`).

The rest is about the list. A line that is shown has its rows side by side in it
(`exists_append_of_mem`), a frame of labels within the source has no rows for stray labels
(`not_stray_mem_rows`), and the gutters of a line and of the marks below it are equally wide, so
that a mark is right below the column that it is drawn for (`length_sourceGutter`).
-/

namespace RobotMaze

namespace Renderer

open Text Marks

variable {r : Renderer} {labels : List Label} {lines : List Text} {label : Label}
  {width number : Nat} {line : Text}

/-! ### Rows -/

/-- A row of a frame below its first one. -/
inductive Row where
  /-- Lines are left out here. -/
  | ellipsis
  /-- A line of the source, with its tabs expanded. -/
  | source (number : Nat) (shown : Text)
  /-- The marks of a label. -/
  | marks (label : Label) (drawn : Text)
  /-- A label on a line that the source does not have. -/
  | stray (label : Label)
deriving DecidableEq

/-- What is written before a line of the source. -/
def sourceGutter (r : Renderer) (width number : Nat) : Text :=
  if r.showGutter then
    ' ' :: r.theme.paint "gutter" (List.leftpad width ' ' (decimal number)) ++ " | ".toList
  else []

/-- What is written before the marks of a label. -/
def marksGutter (r : Renderer) (width : Nat) : Text :=
  if r.showGutter then r.theme.paint "gutter" (List.replicate (width + 1) ' ' ++ " | ".toList)
  else []

/-- The row written out. -/
def Row.text (r : Renderer) (width : Nat) : Row → Text
  | .ellipsis => r.ellipsisRow width
  | .source number shown => r.sourceGutter width number ++ shown
  | .marks label drawn => r.marksGutter width ++ r.theme.paint label.kind drawn ++ remark label
  | .stray label => r.strayRow label

/-- The mark that a label is drawn with. -/
def mark (label : Label) : Char := if label.isPrimary then '^' else '~'

/-- The marks of a label below a line, between the display columns of its columns. -/
def drawn (tabWidth : Int) (line : Text) (label : Label) : Text :=
  let displayed := fun col : Int =>
    displayColumn tabWidth line (min col (line.length + 1) - 1).toNat
  underline (shown tabWidth line) (displayed label.span.normalized.start)
    (displayed label.span.normalized.stop) [mark label]

/-- The rows of one line. -/
def rowsOfLine (r : Renderer) (labels : List Label) (number : Nat) (line : Text) : List Row :=
  .source number (shown r.tabWidth line) ::
    (labelsOn labels number).map fun label => .marks label (drawn r.tabWidth line label)

/-- The rows of the lines with the given numbers; `previous` is the line shown before them. -/
def rowsOfLines (r : Renderer) (labels : List Label) (lines : List Text) :
    Option Nat → List Nat → List Row
  | _, [] => []
  | previous, number :: numbers =>
    (if previous.any (· + 1 ≠ number) then [.ellipsis] else []) ++
      r.rowsOfLine labels number ((lines[number - 1]?).getD []) ++
        r.rowsOfLines labels lines (some number) numbers

/-- The rows of a frame below its first one. -/
def rows (r : Renderer) (labels : List Label) (lines : List Text) : List Row :=
  r.rowsOfLines labels lines none (r.shownLines labels lines.length) ++
    (strayLabels labels lines.length).map .stray

/-! ### Drawing the frame -/

theorem mapM_eq_map {ε α β : Type} {f : α → Except ε β} {g : α → β} {l : List α}
    (h : ∀ a ∈ l, f a = .ok (g a)) : l.mapM f = .ok (l.map g) := by
  induction l with
  | nil => rfl
  | cons a l ih =>
    have hfirst := h a List.mem_cons_self
    have hrest := ih fun b hb => h b (List.mem_cons_of_mem a hb)
    rw [List.mapM_cons, hfirst, hrest]
    rfl

/-- A label has columns: it does not point before the first one of its line. -/
def HasColumns (label : Label) : Prop :=
  1 ≤ label.span.normalized.start ∧ 1 ≤ label.span.normalized.stop

theorem labelRow_eq (width : Nat) (line : Text) (h : HasColumns label) :
    r.labelRow width ⟨shown r.tabWidth line, line.scanl (advance r.tabWidth) 1⟩ label =
      .ok ((Row.marks label (drawn r.tabWidth line label)).text r width) := by
  have hmarks : marks ⟨shown r.tabWidth line, line.scanl (advance r.tabWidth) 1⟩ label =
      .ok (drawn r.tabWidth line label) := by
    rw [marks]
    simp only [column_eq _ _ _ h.1, column_eq _ _ _ h.2]
    rfl
  rw [labelRow, hmarks]
  rfl

theorem mem_labelsOn :
    label ∈ labelsOn labels number ↔ label ∈ labels ∧ label.span.line = number := by
  simp only [labelsOn, List.mem_append, List.mem_filter, decide_eq_true_eq, Bool.not_eq_true']
  cases label.isPrimary <;> simp

theorem lineRows_eq (hw : 1 ≤ r.tabWidth) (h : ∀ label ∈ labels, HasColumns label) (width : Nat)
    (number : Nat) (line : Text) :
    r.lineRows width labels number line =
      .ok ((r.rowsOfLine labels number line).map (Row.text r width)) := by
  have hlabels : (labelsOn labels number).mapM
      (r.labelRow width ⟨shown r.tabWidth line, line.scanl (advance r.tabWidth) 1⟩) =
        .ok ((labelsOn labels number).map fun label =>
          (Row.marks label (drawn r.tabWidth line label)).text r width) :=
    mapM_eq_map fun label hlabel => labelRow_eq width line (h label (mem_labelsOn.1 hlabel).1)
  have hsource : r.sourceRow width number (shown r.tabWidth line) =
      (Row.source number (shown r.tabWidth line)).text r width := by
    simp only [sourceRow, Row.text, sourceGutter]
    split <;> simp
  rw [lineRows, expandTabs_eq hw]
  simp only [bind, Except.bind, hlabels, hsource, rowsOfLine, List.map_cons, List.map_map]
  rfl

theorem codeRows_eq (hw : 1 ≤ r.tabWidth) (h : ∀ label ∈ labels, HasColumns label) (width : Nat)
    (lines : List Text) (previous : Option Nat) (numbers : List Nat) :
    r.codeRows width labels lines previous numbers =
      .ok ((r.rowsOfLines labels lines previous numbers).map (Row.text r width)) := by
  induction numbers generalizing previous with
  | nil => rfl
  | cons number numbers ih =>
    rw [codeRows, lineRows_eq hw h, rowsOfLines]
    simp only [bind, Except.bind, ih, pure, Except.pure, List.map_append]
    split <;> rfl

/-- **Drawing a frame** does not fail if tabs lead forward and the labels have columns. -/
theorem frameRows_eq (hw : 1 ≤ r.tabWidth) (h : ∀ label ∈ labels, HasColumns label)
    (lines : List Text) :
    r.frameRows labels lines = .ok (r.bar :: (r.rows labels lines).map
      (Row.text r (gutterWidth (r.shownLines labels lines.length)))) := by
  rw [frameRows, codeRows_eq hw h, rows, List.map_append, List.map_map]
  rfl

/-! ### The rows of a line -/

/-- A label on a line has its marks below it, after those of other labels on the line at most. -/
theorem exists_rowsOfLine_eq (r : Renderer) (hlabel : label ∈ labels)
    (hline : label.span.line = number) (line : Text) :
    ∃ between after, r.rowsOfLine labels number line =
        .source number (shown r.tabWidth line) ::
          (between ++ .marks label (drawn r.tabWidth line label) :: after) ∧
      ∀ row ∈ between, ∃ (other : Label) (below : Text),
        other.span.line = number ∧ row = .marks other below := by
  obtain ⟨sooner, later, hon⟩ := List.append_of_mem (mem_labelsOn.2 ⟨hlabel, hline⟩)
  refine ⟨sooner.map fun other => .marks other (drawn r.tabWidth line other),
    later.map fun other => .marks other (drawn r.tabWidth line other), ?_, ?_⟩
  · rw [rowsOfLine, hon, List.map_append, List.map_cons]
  · intro row hrow
    obtain ⟨other, hother, rfl⟩ := List.mem_map.1 hrow
    have hmem : other ∈ labelsOn labels number := hon ▸ List.mem_append_left _ hother
    exact ⟨other, _, (mem_labelsOn.1 hmem).2, rfl⟩

/-- A line that is shown has its rows side by side. -/
theorem exists_append_of_mem (r : Renderer) (labels : List Label) (lines : List Text)
    {numbers : List Nat} (previous : Option Nat) (h : number ∈ numbers) :
    ∃ before after, r.rowsOfLines labels lines previous numbers =
      before ++ (r.rowsOfLine labels number ((lines[number - 1]?).getD []) ++ after) := by
  induction numbers generalizing previous with
  | nil => cases h
  | cons first numbers ih =>
    rw [rowsOfLines]
    rcases List.mem_cons.1 h with rfl | h
    · exact ⟨_, _, List.append_assoc ..⟩
    · obtain ⟨before, after, heq⟩ := ih (some first) h
      rw [heq, ← List.append_assoc]
      exact ⟨_, after, rfl⟩

theorem not_stray_mem_rowsOfLines (label : Label) (previous : Option Nat) (numbers : List Nat) :
    .stray label ∉ r.rowsOfLines labels lines previous numbers := by
  induction numbers generalizing previous with
  | nil => exact List.not_mem_nil
  | cons number numbers ih =>
    rw [rowsOfLines, List.mem_append, List.mem_append]
    rintro ((h | h) | h)
    · split at h <;> simp at h
    · simp [rowsOfLine] at h
    · exact ih (some number) h

/-- **No stray labels.** Labels on lines of the source are shown at these lines. -/
theorem not_stray_mem_rows
    (h : ∀ label ∈ labels, 1 ≤ label.span.line ∧ label.span.line ≤ lines.length) (label : Label) :
    .stray label ∉ r.rows labels lines := by
  have hnone : strayLabels labels lines.length = [] := by
    have hin : ∀ label ∈ labels,
        ¬(!(decide (1 ≤ label.span.line) && decide (label.span.line ≤ lines.length))) = true := by
      intro label hlabel
      simp [h label hlabel]
    rw [strayLabels, List.filter_eq_nil_iff.2 hin, List.mergeSort_nil]
  rw [rows, hnone, List.map_nil, List.append_nil]
  exact not_stray_mem_rowsOfLines label none _

/-- The line of a label is shown. -/
theorem mem_shownLines (hc : 0 ≤ r.contextLines) (hlabel : label ∈ labels)
    (hline : label.span.line = number) (hpos : 1 ≤ number) (hle : number ≤ lines.length) :
    number ∈ r.shownLines labels lines.length := by
  refine List.mem_filter.2 ⟨List.mem_range'_1.2 ⟨hpos, by omega⟩, ?_⟩
  refine List.any_eq_true.2 ⟨label, hlabel, ?_⟩
  simp only [hline, Bool.and_eq_true, decide_eq_true_eq]
  omega

/-! ### Gutters -/

theorem length_decimal_le {m n : Nat} (h : m ≤ n) :
    (decimal m).length ≤ (decimal n).length := by
  have hn : n < 10 ^ n.repr.length := (Nat.length_repr_le_iff Nat.length_repr_pos).1 (Nat.le_refl _)
  exact (Nat.length_repr_le_iff Nat.length_repr_pos).2 (Nat.lt_of_le_of_lt h hn)

/-- The column of line numbers has room for every number in it. -/
theorem length_decimal_le_gutterWidth (h : number ∈ r.shownLines labels lines.length) :
    (decimal number).length ≤ gutterWidth (r.shownLines labels lines.length) := by
  have hsorted : (r.shownLines labels lines.length).Pairwise (· < ·) :=
    List.Pairwise.filter _ (List.pairwise_lt_range' 1)
  obtain ⟨before, last, heq⟩ :=
    (List.eq_nil_or_concat _).resolve_left (List.ne_nil_of_mem h)
  rw [List.concat_eq_append] at heq
  rw [heq] at h hsorted
  have hle : number ≤ last := by
    rcases List.mem_append.1 h with h | h
    · have := (List.pairwise_append.1 hsorted).2.2 number h last List.mem_cons_self
      omega
    · exact Nat.le_of_eq (List.mem_singleton.1 h)
  rw [heq, gutterWidth, List.getLast?_concat]
  exact length_decimal_le hle

/-- **Gutters** are equally wide before a line and before the marks below it. -/
theorem length_sourceGutter (htheme : r.theme = ⟨false⟩)
    (hroom : (decimal number).length ≤ width) :
    (r.sourceGutter width number).length = (r.marksGutter width).length := by
  rw [sourceGutter, marksGutter, htheme]
  split
  · have hpad : (List.leftpad width ' ' (decimal number)).length = width := by
      rw [List.length_leftpad, Nat.max_eq_left hroom]
    simp only [Theme.paint, Bool.false_eq_true, if_false, List.length_cons, List.length_append,
      List.length_replicate, hpad]
  · rfl

end Renderer

end RobotMaze
