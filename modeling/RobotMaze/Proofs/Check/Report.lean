import RobotMaze.Proofs.Check.Spans
import RobotMaze.Proofs.Diagnostic.Frame
import RobotMaze.Proofs.Diagnostic.Marks

/-!
# Showing what the checks find

The checks count columns in characters of the program, and a report shows the program with its tabs
expanded. Here the two meet: whatever the program, a diagnostic of the checks can be shown, and the
marks of each of its labels are right below the characters that the label points at.

What the checks promise is that their labels lie within the source (`Span.InSource`). With that
promise the clamping that the renderer does for labels of any origin changes nothing
(`marked_drawn`), and every label is shown below its line and not as a stray one.

## Main results

* `Renderer.exists_rows_of_inSource` — the rows of a label within the source
* `format_diagnostics` — every diagnostic of the checks is shown, with its marks in place
-/

namespace RobotMaze

open Text Marks

namespace Renderer

variable {r : Renderer} {labels : List Label} {label : Label} {source : Text}

/-- The marks of a label below its line as it is shown: they are in the display columns of the
characters from the start of the label up to its end, and nowhere else. -/
structure Marked (tabWidth : Int) (line : Text) (label : Label) (shown drawn : Text) : Prop where
  length_eq : drawn.length = shown.length
  marks : ∀ x < shown.length, drawn[x]? = some
    (if displayColumn tabWidth line (label.span.start - 1).toNat ≤ x + 1 ∧
        x + 1 < displayColumn tabWidth line (label.span.stop - 1).toNat
      then mark label else ' ')

theorem normalized_of_inSource {span : Span} (h : span.InSource source) :
    span.normalized = span :=
  if_neg (Int.not_lt.2 (Int.le_of_lt h.start_lt_stop))

theorem hasColumns_of_inSource (h : label.span.InSource source) : HasColumns label := by
  have hstart := h.one_le_start
  have hlt := h.start_lt_stop
  rw [HasColumns, normalized_of_inSource h]
  exact ⟨hstart, by omega⟩

/-- **Marks of a label within the source** are not clamped. -/
theorem marked_drawn (hw : 1 ≤ r.tabWidth) (h : label.span.InSource source) :
    Marked r.tabWidth (label.span.sourceLine source) label
      (shown r.tabWidth (label.span.sourceLine source))
      (drawn r.tabWidth (label.span.sourceLine source) label) := by
  have hstart := h.one_le_start
  have hlt := h.start_lt_stop
  have hstop := h.stop_le
  have hcolumns := (expands_shown hw (label.span.sourceLine source)).columns
  generalize label.span.sourceLine source = line at hstop hcolumns ⊢
  have hfirst := one_le_displayColumn hw line (label.span.start - 1).toNat
  have hwithin := displayColumn_add_le hw
    (by omega : (label.span.start - 1).toNat ≤ (label.span.stop - 1).toNat)
    (by omega : (label.span.stop - 1).toNat ≤ line.length)
  have hrest := displayColumn_add_le hw
    (by omega : (label.span.stop - 1).toNat ≤ line.length) (Nat.le_refl _)
  have hdrawn : drawn r.tabWidth line label = underline (shown r.tabWidth line)
      (displayColumn r.tabWidth line (label.span.start - 1).toNat)
      (displayColumn r.tabWidth line (label.span.stop - 1).toNat) [mark label] := by
    simp only [drawn, normalized_of_inSource h]
    rw [Int.min_eq_left (by omega), Int.min_eq_left (by omega)]
  obtain ⟨hlength, hmarks⟩ := getElem?_underline hfirst
    (by omega : _ < displayColumn r.tabWidth line (label.span.stop - 1).toNat)
    (by omega : _ ≤ ((shown r.tabWidth line).length : Int) + 1) (mark label)
  rw [hdrawn]
  exact ⟨hlength, hmarks⟩

/-- **The rows of a label within the source.** Its marks are below its line, with at most the marks
of other labels on the same line between them. -/
theorem exists_rows_of_inSource (hc : 0 ≤ r.contextLines) (hlabel : label ∈ labels)
    (h : label.span.InSource source) :
    ∃ number ∈ r.shownLines labels (splitLines source).length, label.span.line = number ∧
      ∃ before between after, r.rows labels (splitLines source) =
        before ++ .source number (shown r.tabWidth (label.span.sourceLine source)) ::
          (between ++ .marks label (drawn r.tabWidth (label.span.sourceLine source) label) ::
            after) ∧
        ∀ row ∈ between, ∃ (other : Label) (below : Text),
          other.span.line = label.span.line ∧ row = .marks other below := by
  obtain ⟨number, hnumber⟩ := Int.eq_ofNat_of_zero_le (Int.le_trans Int.one_nonneg h.one_le_line)
  have hpos := h.one_le_line
  have hle := h.line_le
  have hshown : number ∈ r.shownLines labels (splitLines source).length :=
    mem_shownLines hc hlabel hnumber (by omega) (by omega)
  have hline : (splitLines source)[number - 1]?.getD [] = label.span.sourceLine source := by
    rw [Span.sourceLine, hnumber, show ((number : Int) - 1).toNat = number - 1 by omega]
  obtain ⟨before, others, hrows⟩ := r.exists_append_of_mem labels (splitLines source) none hshown
  obtain ⟨between, after, hown, hbetween⟩ :=
    r.exists_rowsOfLine_eq hlabel hnumber (label.span.sourceLine source)
  rw [hline, hown] at hrows
  refine ⟨number, hshown, hnumber, before, between, after ++ (others ++
    (strayLabels labels (splitLines source).length).map .stray), ?_, hnumber ▸ hbetween⟩
  simp only [rows, hrows, List.append_assoc, List.cons_append]

/-- The label is shown among the rows: its marks are in a row below the row of its line, with at
most the marks of other labels on the line between the two. The line has its tabs expanded, the
marks are where they belong, and what is written before the line and before the marks is equally
wide. -/
def LabelShown (r : Renderer) (source : Text) (width : Nat) (rows : List Row) (label : Label) :
    Prop :=
  ∃ (before between after : List Row) (number : Nat) (expanded marks : Text),
    rows = before ++ .source number expanded :: (between ++ .marks label marks :: after) ∧
    label.span.line = number ∧ label.span.InSource source ∧
    (∀ row ∈ between, ∃ (other : Label) (below : Text),
      other.span.line = label.span.line ∧ row = .marks other below) ∧
    Expands r.tabWidth (label.span.sourceLine source) expanded ∧
    Marked r.tabWidth (label.span.sourceLine source) label expanded marks ∧
    ∃ gutter pad, gutter.length = pad.length ∧
      (Row.source number expanded).text r width = gutter ++ expanded ∧
      (Row.marks label marks).text r width = pad ++ marks ++ remark label

/-- **A label within the source is shown.** -/
theorem labelShown_rows (hplain : r.theme = ⟨false⟩) (hw : 1 ≤ r.tabWidth)
    (hc : 0 ≤ r.contextLines) (hlabel : label ∈ labels) (h : label.span.InSource source) :
    LabelShown r source (gutterWidth (r.shownLines labels (splitLines source).length))
      (r.rows labels (splitLines source)) label := by
  obtain ⟨number, hshown, hnumber, before, between, after, hrows, hbetween⟩ :=
    exists_rows_of_inSource hc hlabel h
  have hgutters := length_sourceGutter hplain (length_decimal_le_gutterWidth hshown)
  refine ⟨before, between, after, number, _, _, hrows, hnumber, h, hbetween, expands_shown hw _,
    marked_drawn hw h, _, _, hgutters, rfl, ?_⟩
  simp only [Row.text, hplain, Theme.paint, Bool.false_eq_true, if_false]

end Renderer

namespace Check

open Renderer

variable {text : Text} {d : Diagnostic}

theorem labels_ne_nil (h : d ∈ diagnostics text) : d.labels ≠ [] := by
  cases (exact_of_mem_diagnostics h).1 <;> exact List.cons_ne_nil _ _

/-- **Showing what the checks find.** A diagnostic of the checks is shown without an error, none of
its labels as a stray one, and each with its marks below the characters that it points at. -/
theorem format_diagnostics {r : Renderer} (hplain : r.theme = ⟨false⟩) (hw : 1 ≤ r.tabWidth)
    (hc : 0 ≤ r.contextLines) (name : Text) (hd : d ∈ diagnostics text) :
    ∃ width rows,
      r.format d text name = .ok (List.intercalate ['\n'] (r.header d name :: r.bar ::
        (rows.map (Row.text r width) ++ d.notes.map r.noteRow))) ∧
      (∀ label, .stray label ∉ rows) ∧ ∀ label ∈ d.labels, LabelShown r text width rows label := by
  have hlabels := (exact_of_mem_diagnostics hd).2
  have hframe := frameRows_eq hw (fun label hlabel => hasColumns_of_inSource (hlabels label hlabel))
    (splitLines text)
  refine ⟨gutterWidth (r.shownLines d.labels (splitLines text).length),
    r.rows d.labels (splitLines text), ?_, ?_, ?_⟩
  · rw [format, if_neg (by simpa using labels_ne_nil hd), hframe]
    rfl
  · exact not_stray_mem_rows fun label hlabel =>
      ⟨(hlabels label hlabel).one_le_line, (hlabels label hlabel).line_le⟩
  · exact fun label hlabel => labelShown_rows hplain hw hc hlabel (hlabels label hlabel)

-- The tab inside the call takes up one column here, the one before it takes up three.
example : frameRows { tabWidth := 3, contextLines := 0 } (undefinedCall 'g' ⟨1, 2, 7⟩).labels
    (splitLines "\tg(\tx)".toList) = .ok (["   |", " 1 |    g( x)",
      "   |    ^^^^^ expands to nothing"].map String.toList) := by decide +kernel

/-- A call with a tab before it and a tab inside, on tab stops of three columns. -/
theorem format_diagnostics_tabs :
    ∃ (r : Renderer) (d : Diagnostic), r = { tabWidth := 3, contextLines := 0 } ∧
      d = undefinedCall 'g' ⟨1, 2, 7⟩ ∧ d ∈ diagnostics "\tg(\tx)".toList ∧ ∃ width rows,
        r.format d "\tg(\tx)".toList ['p'] = .ok (List.intercalate ['\n'] (r.header d ['p'] ::
          r.bar :: (rows.map (Row.text r width) ++ d.notes.map r.noteRow))) ∧
        (∀ label, .stray label ∉ rows) ∧
        ∀ label ∈ d.labels, LabelShown r "\tg(\tx)".toList width rows label := by
  have hd : undefinedCall 'g' ⟨1, 2, 7⟩ ∈ diagnostics "\tg(\tx)".toList := by decide +kernel
  exact ⟨_, _, rfl, rfl, hd, format_diagnostics rfl (by decide) (by decide) ['p'] hd⟩

end Check

end RobotMaze
