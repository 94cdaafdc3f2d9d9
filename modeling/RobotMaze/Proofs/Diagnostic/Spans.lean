import RobotMaze.Diagnostic.Basic
import RobotMaze.Proofs.Text.Places
import RobotMaze.Text.Lines

/-!
# Spans of a source

A span names a line and two columns, and nothing in it says that there is such a line. This file
says when there is, and which characters the span then points at.

`Span.Covers` is the relation to prove: the span is the place of a part of a line. It is built from
the line inwards, one part of a part after the other (`Span.Covers.sub`). What is read off in the
end is plain: the bounds on the line and the columns (`Span.InSource`), and the characters
(`Span.characters`).
-/

namespace RobotMaze

open Text

namespace Span

variable {source part u : Text} {span : Span}

/-- The line that a span points to; empty if the source has no such line. -/
def sourceLine (source : Text) (span : Span) : Text :=
  (splitLines source)[(span.line - 1).toNat]?.getD []

/-- The characters of the source that a span points at. -/
def characters (source : Text) (span : Span) : Text :=
  ((span.sourceLine source).drop (span.start - 1).toNat).take (span.stop - span.start).toNat

/-- The span points at one character or more of a line of the source. -/
structure InSource (source : Text) (span : Span) : Prop where
  one_le_line : 1 ≤ span.line
  line_le : span.line ≤ (splitLines source).length
  one_le_start : 1 ≤ span.start
  start_lt_stop : span.start < span.stop
  stop_le : span.stop ≤ (span.sourceLine source).length + 1

/-- The span is the place of a part of a line. -/
structure Covers (source : Text) (span : Span) (part : Text) : Prop where
  exists_line : ∃ (n i : Nat) (raw : Text), (splitLines source)[n]? = some raw ∧
    StandsAt part i raw ∧ span.line = n + 1 ∧ span.start = i + 1
  stop_eq : span.stop = span.start + part.length

namespace Covers

theorem of_line {n i : Nat} {raw : Text} (hline : (splitLines source)[n]? = some raw)
    (h : StandsAt part i raw) : Covers source ⟨n + 1, i + 1, i + 1 + part.length⟩ part :=
  ⟨⟨n, i, raw, hline, h, rfl, rfl⟩, rfl⟩

/-- **A part of a part** has a place on the line as well. -/
theorem sub {i : Nat} (h : Covers source span part) (hu : StandsAt u i part) :
    Covers source ⟨span.line, span.start + i, span.start + i + u.length⟩ u := by
  obtain ⟨⟨n, j, raw, hline, hpart, hn, hj⟩, -⟩ := h
  refine ⟨⟨n, j + i, raw, hline, hpart.trans hu, hn, ?_⟩, rfl⟩
  simp only [hj]
  omega

/-- The line of the span, and where on it the part stands. -/
theorem standsAt (h : Covers source span part) :
    StandsAt part (span.start - 1).toNat (span.sourceLine source) := by
  obtain ⟨⟨n, i, raw, hline, hpart, hn, hi⟩, -⟩ := h
  rw [sourceLine, hn, hi, show ((n : Int) + 1 - 1).toNat = n by omega, hline,
    show ((i : Int) + 1 - 1).toNat = i by omega]
  exact hpart

theorem characters_eq (h : Covers source span part) : span.characters source = part := by
  rw [characters, h.stop_eq, show (span.start + part.length - span.start).toNat = part.length by
    omega]
  exact h.standsAt.take_drop

theorem inSource (h : Covers source span part) (hne : part ≠ []) : span.InSource source := by
  have hbound := h.standsAt.add_length_le
  have hlength := List.length_pos_iff.2 hne
  have hstop := h.stop_eq
  obtain ⟨⟨n, i, raw, hline, -, hn, hi⟩, -⟩ := h
  have hlt : n < (splitLines source).length := (List.getElem?_eq_some_iff.1 hline).1
  exact ⟨by omega, by omega, by omega, by omega, by omega⟩

end Covers

end Span

end RobotMaze
