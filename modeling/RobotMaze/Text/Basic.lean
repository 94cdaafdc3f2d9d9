/-!
# Text

Programs, levels and everything read out of them are lists of characters, so that every scanner
of the library is a recursion over a list, and what lists can do texts can do: `List.splitOn` cuts a
text at a separating character, and `List.intercalate` puts parts together again.

The characters are those of the Unicode standard. Half of a surrogate pair is a code point but no
character, so it does not stand in any text, and every text has an encoding (`Utf8.encode`). A
string that holds such a half is outside of what this library speaks about.
-/

namespace RobotMaze

/-- A text is the list of its Unicode characters; surrogates are not among them. -/
abbrev Text := List Char

namespace Text

/-- Each part stands in the text that the parts make up. -/
theorem isInfix_intercalate {separator part : Text} {parts : List Text} (h : part ∈ parts) :
    part <:+: List.intercalate separator parts := by
  induction parts with
  | nil => cases h
  | cons first rest ih =>
    cases rest with
    | nil =>
      rw [List.intercalate_singleton]
      exact List.mem_singleton.1 h ▸ List.infix_refl part
    | cons second rest =>
      rw [List.intercalate_cons_cons]
      rcases List.mem_cons.1 h with rfl | h
      · exact (List.prefix_append part separator).isInfix.trans (List.prefix_append _ _).isInfix
      · exact (ih h).trans (List.suffix_append _ _).isInfix

/-- Every piece is a part of the text that is cut. -/
theorem isInfix_of_mem_splitOn {separator : Char} {t piece : Text}
    (h : piece ∈ List.splitOn separator t) : piece <:+: t := by
  have hpart : piece <:+: List.intercalate [separator] (List.splitOn separator t) :=
    isInfix_intercalate h
  rwa [List.intercalate_splitOn] at hpart

/-- No piece holds the separator. -/
theorem notMem_of_mem_splitOn {separator : Char} {t piece : Text}
    (h : piece ∈ List.splitOn separator t) : separator ∉ piece := by
  induction t generalizing piece with
  | nil => simp at h; simp [h]
  | cons c rest ih =>
    rw [List.splitOn_cons_eq_if_modifyHead] at h
    split at h
    · rcases List.mem_cons.1 h with rfl | h
      · exact List.not_mem_nil
      · exact ih h
    · rename_i hc
      cases hrest : List.splitOn separator rest with
      | nil => exact absurd hrest (List.splitOn_ne_nil separator rest)
      | cons first others =>
        rw [hrest, List.modifyHead_cons] at h
        rcases List.mem_cons.1 h with rfl | h
        · have hne : separator ≠ c := fun hs => hc (beq_iff_eq.2 hs.symm)
          exact List.not_mem_cons_of_ne_of_not_mem hne (ih (hrest ▸ List.mem_cons_self))
        · exact ih (hrest ▸ List.mem_cons_of_mem first h)

/-- A text that holds the separator is longer than each of its pieces. -/
theorem length_lt_of_mem_splitOn {separator : Char} {t piece : Text} (hs : separator ∈ t)
    (h : piece ∈ List.splitOn separator t) : piece.length < t.length := by
  have hpart := isInfix_of_mem_splitOn h
  refine Nat.lt_of_le_of_ne hpart.length_le fun hlength => ?_
  exact notMem_of_mem_splitOn h (hpart.eq_of_length hlength ▸ hs)

/-- The first `n` elements; for a negative `n`, all but the last `-n`. -/
def upTo {α : Type} (n : Int) (l : List α) : List α :=
  if 0 ≤ n then l.take n.toNat else l.take (l.length - (-n).toNat)

end Text

end RobotMaze
