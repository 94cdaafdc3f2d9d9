import RobotMaze.Program.Call

/-!
# What scanners take out of a text

Trimming and taking an argument list give parts of the text that they are given, as cutting at a
separator does (`isInfix_of_mem_splitOn`): contiguous ones, in the order of the text. This file says
which parts, and what is known of them: a trimmed text has nothing left to trim, and an argument has
no comma in it.
-/

namespace RobotMaze

namespace Text

/-! ### Trimming -/

theorem isSuffix_trimStart (t : Text) : trimStart t <:+ t := List.dropWhile_suffix _

theorem isPrefix_trimEnd (t : Text) : trimEnd t <+: t := by
  rw [← List.reverse_suffix, trimEnd, List.reverse_reverse]
  exact List.dropWhile_suffix _

/-- What is left by trimming is a part of the text. -/
theorem isInfix_trim (t : Text) : trim t <:+: t :=
  (isPrefix_trimEnd _).isInfix.trans (isSuffix_trimStart t).isInfix

theorem head?_trimStart (t : Text) : ∀ c ∈ (trimStart t).head?, isBlank c = false := by
  intro c hc
  have h := List.head?_dropWhile_not isBlank t
  rw [trimStart] at hc
  rw [Option.mem_def.1 hc] at h
  simpa using h

theorem trimStart_of_head? {t : Text} (h : ∀ c ∈ t.head?, isBlank c = false) :
    trimStart t = t := by
  cases t with
  | nil => rfl
  | cons c t => exact List.dropWhile_cons_of_neg (by simp [h c rfl])

theorem trimEnd_trimEnd (t : Text) : trimEnd (trimEnd t) = trimEnd t := by
  have h := trimStart_of_head? (head?_trimStart t.reverse)
  simp only [trimStart] at h
  rw [trimEnd, trimEnd, List.reverse_reverse, h]

/-- At the end of two texts, the first is trimmed only if nothing is left of the second. -/
theorem trimEnd_append (t u : Text) :
    trimEnd (t ++ u) = if trimEnd u = [] then trimEnd t else t ++ trimEnd u := by
  simp only [trimEnd, List.reverse_append, List.dropWhile_append, List.isEmpty_iff,
    List.reverse_eq_nil_iff]
  split
  · rfl
  · rw [List.reverse_append, List.reverse_reverse]

theorem trimEnd_cons {c : Char} (h : isBlank c = false) (t : Text) :
    trimEnd (c :: t) = c :: trimEnd t := by
  have hlast : trimEnd [c] = [c] := by simp [trimEnd, h]
  rw [← List.singleton_append, trimEnd_append, hlast]
  split
  · rename_i hnil
    rw [hnil]
  · rfl

/-- A trimmed text has nothing left to trim. -/
theorem trim_trim (t : Text) : trim (trim t) = trim t := by
  have hstart : trimStart (trim t) = trim t := by
    refine trimStart_of_head? fun c hc => ?_
    -- The first character of the trimmed text is the first one that is not white space.
    obtain ⟨rest, hrest⟩ := isPrefix_trimEnd (trimStart t)
    refine head?_trimStart t c ?_
    rw [trim] at hc
    rw [← hrest, List.head?_append, Option.mem_def.1 hc]
    rfl
  rw [trim, hstart, trim, trimEnd_trimEnd]

end Text

namespace Call

open Text

/-! ### Argument lists -/

/-- A text that starts with no parenthesis has no argument list. -/
theorem takeArguments_of_ne {t : Text} (h : ∀ inside, t ≠ '(' :: inside) :
    takeArguments t = ([], t) := by
  unfold takeArguments
  split
  · exact absurd rfl (h _)
  · rfl

theorem isInfix_takeArguments_fst (t : Text) : (takeArguments t).1 <:+: t := by
  unfold takeArguments
  split
  · split
    · rename_i inside _ n _
      have htake : inside.take n <+: inside := List.take_prefix n inside
      exact List.infix_cons htake.isInfix
    · exact List.infix_cons List.infix_rfl
  · exact List.nil_infix

theorem isSuffix_takeArguments_snd (t : Text) : (takeArguments t).2 <:+ t := by
  unfold takeArguments
  split
  · split
    · exact (List.drop_suffix _ _).trans (List.suffix_cons _ _)
    · exact List.nil_suffix
  · exact List.suffix_refl _

/-- An argument is a trimmed part of its argument list, without a comma. -/
theorem of_mem_arguments {argsText arg : Text} (h : arg ∈ arguments argsText) :
    trim arg = arg ∧ ',' ∉ arg ∧ arg <:+: argsText := by
  unfold arguments at h
  split at h
  · simp at h
  · obtain ⟨piece, hpiece, rfl⟩ := List.mem_map.1 h
    have hpart : trim piece <:+: piece := isInfix_trim piece
    refine ⟨trim_trim piece, fun hc => ?_, hpart.trans (isInfix_of_mem_splitOn hpiece)⟩
    exact notMem_of_mem_splitOn hpiece (hpart.subset hc)

end Call

end RobotMaze
