import RobotMaze.Proofs.Text.Newlines
import RobotMaze.Proofs.Text.Places

/-!
# Joined lines

Lines that are joined by line feeds make a text, and splitting that text gives the lines back. Two
things can get in the way. A text does not show whether an empty line follows its last line feed, so
an empty last line gets lost. And where line breaks are taken off the ends of the text, empty lines
at either end get lost with them.

## Main results

* `splitLines_joined`, `splitLines_joined_of_ne_nil` — lines that are joined and split again
* `stripNewlines_joined` — joined lines that keep their ends
-/

namespace RobotMaze

namespace Text

variable {t : Text} {lines : List Text}

/-! ### Splitting again -/

/-- Lines that are joined and split again are the same lines, less an empty last one. -/
theorem splitLines_joined
    (h : ∀ line ∈ lines, ∀ c ∈ line, isLineBreak c = false) :
    lines = splitLines (List.intercalate ['\n'] lines) ∨
      lines = splitLines (List.intercalate ['\n'] lines) ++ [[]] := by
  induction lines with
  | nil => exact .inl rfl
  | cons line lines ih =>
    obtain ⟨hline, hlines⟩ := List.forall_mem_cons.1 h
    cases lines with
    | nil =>
      rw [List.intercalate_singleton]
      by_cases hne : line = []
      · exact .inr (by rw [hne]; rfl)
      · exact .inl (splitLines_of_forall hline hne).symm
    | cons next lines =>
      have hsplit : splitLines (List.intercalate ['\n'] (line :: next :: lines)) =
          line :: splitLines (List.intercalate ['\n'] (next :: lines)) := by
        rw [List.intercalate_cons_cons, List.append_assoc]
        exact splitLines_append hline _
      rw [hsplit, List.cons_append, List.cons_inj_right, List.cons_inj_right]
      exact ih hlines

/-- Lines that are joined and split again are the same lines, if none of them is empty. -/
theorem splitLines_joined_of_ne_nil (hne : ∀ line ∈ lines, line ≠ [])
    (h : ∀ line ∈ lines, ∀ c ∈ line, isLineBreak c = false) :
    splitLines (List.intercalate ['\n'] lines) = lines := by
  rcases splitLines_joined h with hlines | hlines
  · exact hlines.symm
  · have hmem : [] ∈ lines := by
      rw [hlines]
      exact List.mem_append_right _ List.mem_cons_self
    exact absurd rfl (hne [] hmem)

/-! ### The ends of joined lines -/

/-- A text that neither starts nor ends with a carriage return or a line feed keeps its ends. -/
theorem stripNewlines_eq_self (hfirst : ∀ c ∈ t.head?, isNewline c = false)
    (hlast : ∀ c ∈ t.getLast?, isNewline c = false) : stripNewlines t = t := by
  have hdrop : ∀ u : Text, (∀ c ∈ u.head?, isNewline c = false) → u.dropWhile isNewline = u := by
    intro u hu
    cases u with
    | nil => rfl
    | cons c u => exact List.dropWhile_cons_of_neg (by simp [hu c rfl])
  rw [stripNewlines_eq_stripEnd, hdrop t hfirst, stripEnd, hdrop, List.reverse_reverse]
  rwa [List.head?_reverse]

theorem exists_joined_cons (separator first : Text) (rest : List Text) :
    ∃ more, List.intercalate separator (first :: rest) = first ++ more := by
  cases rest with
  | nil => exact ⟨[], by rw [List.intercalate_singleton, List.append_nil]⟩
  | cons next rest =>
    exact ⟨_, by rw [List.intercalate_cons_cons, List.append_assoc]⟩

theorem isNewline_of_isLineBreak {c : Char} (h : isLineBreak c = false) : isNewline c = false := by
  rw [isNewline, Bool.or_eq_false_iff, beq_eq_false_iff_ne, beq_eq_false_iff_ne]
  constructor <;> rintro rfl <;> exact absurd h (by decide)

theorem isLineBreak_head?_joined (hne : ∀ line ∈ lines, line ≠ [])
    (hbreak : ∀ line ∈ lines, ∀ c ∈ line, isLineBreak c = false) :
    ∀ c ∈ (List.intercalate ['\n'] lines).head?, isLineBreak c = false := by
  intro c hc
  cases lines with
  | nil => cases hc
  | cons line lines =>
    obtain ⟨more, hmore⟩ := exists_joined_cons ['\n'] line lines
    have hhead : (line ++ more).head? = line.head? := by
      cases line with
      | nil => exact absurd rfl (hne [] List.mem_cons_self)
      | cons => rfl
    rw [hmore, hhead] at hc
    exact hbreak line List.mem_cons_self c (List.mem_of_head? hc)

theorem isLineBreak_getLast?_joined (hne : ∀ line ∈ lines, line ≠ [])
    (hbreak : ∀ line ∈ lines, ∀ c ∈ line, isLineBreak c = false) :
    ∀ c ∈ (List.intercalate ['\n'] lines).getLast?, isLineBreak c = false := by
  induction lines with
  | nil => simp
  | cons line lines ih =>
    obtain ⟨hline, hlines⟩ := List.forall_mem_cons.1 hne
    obtain ⟨hline', hlines'⟩ := List.forall_mem_cons.1 hbreak
    cases lines with
    | nil =>
      rw [List.intercalate_singleton]
      exact fun c hc => hline' c (List.mem_of_getLast? hc)
    | cons next lines =>
      have hjoined : List.intercalate ['\n'] (next :: lines) ≠ [] := by
        obtain ⟨more, hmore⟩ := exists_joined_cons ['\n'] next lines
        rw [hmore]
        exact List.append_ne_nil_of_left_ne_nil (hlines next List.mem_cons_self) more
      rw [List.intercalate_cons_cons, List.getLast?_append,
        Option.or_of_isSome (List.getLast?_isSome.2 hjoined)]
      exact ih hlines hlines'

/-- Lines that are joined keep their ends. -/
theorem stripNewlines_joined (hne : ∀ line ∈ lines, line ≠ [])
    (hbreak : ∀ line ∈ lines, ∀ c ∈ line, isLineBreak c = false) :
    stripNewlines (List.intercalate ['\n'] lines) = List.intercalate ['\n'] lines :=
  stripNewlines_eq_self
    (fun c hc => isNewline_of_isLineBreak (isLineBreak_head?_joined hne hbreak c hc))
    (fun c hc => isNewline_of_isLineBreak (isLineBreak_getLast?_joined hne hbreak c hc))

end Text

end RobotMaze
