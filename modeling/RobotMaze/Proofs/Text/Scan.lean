import RobotMaze.Program.Call
import RobotMaze.Text.Lines

/-!
# Scanning plain text

Every scanner of program text looks for certain characters: line breaks, white space, separators,
parentheses. This file says what a scanner does with a text that has none of the characters it looks
for: it takes the text as it is. With these laws a program can be read whose parts are known only by
the characters that they do not contain.
-/

namespace RobotMaze

namespace Text

variable {t : Text}

/-! ### Lines -/

theorem splitLines_cons {c : Char} (h : isLineBreak c = false) (rest : Text) :
    splitLines (c :: rest) = consLine c (splitLines rest) := by
  have hr : c ≠ '\r' := by
    rintro rfl
    exact absurd h (by decide)
  rw [splitLines, h]
  · rfl
  · intro _ hc
    exact absurd hc hr

/-- A text without line breaks is one line. -/
theorem splitLines_of_forall (h : ∀ c ∈ t, isLineBreak c = false) (ht : t ≠ []) :
    splitLines t = [t] := by
  induction t with
  | nil => exact absurd rfl ht
  | cons c t ih =>
    rw [splitLines_cons (h c List.mem_cons_self)]
    cases t with
    | nil => rfl
    | cons d t =>
      rw [ih (fun x hx => h x (List.mem_cons_of_mem c hx)) (by simp)]
      rfl

/-- A text without line breaks is the line before a line feed that follows it. -/
theorem splitLines_append (h : ∀ c ∈ t, isLineBreak c = false) (rest : Text) :
    splitLines (t ++ '\n' :: rest) = t :: splitLines rest := by
  induction t with
  | nil =>
    rw [List.nil_append, splitLines]
    · rfl
    · intro _ hc
      exact absurd hc (by decide)
  | cons c t ih =>
    rw [List.cons_append, splitLines_cons (h c List.mem_cons_self),
      ih fun x hx => h x (List.mem_cons_of_mem c hx)]
    rfl

/-! ### White space and separators -/

theorem dropWhile_isBlank (h : ∀ c ∈ t, isBlank c = false) : t.dropWhile isBlank = t := by
  cases t with
  | nil => rfl
  | cons c t => exact List.dropWhile_cons_of_neg (by simp [h c List.mem_cons_self])

/-- A text without white space has nothing to trim. -/
theorem trim_of_forall (h : ∀ c ∈ t, isBlank c = false) : trim t = t := by
  have hreverse : ∀ c ∈ t.reverse, isBlank c = false := fun c hc => h c (List.mem_reverse.1 hc)
  rw [trim, trimStart, dropWhile_isBlank h, trimEnd, dropWhile_isBlank hreverse,
    List.reverse_reverse]

/-- There is one piece more than there are separators. -/
theorem length_splitOn (separator : Char) (t : Text) :
    (List.splitOn separator t).length = t.count separator + 1 := by
  induction t with
  | nil => rfl
  | cons c t ih =>
    rw [List.splitOn_cons_eq_if_modifyHead, List.count_cons]
    split
    · rw [List.length_cons, ih]
    · rw [List.length_modifyHead, ih, Nat.add_zero]

end Text

namespace Call

variable {inside : Text}

theorem closingDistance_append (h : ∀ c ∈ inside, c ≠ '(' ∧ c ≠ ')') (rest : Text) :
    closingDistance 1 (inside ++ ')' :: rest) = some inside.length := by
  induction inside with
  | nil => simp [closingDistance]
  | cons c inside ih =>
    obtain ⟨hopen, hclose⟩ := h c List.mem_cons_self
    rw [List.cons_append, closingDistance, if_neg hopen, if_neg hclose,
      ih fun x hx => h x (List.mem_cons_of_mem c hx)]
    rfl

/-- An argument list without parentheses inside ends at the first closing one. -/
theorem takeArguments_append (h : ∀ c ∈ inside, c ≠ '(' ∧ c ≠ ')') (rest : Text) :
    takeArguments ('(' :: (inside ++ ')' :: rest)) = (inside, rest) := by
  simp [takeArguments, closingDistance_append h]

end Call

end RobotMaze
