import RobotMaze.Proofs.Text.Scan

/-!
# Unified line breaks

Reading a file unifies its line breaks: a carriage return, alone or before a line feed, becomes a
line feed. This file says what that does to a text. It leaves a text alone exactly if the text has
no carriage return, and it never changes the lines. It can be done before or after line breaks are
taken off the ends.

Unifying goes through a text from the front, and looks at pairs of characters; taking line breaks
off the end starts from there, and looks at single ones. `stripEnd_cons` says from the front what is
done at the end. No pair is cut in two, since both of its characters are taken off.

## Main results

* `unifyNewlines_eq_self_iff` — what is left alone
* `splitLines_unifyNewlines` — the lines stay the same
* `flatten_splitLines_sublist` — lines are the text without line breaks
* `stripNewlines_unifyNewlines` — the ends of the text
-/

namespace RobotMaze

namespace Text

variable {t : Text} {c : Char}

/-! ### One character after another -/

@[simp] theorem unifyNewlines_nil : unifyNewlines [] = [] := rfl

@[simp] theorem unifyNewlines_pair (rest : Text) :
    unifyNewlines ('\r' :: '\n' :: rest) = '\n' :: unifyNewlines rest := rfl

/-- A carriage return that no line feed follows. -/
theorem unifyNewlines_alone {rest : Text} (h : rest.head? ≠ some '\n') :
    unifyNewlines ('\r' :: rest) = '\n' :: unifyNewlines rest := by
  rw [unifyNewlines]
  · rfl
  · rintro rest - rfl
    exact h rfl

theorem unifyNewlines_cons (h : c ≠ '\r') (rest : Text) :
    unifyNewlines (c :: rest) = c :: unifyNewlines rest := by
  rw [unifyNewlines, if_neg h]
  intro _ hc
  exact absurd hc h

/-- Texts by what unifying looks at: the pair of both, a carriage return alone, and all else. -/
@[elab_as_elim] theorem newlineInduction {P : Text → Prop} (nil : P [])
    (pair : ∀ rest, P rest → P ('\r' :: '\n' :: rest))
    (alone : ∀ rest, rest.head? ≠ some '\n' → P rest → P ('\r' :: rest))
    (other : ∀ c rest, c ≠ '\r' → P rest → P (c :: rest)) (t : Text) : P t := by
  -- A pair takes two characters off, so what is known is carried along for both.
  have both : P t ∧ P t.tail := by
    induction t with
    | nil => exact ⟨nil, nil⟩
    | cons c rest ih =>
      refine ⟨?_, ih.1⟩
      by_cases hc : c = '\r'
      · subst hc
        by_cases hrest : rest.head? = some '\n'
        · obtain ⟨tail, rfl⟩ := List.head?_eq_some_iff.1 hrest
          exact pair tail ih.2
        · exact alone rest hrest ih.1
      · exact other c rest hc ih.1
  exact both.1

/-! ### What is left alone -/

theorem notMem_unifyNewlines (t : Text) : '\r' ∉ unifyNewlines t := by
  induction t using newlineInduction with
  | nil => simp
  | pair rest ih => simpa using ih
  | alone rest h ih => simpa [unifyNewlines_alone h] using ih
  | other c rest hc ih => simpa [unifyNewlines_cons hc, Ne.symm hc] using ih

theorem unifyNewlines_eq_self_iff : unifyNewlines t = t ↔ '\r' ∉ t := by
  constructor
  · intro h
    exact h ▸ notMem_unifyNewlines t
  · intro h
    induction t with
    | nil => rfl
    | cons c rest ih =>
      simp only [List.mem_cons, not_or] at h
      rw [unifyNewlines_cons (Ne.symm h.1), ih h.2]

/-! ### Lines -/

/-- **The lines stay the same.** -/
theorem splitLines_unifyNewlines (t : Text) : splitLines (unifyNewlines t) = splitLines t := by
  have hbreak : ∀ rest, splitLines ('\n' :: rest) = [] :: splitLines rest :=
    fun rest => splitLines_append (t := []) (by simp) rest
  induction t using newlineInduction with
  | nil => rfl
  | pair rest ih =>
    rw [unifyNewlines_pair, hbreak, ih]
    rfl
  | alone rest h ih =>
    rw [unifyNewlines_alone h, hbreak, ih, splitLines]
    · rfl
    · rintro rest - rfl
      exact h rfl
  | other c rest hc ih =>
    rw [unifyNewlines_cons hc, splitLines, splitLines, ih]
    · intro _ hc'
      exact absurd hc' hc
    · intro _ hc'
      exact absurd hc' hc

/-- The lines are what is left of the text without its line breaks. -/
theorem flatten_splitLines_sublist (t : Text) : (splitLines t).flatten.Sublist t := by
  induction t using newlineInduction with
  | nil => exact .slnil
  | pair rest ih => exact .cons '\r' (.cons '\n' ih)
  | alone rest h ih =>
    rw [splitLines]
    · exact .cons '\r' ih
    · rintro after - rfl
      exact h rfl
  | other c rest hc ih =>
    by_cases hc' : isLineBreak c = true
    · rw [splitLines, if_pos hc']
      · exact .cons c ih
      · intro after hreturn
        exact absurd hreturn hc
    · have hflatten : (consLine c (splitLines rest)).flatten = c :: (splitLines rest).flatten := by
        cases splitLines rest <;> rfl
      rw [splitLines_cons (Bool.eq_false_iff.2 hc'), hflatten]
      exact .cons_cons c ih

/-! ### The ends of a text -/

/-- Carriage returns and line feeds. -/
def isNewline (c : Char) : Bool := c == '\r' || c == '\n'

/-- A text without carriage returns and line feeds at its end. -/
def stripEnd (t : Text) : Text := (t.reverse.dropWhile isNewline).reverse

theorem stripNewlines_eq_stripEnd (t : Text) :
    stripNewlines t = stripEnd (t.dropWhile isNewline) := rfl

theorem stripEnd_cons (c : Char) (rest : Text) :
    stripEnd (c :: rest) =
      if stripEnd rest = [] ∧ isNewline c = true then [] else c :: stripEnd rest := by
  simp only [stripEnd, List.reverse_cons, List.dropWhile_append, List.isEmpty_iff,
    List.reverse_eq_nil_iff]
  by_cases hrest : rest.reverse.dropWhile isNewline = []
  · by_cases hc : isNewline c = true <;> simp [hrest, hc]
  · simp [hrest]

theorem stripEnd_isPrefix (t : Text) : stripEnd t <+: t := by
  have h := (List.dropWhile_suffix isNewline (l := t.reverse)).reverse
  rwa [List.reverse_reverse] at h

/-- What a text starts with is taken off its end only if nothing is left. -/
theorem head?_stripEnd_ne (h : t.head? ≠ some c) : (stripEnd t).head? ≠ some c := by
  intro hc
  obtain ⟨tail, htail⟩ := List.head?_eq_some_iff.1 hc
  obtain ⟨after, hafter⟩ := stripEnd_isPrefix t
  rw [htail] at hafter
  exact h (hafter ▸ rfl)

theorem unifyNewlines_eq_nil_iff : unifyNewlines t = [] ↔ t = [] := by
  induction t using newlineInduction with
  | nil => simp
  | pair rest ih => simp
  | alone rest h ih => simp [unifyNewlines_alone h]
  | other c rest hc ih => simp [unifyNewlines_cons hc]

theorem stripEnd_unifyNewlines (t : Text) :
    stripEnd (unifyNewlines t) = unifyNewlines (stripEnd t) := by
  have hnewline : isNewline '\n' = true := by decide
  have hreturn : isNewline '\r' = true := by decide
  induction t using newlineInduction with
  | nil => rfl
  | pair rest ih =>
    rw [unifyNewlines_pair, stripEnd_cons, stripEnd_cons, stripEnd_cons, ih]
    by_cases hrest : stripEnd rest = [] <;>
      simp [hrest, hnewline, hreturn, unifyNewlines_eq_nil_iff]
  | alone rest h ih =>
    rw [unifyNewlines_alone h, stripEnd_cons, stripEnd_cons, ih]
    by_cases hrest : stripEnd rest = []
    · simp [hrest, hnewline, hreturn]
    · simp [hrest, unifyNewlines_eq_nil_iff, unifyNewlines_alone (head?_stripEnd_ne h)]
  | other c rest hc ih =>
    rw [unifyNewlines_cons hc, stripEnd_cons, stripEnd_cons, ih]
    by_cases hrest : stripEnd rest = []
    · by_cases hn : isNewline c = true <;> simp [hrest, hn, unifyNewlines_cons hc]
    · simp [hrest, unifyNewlines_eq_nil_iff, unifyNewlines_cons hc]

theorem dropWhile_unifyNewlines (t : Text) :
    (unifyNewlines t).dropWhile isNewline = unifyNewlines (t.dropWhile isNewline) := by
  have hnewline : isNewline '\n' = true := by decide
  have hreturn : isNewline '\r' = true := by decide
  induction t using newlineInduction with
  | nil => rfl
  | pair rest ih => simpa [List.dropWhile_cons, hnewline, hreturn] using ih
  | alone rest h ih =>
    simpa [unifyNewlines_alone h, List.dropWhile_cons, hnewline, hreturn] using ih
  | other c rest hc ih =>
    by_cases hn : isNewline c = true
    · simpa [unifyNewlines_cons hc, List.dropWhile_cons, hn] using ih
    · simp [unifyNewlines_cons hc, hn]

/-- **The ends of a text** lose the same line breaks. -/
theorem stripNewlines_unifyNewlines (t : Text) :
    stripNewlines (unifyNewlines t) = unifyNewlines (stripNewlines t) := by
  rw [stripNewlines_eq_stripEnd, stripNewlines_eq_stripEnd, dropWhile_unifyNewlines,
    stripEnd_unifyNewlines]

end Text

end RobotMaze
