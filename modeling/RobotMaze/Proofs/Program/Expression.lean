import RobotMaze.Expression
import RobotMaze.Proofs.Text.Scan

/-!
# The value of an expression

`Expression.evaluate` tries five forms in turn. This file has one equation for each of them, in
terms of the trimmed text alone. With them a proof about values follows the induction of `evaluate`
and never unfolds it.
-/

namespace RobotMaze

open Text

/-- The three ways to write a numeral: digits alone, or after a sign. -/
theorem Numeral.cases_of_signed? {t digits : Text} {negative : Bool}
    (h : signed? t = some (negative, digits)) :
    (digits ≠ [] ∧ ∀ c ∈ digits, isDigit c = true) ∧
      (t = digits ∧ negative = false ∨ t = '-' :: digits ∧ negative = true ∨
        t = '+' :: digits ∧ negative = false) := by
  have hsign : t = (splitSign t).2 ∧ (splitSign t).1 = false ∨
      t = '-' :: (splitSign t).2 ∧ (splitSign t).1 = true ∨
        t = '+' :: (splitSign t).2 ∧ (splitSign t).1 = false := by
    unfold splitSign
    split
    · exact .inr (.inl ⟨rfl, rfl⟩)
    · exact .inr (.inr ⟨rfl, rfl⟩)
    · exact .inl ⟨rfl, rfl⟩
  unfold signed? at h
  simp only at h
  split at h
  · rename_i hdigits
    simp only [Option.some.injEq, Prod.mk.injEq] at h
    rw [Bool.and_eq_true, List.all_eq_true, Bool.not_eq_true', List.isEmpty_eq_false_iff] at hdigits
    rw [h.1, h.2] at hsign
    exact ⟨h.2 ▸ hdigits, hsign⟩
  · cases h

namespace Expression

variable {scope : Scope} {expr : Text}

/-- A numeral has its value. -/
theorem evaluate_of_signed? {negative : Bool} {digits : Text}
    (h : Numeral.signed? (trim expr) = some (negative, digits)) :
    evaluate scope expr = Numeral.value negative digits := by
  rw [evaluate]
  simp only [h]

/-- A letter has the number that it is bound to. -/
theorem evaluate_of_letter? {c : Char} (hs : Numeral.signed? (trim expr) = none)
    (h : letter? (trim expr) = some c) : evaluate scope expr = .ok (scope.number [c]) := by
  rw [evaluate]
  simp only [hs, h]

/-- The values of some texts do not depend on how they are worked out. -/
theorem mapM_congr {α β : Type} {f g : α → Except Numeral.TooLong β} {l : List α}
    (h : ∀ a ∈ l, f a = g a) : l.mapM f = l.mapM g := by
  induction l with
  | nil => rfl
  | cons a l ih =>
    rw [List.mapM_cons, List.mapM_cons, h a List.mem_cons_self,
      ih fun b hb => h b (List.mem_cons_of_mem a hb)]

/-- Between plus signs there are terms of a sum. -/
theorem evaluate_of_plus (hs : Numeral.signed? (trim expr) = none)
    (hl : letter? (trim expr) = none) (h : '+' ∈ trim expr) :
    evaluate scope expr = (do
      let terms ← (List.splitOn '+' (trim expr)).mapM (evaluate scope)
      return terms.foldr (· + ·) 0) := by
  rw [evaluate]
  simp only [hs, hl, dif_pos h]
  rw [List.mapM_subtype (g := evaluate scope) (by simp), List.unattach_attach]

/-- Two terms with a minus sign between them make a difference. -/
theorem evaluate_of_minus {a b : Text} (hs : Numeral.signed? (trim expr) = none)
    (hl : letter? (trim expr) = none) (hp : '+' ∉ trim expr)
    (h : List.splitOn '-' (trim expr) = [a, b]) :
    evaluate scope expr = (do
      let x ← evaluate scope a
      let y ← evaluate scope b
      return x - y) := by
  have hm : '-' ∈ trim expr := by
    refine Decidable.byContradiction fun hm => ?_
    rw [List.splitOn_eq_singleton hm] at h
    cases h
  rw [evaluate]
  simp only [hs, hl, dif_neg hp, dif_pos hm]
  split
  · rename_i heq
    rw [h] at heq
    cases heq
    rfl
  · rename_i hother
    exact absurd h (hother a b)

/-- Anything else is zero. -/
theorem evaluate_of_other (hs : Numeral.signed? (trim expr) = none)
    (hl : letter? (trim expr) = none) (hp : '+' ∉ trim expr)
    (h : ∀ a b, List.splitOn '-' (trim expr) ≠ [a, b]) : evaluate scope expr = .ok 0 := by
  rw [evaluate]
  by_cases hm : '-' ∈ trim expr
  · simp only [hs, hl, dif_neg hp, dif_pos hm]
  · simp only [hs, hl, dif_neg hp, dif_neg hm]

end Expression

end RobotMaze
