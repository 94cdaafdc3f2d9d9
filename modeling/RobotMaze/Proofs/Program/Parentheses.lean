import RobotMaze.Proofs.Text.Places

/-!
# Matching parentheses

`Call.closingParen?` is asked about a position in a text and answers with another one. It walks on
from the parenthesis and counts, and it answers with the length of the text if the count does not
come back to zero. This file says which position that is without counting along. Up to it, more
parentheses are opened than closed, however far one reads; it is a position of the text exactly if
the count comes to be even, and then the parenthesis there is the one that does it.

## Nothing that closes, nothing closed

`Call.Closes` is about the text behind the parenthesis. If no character of it closes the
parenthesis, then no beginning of it closes more than it opens
(`count_le_of_forall_not_closes`). The length of the text, as an answer, is therefore no match at
the last character: the parenthesis stays open to the end. Text that is added behind can close it,
but a parenthesis that is closed stays closed where it was (`Closes.append`).

## Main results

* `closingParen?_eq` — the answer, from the text behind the parenthesis
* `closingParen?_matches` — the position of the matching parenthesis
-/

namespace RobotMaze

namespace Call

open Text

variable {t u inside : Text} {p n : Nat}

/-! ### The text behind a parenthesis -/

/-- The parenthesis that closes a list is the same in a longer text. -/
theorem Closes.append (h : Closes inside n) (u : Text) : Closes (inside ++ u) n := by
  refine ⟨?_, ?_⟩
  · rw [List.getElem?_append_left h.lt_length, h.closing]
  · rw [List.take_append_of_le_length (Nat.le_of_lt h.lt_length)]
    exact h.balanced

/-- If nothing closes a parenthesis, then no beginning of the text behind it closes more than it
opens. -/
theorem count_le_of_forall_not_closes (h : ∀ n, ¬Closes inside n) (k : Nat) :
    ∀ j ≤ k, (inside.take j).count ')' ≤ (inside.take j).count '(' := by
  induction k with
  | zero => simp
  | succ k ih =>
    intro j hj
    rcases Nat.lt_or_eq_of_le hj with hlt | rfl
    · exact ih j (Nat.le_of_lt_succ hlt)
    have hk := ih k (Nat.le_refl k)
    cases hc : inside[k]? with
    | none => simpa [List.take_add_one, hc] using hk
    | some c =>
      -- A parenthesis that closes one too many would be the one that is looked for.
      have hfirst : c = ')' → (inside.take k).count ')' ≠ (inside.take k).count '(' := by
        rintro rfl htotal
        refine h k ⟨hc, htotal, fun i _ => ?_⟩
        rw [List.take_take]
        exact ih _ (Nat.min_le_right i k)
      simp only [List.take_add_one, hc, Option.toList_some, List.count_append, List.count_singleton,
        beq_iff_eq]
      split
      · rename_i hclose
        have := hfirst hclose
        omega
      · omega

/-! ### Texts that stay open -/

/-- However far one reads, more parentheses are opened than closed. -/
def StaysOpen (t : Text) : Prop := ∀ w, w <+: t → w ≠ [] → w.count ')' < w.count '('

theorem staysOpen_cons
    (h : ∀ k ≤ inside.length, (inside.take k).count ')' ≤ (inside.take k).count '(') :
    StaysOpen ('(' :: inside) := by
  intro w hw hne
  obtain ⟨c, v, rfl⟩ := List.exists_cons_of_ne_nil hne
  obtain ⟨rfl, hv⟩ := List.cons_prefix_cons.1 hw
  have hcount := h v.length hv.length_le
  rw [← List.prefix_iff_eq_take.1 hv] at hcount
  simpa [Nat.lt_succ_iff] using hcount

/-- A parenthesis that nothing closes stays open to the end. -/
theorem staysOpen_of_forall_not_closes (h : ∀ n, ¬Closes inside n) : StaysOpen ('(' :: inside) :=
  staysOpen_cons (count_le_of_forall_not_closes h inside.length)

/-- A parenthesis stays open as long as what stands behind it is balanced. -/
theorem Balanced.staysOpen (h : Balanced inside) : StaysOpen ('(' :: inside) :=
  staysOpen_cons h.prefixes

/-! ### Positions -/

/-- **The answer**, from the text behind the parenthesis. -/
theorem closingParen?_eq (h : t.drop p = '(' :: inside) :
    closingParen? t p =
      some (((closingDistance 1 inside).elim t.length fun n => p + n + 1 : Nat) : Int) := by
  have hstart : ¬(p : Int) < -(t.length : Int) := by omega
  have hdistance : closingDistance 0 ('(' :: inside) = (closingDistance 1 inside).map (· + 1) := by
    simp [closingDistance]
  simp only [closingParen?, hstart, if_false, Int.natCast_nonneg, if_true, Int.toNat_natCast, h,
    hdistance]
  cases closingDistance 1 inside <;> rfl

theorem extract_of_drop (h : t.drop p = '(' :: inside) (n : Nat) :
    t.extract p (p + n + 1) = '(' :: inside.take n := by
  rw [List.extract_eq_take_drop, h, show p + n + 1 - p = n + 1 by omega, List.take_succ_cons]

theorem extract_succ_of_drop (h : t.drop p = '(' :: inside) (n : Nat) :
    t.extract (p + 1) (p + n + 1) = inside.take n := by
  rw [List.extract_eq_take_drop, ← List.drop_drop, h, show p + n + 1 - (p + 1) = n by omega]
  rfl

namespace Closes

theorem closingParen?_eq (hn : Closes inside n) (h : t.drop p = '(' :: inside) :
    closingParen? t p = some ((p + n + 1 : Nat) : Int) := by
  rw [Call.closingParen?_eq h, closingDistance_eq_some_iff.2 hn]
  rfl

theorem getElem?_eq (hn : Closes inside n) (h : t.drop p = '(' :: inside) :
    t[p + n + 1]? = some ')' := by
  rw [Nat.add_assoc, ← List.getElem?_drop, h, List.getElem?_cons_succ, hn.closing]

theorem count_extract_eq (hn : Closes inside n) (h : t.drop p = '(' :: inside) :
    (t.extract p (p + n + 1 + 1)).count '(' = (t.extract p (p + n + 1 + 1)).count ')' := by
  rw [Nat.add_assoc p n 1, extract_of_drop h, List.take_add_one, hn.closing]
  simp [hn.balanced.total]

end Closes

/-- **The matching parenthesis.** The answer is a position further on, or the length of the text,
and the parenthesis stays open up to there. At a position of the text, a parenthesis closes it, what
stands between the two is balanced, and nothing that is appended to the text changes the answer. If
the answer is the length of the text, the parenthesis is not closed anywhere. -/
theorem closingParen?_matches (h : t[p]? = some '(') :
    ∃ r : Nat, closingParen? t p = some (r : Int) ∧ p < r ∧ r ≤ t.length ∧
      StaysOpen (t.extract p r) ∧
      (r < t.length → t[r]? = some ')' ∧
        (t.extract p (r + 1)).count '(' = (t.extract p (r + 1)).count ')' ∧
        Balanced (t.extract (p + 1) r) ∧ ∀ u, closingParen? (t ++ u) p = some (r : Int)) ∧
      (r = t.length → ∀ q, p < q → q < t.length →
        (t.extract p (q + 1)).count '(' ≠ (t.extract p (q + 1)).count ')') := by
  obtain ⟨hp, hopen⟩ := List.getElem?_eq_some_iff.1 h
  obtain ⟨inside, hdrop⟩ : ∃ inside, t.drop p = '(' :: inside :=
    ⟨t.drop (p + 1), by rw [List.drop_eq_getElem_cons hp, hopen]⟩
  by_cases hclosed : ∃ n, Closes inside n
  · obtain ⟨n, hn⟩ := hclosed
    have hlt : p + n + 1 < t.length := (List.getElem?_eq_some_iff.1 (hn.getElem?_eq hdrop)).1
    refine ⟨p + n + 1, hn.closingParen?_eq hdrop, by omega, Nat.le_of_lt hlt, ?_,
      fun _ => ⟨hn.getElem?_eq hdrop, hn.count_extract_eq hdrop, ?_, fun u => ?_⟩,
      fun hend => absurd hend (Nat.ne_of_lt hlt)⟩
    · rw [extract_of_drop hdrop]
      exact hn.balanced.staysOpen
    · rw [extract_succ_of_drop hdrop]
      exact hn.balanced
    · refine (hn.append u).closingParen?_eq ?_
      rw [List.drop_append_of_le_length (Nat.le_of_lt hp), hdrop, List.cons_append]
  · have hnone := closingDistance_eq_none_iff.2 (not_exists.1 hclosed)
    have hstays : StaysOpen (t.drop p) := by
      rw [hdrop]
      exact staysOpen_of_forall_not_closes (not_exists.1 hclosed)
    refine ⟨t.length, by rw [closingParen?_eq hdrop, hnone]; rfl, hp, Nat.le_refl _, ?_,
      fun hlt => absurd hlt (Nat.lt_irrefl _), fun _ q hq _ => ?_⟩
    · rwa [List.extract_eq_take_drop, ← List.length_drop, List.take_length]
    · refine Nat.ne_of_gt (hstays _ (List.take_prefix _ _) ?_)
      rw [show q + 1 = p + (q - p) + 1 by omega, extract_of_drop hdrop]
      exact List.cons_ne_nil _ _

/-- An argument list with a call in it, before a parenthesis that nothing closes. -/
theorem closingParen?_matches_nested :
    let t := "f(g(s),l)(".toList
    closingParen? t 1 = some 8 ∧ Balanced "g(s),l".toList ∧
      (∀ u, closingParen? (t ++ u) 1 = some 8) ∧
      closingParen? t 9 = some 10 ∧ StaysOpen "(".toList := by
  intro t
  have hclosed : closingParen? t 1 = some 8 := by decide
  have hopen : closingParen? t 9 = some 10 := by decide
  obtain ⟨r, hr, -, -, -, hmatch, -⟩ := closingParen?_matches (t := t) (p := 1) (by decide)
  obtain rfl : 8 = r := Int.ofNat.inj (Option.some.inj (hclosed.symm.trans hr))
  obtain ⟨r, hr, -, -, hstays, -⟩ := closingParen?_matches (t := t) (p := 9) (by decide)
  obtain rfl : 10 = r := Int.ofNat.inj (Option.some.inj (hopen.symm.trans hr))
  obtain ⟨-, -, hbalanced, happend⟩ := hmatch (by decide)
  exact ⟨hclosed, hbalanced, happend, hopen, hstays⟩

end Call

end RobotMaze
