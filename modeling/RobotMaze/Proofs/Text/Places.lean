import RobotMaze.Program.Call

/-!
# Where a part of a text stands

`Proofs/Text/Parts` says that scanners take parts out of a text. This file also says where. Trimming
counts the characters before the part that it takes, and here the count is shown to be right.

`StandsAt u i t` is the whole vocabulary. It says at once which characters a part has and that it
ends within the text, and places add up (`StandsAt.trans`), so a part of a part of a line has a
place on the line however deep it is nested.

The second half is about parentheses. The scanner that looks for the end of an argument list counts
open parentheses. `Closes` says what it looks for without a counter: the first closing parenthesis
before which as many are closed as are opened.

## Main results

* `StandsAt.trans` — places add up
* `standsAt_trim` — what trimming takes, and where it stands
* `Call.closingDistance_eq_some_iff` — the scanner finds the parenthesis that closes the list
-/

namespace RobotMaze

namespace Text

variable {t u v : Text} {i j : Nat}

/-! ### Places -/

/-- `u` stands in `t` after the first `i` characters. -/
def StandsAt (u : Text) (i : Nat) (t : Text) : Prop :=
  ∃ before after, t = before ++ (u ++ after) ∧ before.length = i

namespace StandsAt

/-- A part reaches to the end of the text at most. -/
theorem add_length_le (h : StandsAt u i t) : i + u.length ≤ t.length := by
  obtain ⟨before, after, rfl, rfl⟩ := h
  simp only [List.length_append]
  omega

/-- The characters at the place of a part are those of the part. -/
theorem take_drop (h : StandsAt u i t) : (t.drop i).take u.length = u := by
  obtain ⟨before, after, rfl, rfl⟩ := h
  rw [List.drop_left, List.take_left]

/-- **Places add up.** -/
theorem trans (h : StandsAt u i t) (h' : StandsAt v j u) : StandsAt v (i + j) t := by
  obtain ⟨before, after, rfl, rfl⟩ := h
  obtain ⟨before', after', rfl, rfl⟩ := h'
  exact ⟨before ++ before', after' ++ after, by simp, by simp⟩

theorem of_suffix (h : u <:+ t) : StandsAt u (t.length - u.length) t := by
  obtain ⟨before, rfl⟩ := h
  refine ⟨before, [], by simp, ?_⟩
  rw [List.length_append]
  omega

theorem of_isPrefix (h : u <+: t) : StandsAt u 0 t := by
  obtain ⟨after, rfl⟩ := h
  exact ⟨[], after, rfl, rfl⟩

theorem of_drop (h : i ≤ t.length) : StandsAt (t.drop i) i t :=
  ⟨t.take i, [], by simp, List.length_take_of_le h⟩

end StandsAt

/-- The elements of a list are numbered in order. -/
theorem pairwise_zipIdx {α : Type} (l : List α) (first : Nat) :
    (l.zipIdx first).Pairwise fun p q => p.2 < q.2 := by
  refine List.pairwise_map.1 ?_
  rw [List.zipIdx_map_snd]
  exact List.pairwise_lt_range'

/-! ### Trimming -/

/-- A trimmed text stands behind the indentation. -/
theorem standsAt_trim (t : Text) : StandsAt (trim t) (indent t) t := by
  have hstart : StandsAt (trimStart t) (indent t) t :=
    ⟨t.takeWhile isBlank, [], by simp [trimStart], rfl⟩
  have hend : StandsAt (trim t) 0 (trimStart t) := by
    refine .of_isPrefix ?_
    rw [← List.reverse_suffix, trim, trimEnd, List.reverse_reverse]
    exact List.dropWhile_suffix _
  exact hstart.trans hend

end Text

/-! ### Parentheses -/

namespace Call

open Text

variable {t inside : Text} {n : Nat}

/-- As many parentheses are closed as are opened, and none before it is opened. -/
structure Balanced (t : Text) : Prop where
  total : t.count ')' = t.count '('
  prefixes : ∀ k ≤ t.length, (t.take k).count ')' ≤ (t.take k).count '('

/-- The character number `n`, counted from 0, of a text closes a parenthesis that is opened right
before the text. -/
structure Closes (inside : Text) (n : Nat) : Prop where
  closing : inside[n]? = some ')'
  balanced : Balanced (inside.take n)

theorem Closes.lt_length (h : Closes inside n) : n < inside.length :=
  (List.getElem?_eq_some_iff.1 h.closing).1

/-- The beginnings of a text with a character in front. -/
theorem forall_take_cons {P : Text → Prop} (c : Char) (rest : Text) (n : Nat) (h : P []) :
    (∀ k ≤ n + 1, P ((c :: rest).take k)) ↔ ∀ k ≤ n, P (c :: rest.take k) := by
  constructor
  · intro hall k hk
    exact hall (k + 1) (Nat.succ_le_succ hk)
  · intro hall k hk
    cases k with
    | zero => exact h
    | succ k => exact hall k (Nat.le_of_succ_le_succ hk)

/-- The scanner with `depth` parentheses open besides the one to be closed. -/
theorem closingDistance_iff (depth : Nat) :
    closingDistance (depth + 1) t = some n ↔
      t[n]? = some ')' ∧ (t.take n).count ')' = (t.take n).count '(' + depth ∧
        ∀ k ≤ n, (t.take k).count ')' ≤ (t.take k).count '(' + depth := by
  induction t generalizing depth n with
  | nil => simp [closingDistance]
  | cons c rest ih =>
    have hprefixes := fun m =>
      forall_take_cons (P := fun u => u.count ')' ≤ u.count '(' + depth) c rest m (by simp)
    by_cases hopen : c = '('
    · rw [closingDistance, if_pos hopen, hopen]
      cases n with
      | zero => simp
      | succ n =>
        rw [hopen] at hprefixes
        rw [hprefixes, Option.map_eq_some_iff]
        simpa [Nat.add_right_comm, Nat.add_assoc] using ih (n := n) (depth + 1)
    by_cases hclose : c = ')'
    · rw [closingDistance, if_neg hopen, if_pos hclose, hclose]
      rw [hclose] at hprefixes
      cases n with
      | zero => cases depth <;> simp [show ∀ k : Nat, (k : Int) + 1 + 1 ≠ 1 by omega]
      | succ n =>
        rw [hprefixes]
        cases depth with
        | zero =>
          -- The parenthesis is closed here, so nothing further on closes it.
          refine iff_of_false (by simp) ?_
          rintro ⟨-, -, h⟩
          simpa using h 0 (Nat.zero_le n)
        | succ depth =>
          rw [if_neg (by omega), show ((depth + 1 : Nat) : Int) + 1 - 1 = depth + 1 by omega,
            Option.map_eq_some_iff]
          simpa [← Nat.add_assoc] using ih (n := n) depth
    · rw [closingDistance, if_neg hopen, if_neg hclose]
      cases n with
      | zero => simp [hclose]
      | succ n =>
        rw [hprefixes, Option.map_eq_some_iff]
        simpa [hopen, hclose] using ih (n := n) depth

/-- **The scanner finds the parenthesis that closes an argument list.** -/
theorem closingDistance_eq_some_iff : closingDistance 1 inside = some n ↔ Closes inside n := by
  rw [show (1 : Int) = (0 : Nat) + 1 from rfl, closingDistance_iff 0]
  constructor
  · rintro ⟨hclosing, htotal, hprefixes⟩
    refine ⟨hclosing, htotal, fun k hk => ?_⟩
    rw [List.length_take] at hk
    rw [List.take_take, Nat.min_eq_left (by omega)]
    exact hprefixes k (by omega)
  · intro h
    have hlt := h.lt_length
    obtain ⟨hclosing, htotal, hprefixes⟩ := h
    refine ⟨hclosing, htotal, fun k hk => ?_⟩
    have := hprefixes k (by rw [List.length_take]; omega)
    rwa [List.take_take, Nat.min_eq_left hk] at this

theorem closingDistance_eq_none_iff : closingDistance 1 inside = none ↔ ∀ n, ¬Closes inside n := by
  rw [Option.eq_none_iff_forall_ne_some]
  simp only [ne_eq, closingDistance_eq_some_iff]

end Call

end RobotMaze
