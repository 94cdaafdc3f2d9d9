import Mathlib.Algebra.Ring.Int.Defs
import Mathlib.Data.List.Basic
import Mathlib.Data.List.TakeWhile
import RobotMaze.Proofs.Program.Expression
import RobotMaze.Proofs.Text.Parts

/-!
# Expressions as sums

`Expression.evaluate` tries a numeral first, then a letter, then a sum, then a difference, and it
trims the text at every level. This file gives the value in one line: an expression is the sum of
its terms, the texts between plus signs, and a term is an operand, or one operand minus another, or
zero if it has more minus signs than one.

So it makes no difference that a sign in front of digits belongs to a numeral. `-3` is a difference
whose first operand is empty, `+5` is a sum whose first term is empty, and an empty operand counts
as zero.

## Values and failures

Numerals that are too long are kept apart from values. `operands` lists the texts that are looked at
for a value, from left to right. The first of them that is a numeral with too many digits is the
failure of the expression, and the values of the others do not matter then. A term with two minus
signs has no operands: its numerals are never read.

## Main results

* `Text.map_trim_splitOn_trim` — trimming a text before it is cut only takes white space off pieces
* `evaluate_operand`, `evaluate_term` — expressions without signs, and without plus signs
* `evaluate_eq_sum` — every expression is the sum of its terms, and so is additive
-/

namespace RobotMaze

open Text

/-! ### Trimming a text that is cut -/

namespace Text

variable {separator : Char} {before after t : Text}

theorem trim_append_left (h : ∀ c ∈ before, isBlank c = true) (t : Text) :
    trim (before ++ t) = trim t := by
  rw [trim, trim, trimStart, trimStart, List.dropWhile_append_of_pos h]

theorem trimEnd_of_isBlank (h : ∀ c ∈ after, isBlank c = true) : trimEnd after = [] := by
  rw [trimEnd, List.reverse_eq_nil_iff]
  exact List.dropWhile_eq_nil_iff.2 fun c hc => h c (List.mem_reverse.1 hc)

theorem trim_append_right (h : ∀ c ∈ after, isBlank c = true) (t : Text) :
    trim (t ++ after) = trim t := by
  rw [trim, trim, trimStart, trimStart, List.dropWhile_append]
  split
  · rename_i hblank
    rw [List.dropWhile_eq_nil_iff.2 h, List.isEmpty_iff.1 hblank]
  · rw [trimEnd_append, if_pos (trimEnd_of_isBlank h)]

/-- Trimming takes away white space on either side. -/
theorem exists_eq_append_trim (t : Text) :
    ∃ before after, t = before ++ (trim t ++ after) ∧ (∀ c ∈ before, isBlank c = true) ∧
      ∀ c ∈ after, isBlank c = true := by
  refine ⟨t.takeWhile isBlank, ((trimStart t).reverse.takeWhile isBlank).reverse, ?_, ?_, ?_⟩
  · have hend : trim t ++ ((trimStart t).reverse.takeWhile isBlank).reverse = trimStart t := by
      rw [trim, trimEnd, ← List.reverse_append, List.takeWhile_append_dropWhile,
        List.reverse_reverse]
    rw [hend, trimStart, List.takeWhile_append_dropWhile]
  · exact fun c hc => List.mem_takeWhile_imp hc
  · exact fun c hc => List.mem_takeWhile_imp (List.mem_reverse.1 hc)

theorem ne_of_isBlank {c : Char} (hs : isBlank separator = false) (hc : isBlank c = true) :
    c ≠ separator := by
  rintro rfl
  rw [hs] at hc
  cases hc

/-- White space in front of a text is white space in front of its first piece. -/
theorem map_trim_pieces_append_left (hs : isBlank separator = false)
    (h : ∀ c ∈ before, isBlank c = true) (t : Text) :
    (List.splitOn separator (before ++ t)).map trim = (List.splitOn separator t).map trim := by
  induction before with
  | nil => rfl
  | cons b before ih =>
    obtain ⟨hb, hbefore⟩ := List.forall_mem_cons.1 h
    obtain ⟨piece, others, hpieces⟩ :=
      List.exists_cons_of_ne_nil (List.splitOn_ne_nil separator (before ++ t))
    have hfirst : trim ([b] ++ piece) = trim piece := trim_append_left (by simpa) piece
    rw [← ih hbefore, List.cons_append, List.splitOn_cons_eq_if_modifyHead,
      if_neg (by simpa using ne_of_isBlank hs hb), hpieces, List.modifyHead_cons, List.map_cons,
      List.map_cons, ← hfirst]
    rfl

/-- What is appended without a separator is appended to the last piece. -/
theorem exists_pieces_append (h : separator ∉ after) (t : Text) :
    ∃ others last, List.splitOn separator t = others ++ [last] ∧
      List.splitOn separator (t ++ after) = others ++ [last ++ after] := by
  induction t with
  | nil => exact ⟨[], [], rfl, List.splitOn_eq_singleton h⟩
  | cons c t ih =>
    obtain ⟨others, last, hpieces, happend⟩ := ih
    rw [List.cons_append, List.splitOn_cons_eq_if_modifyHead, List.splitOn_cons_eq_if_modifyHead,
      hpieces, happend]
    split
    · exact ⟨[] :: others, last, rfl, rfl⟩
    · cases others with
      | nil => exact ⟨[], c :: last, rfl, rfl⟩
      | cons piece others => exact ⟨(c :: piece) :: others, last, rfl, rfl⟩

theorem map_trim_pieces_append_right (hs : isBlank separator = false)
    (h : ∀ c ∈ after, isBlank c = true) (t : Text) :
    (List.splitOn separator (t ++ after)).map trim = (List.splitOn separator t).map trim := by
  have hmem : separator ∉ after := fun hmem => ne_of_isBlank hs (h _ hmem) rfl
  obtain ⟨others, last, hpieces, happend⟩ := exists_pieces_append hmem t
  rw [hpieces, happend, List.map_append, List.map_append, List.map_singleton, List.map_singleton,
    trim_append_right h]

/-- **Trimming and cutting.** A text that is trimmed first has the same pieces, but for white space
around them. -/
theorem map_trim_splitOn_trim (hs : isBlank separator = false) (t : Text) :
    (List.splitOn separator (trim t)).map trim = (List.splitOn separator t).map trim := by
  obtain ⟨before, after, ht, hbefore, hafter⟩ := exists_eq_append_trim t
  conv => rhs; rw [ht]
  rw [map_trim_pieces_append_left hs hbefore, map_trim_pieces_append_right hs hafter]

/-- So what white space around a piece does not change is the same for both. -/
theorem map_pieces_trim {α : Type} {f : Text → α} (hf : ∀ u, f (trim u) = f u)
    (hs : isBlank separator = false) (t : Text) :
    (List.splitOn separator (trim t)).map f = (List.splitOn separator t).map f := by
  have htrim : ∀ ps : List Text, ps.map f = (ps.map trim).map f := by
    intro ps
    simp only [List.map_map, Function.comp_def, hf]
  rw [htrim (List.splitOn separator (trim t)), map_trim_splitOn_trim hs, ← htrim]

end Text

namespace Expression

variable {scope : Scope} {t : Text} {c : Char}

/-! ### Values and failures -/

/-- Whether a text is made of digits, of which it has one at least. -/
def isDigits (t : Text) : Bool := !t.isEmpty && t.all isDigit

/-- The number that a trimmed operand stands for: that of its digits, or of the letter. -/
def operandValue (scope : Scope) (t : Text) : Int :=
  if isDigits t then digitsValue t
  else match letter? t with
    | some c => scope.number [c]
    | none => 0

/-- The failure of a trimmed operand, if it has too many digits. -/
def tooLong? (t : Text) : Option Numeral.TooLong :=
  if isDigits t = true ∧ Numeral.maxDigits < t.length then some (.reading t.length) else none

/-- The operands of a term, trimmed: the texts around its minus sign if it has one, and all of it if
it has none. -/
def operands (t : Text) : List Text :=
  if t.count '-' ≤ 1 then (List.splitOn '-' t).map trim else []

/-- The value of a term: its only operand, or the difference of two. -/
def termValue (scope : Scope) (t : Text) : Int :=
  match operands t with
  | [a] => operandValue scope a
  | [a, b] => operandValue scope a - operandValue scope b
  | _ => 0

/-- A value, unless there is a failure. -/
def outcome (failure : Option Numeral.TooLong) (n : Int) : Except Numeral.TooLong Int :=
  match failure with
  | some e => .error e
  | none => .ok n

/-- Of two outcomes that are put together, the first failure counts. -/
theorem outcome_bind (f g : Option Numeral.TooLong) (m n : Int) (op : Int → Int → Int) :
    (do
      let x ← outcome f m
      let y ← outcome g n
      return op x y) = outcome (f.or g) (op m n) := by
  cases f <;> cases g <;> rfl

/-- The sum of some terms is worked out from left to right. -/
theorem sum_mapM_outcome (value : Text → Int) (terms : List Text) :
    (do
      let values ← terms.mapM fun t => outcome ((operands t).findSome? tooLong?) (value t)
      return values.foldr (· + ·) 0) =
      outcome ((terms.flatMap operands).findSome? tooLong?) (terms.map value).sum := by
  induction terms with
  | nil => rfl
  | cons t terms ih =>
    rw [List.flatMap_cons, List.findSome?_append, List.map_cons, List.sum_cons,
      ← outcome_bind _ _ _ _ (· + ·), ← ih, List.mapM_cons]
    simp only [bind_assoc, pure_bind, List.foldr_cons]

/-! ### Operands

An operand has no sign, and a sign is no digit and no letter. -/

theorem operands_trim (t : Text) : operands (trim t) = operands t := by
  have hpieces : (List.splitOn '-' (trim t)).map trim = (List.splitOn '-' t).map trim :=
    map_trim_splitOn_trim (by decide) t
  have hcount : (trim t).count '-' = t.count '-' := by
    have hlength := congrArg List.length hpieces
    simpa [length_splitOn] using hlength
  rw [operands, operands, hcount, hpieces]

theorem termValue_trim (scope : Scope) (t : Text) :
    termValue scope (trim t) = termValue scope t := by
  rw [termValue, termValue, operands_trim]

/-- White space is no digit of any script. -/
theorem isBlank_of_isDigit (h : isDigit c = true) : isBlank c = false := by
  have hall : ∀ start ∈ digitZeros, ∀ k < 10, isBlank (Char.ofNat (start + k)) = false := by
    decide +kernel
  obtain ⟨start, hstart⟩ := Option.isSome_iff_exists.1 (Option.isSome_map.symm.trans h)
  have hrange := List.find?_some hstart
  simp only [Bool.and_eq_true, decide_eq_true_eq] at hrange
  have hc := hall start (List.mem_of_find?_eq_some hstart) (c.toNat - start) (by omega)
  rwa [Nat.add_sub_of_le hrange.1, Char.ofNat_toNat] at hc

theorem isDigits_iff : isDigits t = true ↔ t ≠ [] ∧ ∀ c ∈ t, isDigit c = true := by
  rw [isDigits, Bool.and_eq_true, List.all_eq_true, Bool.not_eq_true', List.isEmpty_eq_false_iff]

theorem notMem_of_isDigits (h : isDigits t = true) (hc : isDigit c = false) : c ∉ t := by
  intro hmem
  rw [(isDigits_iff.1 h).2 c hmem] at hc
  cases hc

theorem trim_of_isDigits (h : isDigits t = true) : trim t = t :=
  trim_of_forall fun c hc => isBlank_of_isDigit ((isDigits_iff.1 h).2 c hc)

theorem letter?_of_mem (hmem : c ∈ t) (hc : isParameterLetter c = false) : letter? t = none := by
  unfold letter?
  split
  · rename_i d
    rw [List.mem_singleton] at hmem
    rw [← hmem, hc]
    rfl
  · rfl

/-- The digits of a numeral, with the sign that they have, are an operand. -/
theorem value_eq_outcome (h : isDigits t = true) (negative : Bool) :
    Numeral.value negative t =
      outcome (tooLong? t) (Numeral.withSign negative (digitsValue t)) := by
  by_cases hlong : Numeral.maxDigits < t.length
  · rw [Numeral.value, if_pos hlong, tooLong?, if_pos ⟨h, hlong⟩]
    rfl
  · rw [Numeral.value, if_neg hlong, tooLong?, if_neg fun hboth => hlong hboth.2]
    rfl

theorem operandValue_of_isDigits (h : isDigits t = true) : operandValue scope t = digitsValue t :=
  if_pos h

/-- Without a sign, a numeral is digits. -/
theorem signed?_of_notMem (hplus : '+' ∉ t) (hminus : '-' ∉ t) :
    Numeral.signed? t = if isDigits t then some (false, t) else none := by
  have hsign : Numeral.splitSign t = (false, t) := by
    unfold Numeral.splitSign
    split
    · exact absurd List.mem_cons_self hminus
    · exact absurd List.mem_cons_self hplus
    · rfl
  rw [Numeral.signed?, hsign]
  rfl

/-- **An expression without signs** is an operand. -/
theorem evaluate_operand (hplus : '+' ∉ trim t) (hminus : '-' ∉ trim t) :
    evaluate scope t = outcome (tooLong? (trim t)) (operandValue scope (trim t)) := by
  have hsigned := signed?_of_notMem hplus hminus
  cases hdigits : isDigits (trim t) with
  | true =>
    rw [hdigits, if_pos rfl] at hsigned
    rw [evaluate_of_signed? hsigned, value_eq_outcome hdigits, operandValue_of_isDigits hdigits]
    rfl
  | false =>
    rw [hdigits, if_neg Bool.false_ne_true] at hsigned
    have hshort : tooLong? (trim t) = none := by simp [tooLong?, hdigits]
    have hvalue : operandValue scope (trim t) =
        (match letter? (trim t) with
          | some c => scope.number [c]
          | none => 0) := by simp [operandValue, hdigits]
    rw [hshort, hvalue]
    cases hletter : letter? (trim t) with
    | some c => exact evaluate_of_letter? hsigned hletter
    | none =>
      have hone := List.splitOn_eq_singleton hminus
      exact evaluate_of_other hsigned hletter hplus (by simp [hone])

/-! ### Terms -/

theorem operands_of_notMem (h : '-' ∉ t) : operands t = [trim t] := by
  rw [operands, if_pos (by simp [List.count_eq_zero.2 h]), List.splitOn_eq_singleton h]
  rfl

theorem operands_of_splitOn {a b : Text} (h : List.splitOn '-' t = [a, b]) :
    operands t = [trim a, trim b] := by
  have hlength := length_splitOn '-' t
  rw [h, List.length_cons, List.length_singleton] at hlength
  rw [operands, if_pos (by omega), h]
  rfl

/-- A term that is cut into neither one operand nor two has none. -/
theorem operands_of_splitOn_ne (hminus : '-' ∈ t) (h : ∀ a b, List.splitOn '-' t ≠ [a, b]) :
    operands t = [] := by
  have hlength := length_splitOn '-' t
  have hpos : 0 < t.count '-' := List.count_pos_iff.2 hminus
  refine if_neg fun hle => ?_
  obtain ⟨a, b, hpieces⟩ : ∃ a b, List.splitOn '-' t = [a, b] := List.length_eq_two.1 (by omega)
  exact h a b hpieces

/-- Digits after a sign are the second of two pieces, and the first is empty. -/
theorem splitOn_sign {sign : Char} (hsign : isDigit sign = false) (h : isDigits t = true) :
    List.splitOn sign (sign :: t) = [[], t] := by
  rw [← List.nil_append (sign :: t), List.splitOn_append_cons_self, List.splitOn_nil,
    List.splitOn_eq_singleton (notMem_of_isDigits h hsign)]
  rfl

theorem operands_minus (h : isDigits t = true) : operands ('-' :: t) = [[], t] := by
  rw [operands_of_splitOn (splitOn_sign (by decide) h), trim_of_isDigits h]
  rfl

/-- **An expression without plus signs** is a term. -/
theorem evaluate_term (hplus : '+' ∉ trim t) :
    evaluate scope t = outcome ((operands t).findSome? tooLong?) (termValue scope t) := by
  rw [← operands_trim, ← termValue_trim, termValue]
  by_cases hminus : '-' ∈ trim t
  · have hletter : letter? (trim t) = none := letter?_of_mem hminus (by decide)
    cases hsigned : Numeral.signed? (trim t) with
    | some numeral =>
      obtain ⟨negative, digits⟩ := numeral
      obtain ⟨hdigits, hsign⟩ := Numeral.cases_of_signed? hsigned
      have hdigits : isDigits digits = true := isDigits_iff.2 hdigits
      rw [evaluate_of_signed? hsigned, value_eq_outcome hdigits]
      rcases hsign with ⟨ht, -⟩ | ⟨ht, rfl⟩ | ⟨ht, -⟩
      · exact absurd (ht ▸ hminus) (notMem_of_isDigits hdigits (by decide))
      · rw [ht, operands_minus hdigits]
        simp only [operandValue_of_isDigits hdigits]
        show outcome (tooLong? digits) (-digitsValue digits) =
          outcome ([digits].findSome? tooLong?) (0 - digitsValue digits)
        rw [List.findSome?_singleton, Int.zero_sub]
      · exact absurd (ht ▸ List.mem_cons_self) hplus
    | none =>
      by_cases hpieces : ∃ a b, List.splitOn '-' (trim t) = [a, b]
      · obtain ⟨a, b, hpieces⟩ := hpieces
        -- The operands are parts of the text, so they have no plus sign, and no minus sign is left.
        have hoperand : ∀ u ∈ List.splitOn '-' (trim t),
            evaluate scope u = outcome (tooLong? (trim u)) (operandValue scope (trim u)) := by
          intro u hu
          have hpart : trim u <:+: u := isInfix_trim u
          refine evaluate_operand (fun h => hplus ?_) fun h => ?_
          · exact (isInfix_of_mem_splitOn hu).subset (hpart.subset h)
          · exact notMem_of_mem_splitOn hu (hpart.subset h)
        rw [evaluate_of_minus hsigned hletter hplus hpieces, hoperand a (by simp [hpieces]),
          hoperand b (by simp [hpieces]), outcome_bind, operands_of_splitOn hpieces,
          List.findSome?_cons, List.findSome?_singleton]
        cases tooLong? (trim a) <;> rfl
      · have hpieces : ∀ a b, List.splitOn '-' (trim t) ≠ [a, b] := fun a b h => hpieces ⟨a, b, h⟩
        rw [evaluate_of_other hsigned hletter hplus hpieces, operands_of_splitOn_ne hminus hpieces]
        rfl
  · rw [operands_of_notMem hminus, trim_trim, List.findSome?_singleton]
    exact evaluate_operand hplus hminus

/-! ### Sums -/

theorem termValue_of_isDigits (h : isDigits t = true) : termValue scope t = digitsValue t := by
  rw [termValue, operands_of_notMem (notMem_of_isDigits h (by decide)), trim_of_isDigits h]
  exact operandValue_of_isDigits h

/-- **An expression** is the sum of its terms, unless an operand is too long. -/
theorem evaluate_sum (scope : Scope) (t : Text) :
    evaluate scope t = outcome (((List.splitOn '+' t).flatMap operands).findSome? tooLong?)
      ((List.splitOn '+' t).map (termValue scope)).sum := by
  have hoperands : (List.splitOn '+' t).flatMap operands =
      (List.splitOn '+' (trim t)).flatMap operands := by
    rw [List.flatMap_def, List.flatMap_def, map_pieces_trim operands_trim (by decide)]
  rw [hoperands, ← map_pieces_trim (termValue_trim scope) (by decide)]
  by_cases hplus : '+' ∈ trim t
  · have hletter : letter? (trim t) = none := letter?_of_mem hplus (by decide)
    cases hsigned : Numeral.signed? (trim t) with
    | some numeral =>
      obtain ⟨negative, digits⟩ := numeral
      obtain ⟨hdigits, hsign⟩ := Numeral.cases_of_signed? hsigned
      have hdigits : isDigits digits = true := isDigits_iff.2 hdigits
      have hnot : '+' ∉ digits := notMem_of_isDigits hdigits (by decide)
      rw [evaluate_of_signed? hsigned, value_eq_outcome hdigits]
      rcases hsign with ⟨ht, -⟩ | ⟨ht, -⟩ | ⟨ht, rfl⟩
      · exact absurd (ht ▸ hplus) hnot
      · rw [ht, List.mem_cons] at hplus
        exact absurd (hplus.resolve_left (by decide)) hnot
      · have hminus : '-' ∉ digits := notMem_of_isDigits hdigits (by decide)
        rw [ht, splitOn_sign (by decide) hdigits]
        show outcome (tooLong? digits) (digitsValue digits) =
          outcome ((operands digits ++ []).findSome? tooLong?)
            (0 + (termValue scope digits + 0))
        rw [List.append_nil, operands_of_notMem hminus, List.findSome?_singleton,
          trim_of_isDigits hdigits, termValue_of_isDigits hdigits, Int.zero_add, Int.add_zero]
    | none =>
      have hterms : (List.splitOn '+' (trim t)).mapM (evaluate scope) =
          (List.splitOn '+' (trim t)).mapM fun u =>
            outcome ((operands u).findSome? tooLong?) (termValue scope u) := by
        refine mapM_congr fun u hu => evaluate_term fun h => ?_
        exact notMem_of_mem_splitOn hu ((isInfix_trim u).subset h)
      rw [evaluate_of_plus hsigned hletter hplus, hterms, sum_mapM_outcome]
  · rw [evaluate_term hplus, List.splitOn_eq_singleton hplus, List.flatMap_singleton, operands_trim,
      List.map_singleton, termValue_trim, List.sum_singleton]

/-- **The value of an expression in closed form.** Cut at every plus sign, an expression is the sum
of its terms. If some of the operands of these terms are numerals with too many digits, it fails
with the error of the leftmost of them. So the value of two expressions with a plus sign between
them is the sum of their values, whatever signs and white space they start or end with. -/
theorem evaluate_eq_sum (scope : Scope) :
    (∀ e, evaluate scope e =
        match ((List.splitOn '+' e).flatMap operands).findSome? tooLong? with
        | some failure => .error failure
        | none => .ok ((List.splitOn '+' e).map (termValue scope)).sum) ∧
      ∀ e e', evaluate scope (e ++ '+' :: e') = (do
        let x ← evaluate scope e
        let y ← evaluate scope e'
        return x + y) := by
  refine ⟨fun e => evaluate_sum scope e, fun e e' => ?_⟩
  rw [evaluate_sum, evaluate_sum, evaluate_sum, outcome_bind, List.splitOn_append_cons_self,
    List.flatMap_append, List.findSome?_append, List.map_append, List.sum_append]

-- A plus sign cuts also where it could be the sign of a numeral, and `1-2-3` has no operands.
example : (List.splitOn '+' "A-+3 + 1-2-3 +-5".toList).flatMap operands =
    [['A'], [], ['3'], [], ['5']] := by
  decide

end Expression

end RobotMaze
