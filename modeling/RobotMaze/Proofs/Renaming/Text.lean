import Mathlib.Data.List.Nodup
import Mathlib.Logic.Equiv.Defs
import RobotMaze.Expression
import RobotMaze.Instruction
import RobotMaze.Program.Call

/-!
# Renaming letters in a text

The names of functions and parameters are single letters. A renaming permutes the letters that can
name a function, except the three that are instructions, and the letters that can name a parameter.
It is applied to every character of a text, whatever the character does there.

## Scanners do not tell letters apart

White space, line breaks, digits and punctuation are no letters, so a renaming leaves them where
they are and puts none where none was (`Renaming.apply_char`). Every scanner decides by such
characters, or by whether a character is a letter of one of the two kinds. So each of them commutes
with a renaming: what it finds in a renamed text is what it finds in the text, renamed. There is one
equation for each scanner, and they are simp lemmas, so that a scanner made of others follows from
theirs.
-/

namespace RobotMaze

open Text

/-- New letters for the names of functions and parameters. Instructions keep their letters. -/
structure Renaming where
  functions : Equiv.Perm { c : Char // isFunctionLetter c = true }
  parameters : Equiv.Perm { c : Char // isParameterLetter c = true }
  fixes : ∀ c, Instruction.isLetter c.1 = true → functions c = c

namespace Renaming

variable (ρ : Renaming)

/-- The new letter for a letter; any other character stands for itself. -/
def char (c : Char) : Char :=
  if h : isFunctionLetter c = true then ρ.functions ⟨c, h⟩
  else if h : isParameterLetter c = true then ρ.parameters ⟨c, h⟩
  else c

/-- A text with all its letters renamed. -/
def text (t : Text) : Text := t.map ρ.char

@[simp] theorem text_nil : ρ.text [] = [] := rfl

@[simp] theorem text_cons (c : Char) (t : Text) : ρ.text (c :: t) = ρ.char c :: ρ.text t := rfl

@[simp] theorem length_text (t : Text) : (ρ.text t).length = t.length := List.length_map _

@[simp] theorem isEmpty_text (t : Text) : (ρ.text t).isEmpty = t.isEmpty := List.isEmpty_map

/-! ### Characters -/

/-- A character that names nothing. -/
def IsMark (c : Char) : Prop := isFunctionLetter c = false ∧ isParameterLetter c = false

instance (c : Char) : Decidable (IsMark c) := inferInstanceAs (Decidable (_ ∧ _))

theorem not_isParameterLetter {c : Char} (h : isFunctionLetter c = true) :
    isParameterLetter c = false := by
  simp only [isFunctionLetter, isParameterLetter, Bool.and_eq_true, decide_eq_true_eq,
    Bool.and_eq_false_iff, decide_eq_false_iff_not] at h ⊢
  exact .inr fun hz => absurd (Char.le_trans h.1 hz) (by decide)

theorem char_of_isFunctionLetter {c : Char} (h : isFunctionLetter c = true) :
    ρ.char c = ρ.functions ⟨c, h⟩ := dif_pos h

theorem char_of_isParameterLetter {c : Char} (h : isParameterLetter c = true) :
    ρ.char c = ρ.parameters ⟨c, h⟩ := by
  have hf : ¬isFunctionLetter c = true := fun hf => by
    rw [not_isParameterLetter hf] at h
    cases h
  rw [char, dif_neg hf, dif_pos h]

theorem char_of_isMark {c : Char} (h : IsMark c) : ρ.char c = c := by
  rw [char, dif_neg (Bool.eq_false_iff.1 h.1), dif_neg (Bool.eq_false_iff.1 h.2)]

@[simp] theorem isFunctionLetter_char (c : Char) :
    isFunctionLetter (ρ.char c) = isFunctionLetter c := by
  by_cases hf : isFunctionLetter c = true
  · rw [char_of_isFunctionLetter ρ hf, hf]
    exact (ρ.functions ⟨c, hf⟩).2
  by_cases hp : isParameterLetter c = true
  · rw [char_of_isParameterLetter ρ hp, Bool.eq_false_iff.2 hf, Bool.eq_false_iff]
    intro h
    have := not_isParameterLetter h
    rw [(ρ.parameters ⟨c, hp⟩).2] at this
    cases this
  · rw [char_of_isMark ρ ⟨Bool.eq_false_iff.2 hf, Bool.eq_false_iff.2 hp⟩]

@[simp] theorem isParameterLetter_char (c : Char) :
    isParameterLetter (ρ.char c) = isParameterLetter c := by
  by_cases hf : isFunctionLetter c = true
  · rw [not_isParameterLetter hf, not_isParameterLetter (by rw [isFunctionLetter_char, hf])]
  by_cases hp : isParameterLetter c = true
  · rw [char_of_isParameterLetter ρ hp, hp]
    exact (ρ.parameters ⟨c, hp⟩).2
  · rw [char_of_isMark ρ ⟨Bool.eq_false_iff.2 hf, Bool.eq_false_iff.2 hp⟩]

/-- No two characters become the same. -/
theorem char_injective : Function.Injective ρ.char := by
  intro c d h
  have hf : isFunctionLetter c = isFunctionLetter d := by
    rw [← isFunctionLetter_char ρ c, h, isFunctionLetter_char]
  have hp : isParameterLetter c = isParameterLetter d := by
    rw [← isParameterLetter_char ρ c, h, isParameterLetter_char]
  cases hfd : isFunctionLetter d with
  | true =>
    rw [hfd] at hf
    rw [char_of_isFunctionLetter ρ hf, char_of_isFunctionLetter ρ hfd] at h
    simpa using ρ.functions.injective (Subtype.ext h)
  | false =>
    rw [hfd] at hf
    cases hpd : isParameterLetter d with
    | true =>
      rw [hpd] at hp
      rw [char_of_isParameterLetter ρ hp, char_of_isParameterLetter ρ hpd] at h
      simpa using ρ.parameters.injective (Subtype.ext h)
    | false =>
      rw [hpd] at hp
      rwa [char_of_isMark ρ ⟨hf, hp⟩, char_of_isMark ρ ⟨hfd, hpd⟩] at h

@[simp] theorem char_inj {c d : Char} : ρ.char c = ρ.char d ↔ c = d := ρ.char_injective.eq_iff

@[simp] theorem text_inj {t u : Text} : ρ.text t = ρ.text u ↔ t = u :=
  (List.map_injective_iff.2 ρ.char_injective).eq_iff

/-- A mark stands in a renamed text where it stood in the text. -/
theorem char_eq_iff {c d : Char} (h : IsMark d) : ρ.char c = d ↔ c = d := by
  nth_rewrite 1 [← char_of_isMark ρ h]
  exact char_inj ρ

theorem mem_text_iff {d : Char} (h : IsMark d) (t : Text) : d ∈ ρ.text t ↔ d ∈ t := by
  simp [text, char_eq_iff ρ h]

/-- Characters that are told apart by something that is the same for all letters are told apart in
the same way when they are renamed. -/
theorem apply_char {α : Type} {P : Char → α} {a : α} (h : ∀ c, ¬IsMark c → P c = a) (c : Char) :
    P (ρ.char c) = P c := by
  by_cases hc : IsMark c
  · rw [char_of_isMark ρ hc]
  · rw [h c hc, h (ρ.char c) (by simpa [IsMark] using hc)]

/-- Letters are among the first 123 characters. -/
theorem toNat_lt_of_not_isMark {c : Char} (h : ¬IsMark c) : c.toNat < 123 := by
  by_cases hf : isFunctionLetter c = true
  · simp only [isFunctionLetter, Bool.and_eq_true, decide_eq_true_eq] at hf
    exact Nat.lt_succ_of_le (show c.toNat ≤ 'z'.toNat from hf.2)
  · have hp : isParameterLetter c = true := by
      by_contra hp
      exact h ⟨Bool.eq_false_iff.2 hf, Bool.eq_false_iff.2 hp⟩
    simp only [isParameterLetter, Bool.and_eq_true, decide_eq_true_eq] at hp
    exact Nat.lt_of_le_of_lt (show c.toNat ≤ 'Z'.toNat from hp.2) (by decide)

/-- What holds of all letters can be decided by going through them. -/
theorem forall_letter {P : Char → Prop}
    (h : ∀ n < 123, ¬IsMark (Char.ofNat n) → P (Char.ofNat n)) : ∀ c, ¬IsMark c → P c := by
  intro c hc
  have hn := h c.toNat (toNat_lt_of_not_isMark hc)
  rw [Char.ofNat_toNat] at hn
  exact hn hc

@[simp] theorem isBlank_char (c : Char) : isBlank (ρ.char c) = isBlank c :=
  ρ.apply_char (forall_letter (P := (isBlank · = false)) (by decide)) c

@[simp] theorem isLineBreak_char (c : Char) : isLineBreak (ρ.char c) = isLineBreak c :=
  ρ.apply_char (forall_letter (P := (isLineBreak · = false)) (by decide)) c

theorem isDigit_of_not_isMark : ∀ c, ¬IsMark c → isDigit c = false := forall_letter (by decide)

@[simp] theorem isDigit_char (c : Char) : isDigit (ρ.char c) = isDigit c :=
  ρ.apply_char isDigit_of_not_isMark c

@[simp] theorem isNumericChar_char (c : Char) :
    Expression.isNumericChar (ρ.char c) = Expression.isNumericChar c := by
  by_cases hc : IsMark c
  · rw [char_of_isMark ρ hc]
  · have hletter : ∀ c, ¬IsMark c → Expression.isNumericChar c = isParameterLetter c :=
      forall_letter (by decide)
    rw [hletter c hc, hletter (ρ.char c) (by simpa [IsMark] using hc), isParameterLetter_char]

/-- Instructions keep their letters. -/
theorem char_letter (i : Instruction) : ρ.char i.letter = i.letter := by
  have hf : isFunctionLetter i.letter = true := by cases i <;> decide
  rw [char_of_isFunctionLetter ρ hf, ρ.fixes ⟨i.letter, hf⟩ (by simp [Instruction.isLetter])]

@[simp] theorem ofLetter?_char (c : Char) :
    Instruction.ofLetter? (ρ.char c) = Instruction.ofLetter? c := by
  cases h : Instruction.ofLetter? (ρ.char c) with
  | some i =>
    have hc : c = i.letter := by
      rw [← char_inj ρ, char_letter, Instruction.letter_of_ofLetter? h]
    rw [hc, Instruction.ofLetter?_letter]
  | none =>
    cases hc : Instruction.ofLetter? c with
    | none => rfl
    | some i =>
      rw [← Instruction.letter_of_ofLetter? hc, char_letter, Instruction.ofLetter?_letter] at h
      cases h

theorem all_text {P : Char → Bool} (h : ∀ c, P (ρ.char c) = P c) (t : Text) :
    (ρ.text t).all P = t.all P := by
  rw [text, List.all_map, show P ∘ ρ.char = P from funext h]

/-! ### Lines and white space -/

theorem consLine_text (c : Char) (lines : List Text) :
    consLine (ρ.char c) (lines.map ρ.text) = (consLine c lines).map ρ.text := by
  cases lines <;> rfl

/-- A carriage return before a line feed stands where it stood. -/
theorem not_pair_text {c : Char} {rest : Text} (h : ∀ after, c = '\r' → rest ≠ '\n' :: after) :
    ∀ after, ρ.char c = '\r' → ρ.text rest ≠ '\n' :: after := by
  intro after hc hrest
  obtain ⟨d, rest', rfl, hd, -⟩ := List.map_eq_cons_iff.1 hrest
  rw [char_eq_iff ρ (by decide)] at hc hd
  exact h rest' hc (by rw [hd])

@[simp] theorem splitLines_text (t : Text) :
    splitLines (ρ.text t) = (splitLines t).map ρ.text := by
  fun_induction splitLines t with
  | case1 => rfl
  | case2 rest ih =>
    rw [text_cons, text_cons, char_of_isMark ρ (by decide), char_of_isMark ρ (by decide),
      splitLines, ih]
    rfl
  | case3 c rest hpair hbreak ih =>
    rw [text_cons, splitLines, isLineBreak_char, if_pos hbreak, ih]
    · rfl
    · exact ρ.not_pair_text hpair
  | case4 c rest hpair hbreak ih =>
    rw [text_cons, splitLines, isLineBreak_char, if_neg hbreak, ih, consLine_text]
    exact ρ.not_pair_text hpair

theorem isBlank_comp_char : isBlank ∘ ρ.char = isBlank := funext ρ.isBlank_char

@[simp] theorem trimStart_text (t : Text) : trimStart (ρ.text t) = ρ.text (trimStart t) := by
  rw [trimStart, text, List.dropWhile_map, isBlank_comp_char]
  rfl

@[simp] theorem trimEnd_text (t : Text) : trimEnd (ρ.text t) = ρ.text (trimEnd t) := by
  rw [trimEnd, text, ← List.map_reverse, List.dropWhile_map, isBlank_comp_char, ← List.map_reverse]
  rfl

@[simp] theorem trim_text (t : Text) : trim (ρ.text t) = ρ.text (trim t) := by
  rw [trim, trimStart_text, trimEnd_text, trim]

@[simp] theorem indent_text (t : Text) : indent (ρ.text t) = indent t := by
  rw [indent, text, List.takeWhile_map, isBlank_comp_char, List.length_map, indent]

/-! ### Cutting and argument lists -/

theorem splitOn_text {separator : Char} (h : IsMark separator) (t : Text) :
    List.splitOn separator (ρ.text t) = (List.splitOn separator t).map ρ.text := by
  induction t with
  | nil => rfl
  | cons c t ih =>
    simp only [text_cons, List.splitOn_cons_eq_if_modifyHead, beq_iff_eq, char_eq_iff ρ h, ih]
    split
    · rfl
    · cases List.splitOn separator t <;> rfl

@[simp] theorem closingDistance_text (depth : Int) (t : Text) :
    Call.closingDistance depth (ρ.text t) = Call.closingDistance depth t := by
  induction t generalizing depth with
  | nil => rfl
  | cons c t ih =>
    simp (disch := decide) only [text_cons, Call.closingDistance, char_eq_iff, ih]

/-- The argument list that a renamed text starts with. -/
theorem takeArguments_text (t : Text) :
    Call.takeArguments (ρ.text t) =
      (ρ.text (Call.takeArguments t).1, ρ.text (Call.takeArguments t).2) := by
  cases t with
  | nil => rfl
  | cons c inside =>
    by_cases hc : c = '('
    · rw [hc, text_cons, char_of_isMark ρ (by decide)]
      simp only [Call.takeArguments, closingDistance_text]
      cases Call.closingDistance 1 inside with
      | none => rfl
      | some n => simp only [text, List.map_take, List.map_drop]
    · have hother : ∀ (d : Char) (u : Text), d ≠ '(' →
          Call.takeArguments (d :: u) = ([], d :: u) := by
        intro d u hd
        rw [Call.takeArguments]
        rintro inside ⟨⟩
        exact hd rfl
      rw [text_cons, hother c inside hc, hother _ _ (by rwa [ne_eq, char_eq_iff ρ (by decide)])]
      rfl

@[simp] theorem arguments_text (t : Text) :
    Call.arguments (ρ.text t) = (Call.arguments t).map ρ.text := by
  unfold Call.arguments
  rw [isEmpty_text, splitOn_text ρ (by decide)]
  split
  · rfl
  · simp only [List.map_map, Function.comp_def, trim_text]

/-! ### Numerals and expressions -/

theorem splitSign_text (t : Text) :
    Numeral.splitSign (ρ.text t) = ((Numeral.splitSign t).1, ρ.text (Numeral.splitSign t).2) := by
  cases t with
  | nil => rfl
  | cons c rest =>
    by_cases hminus : c = '-'
    · rw [hminus, text_cons, char_of_isMark ρ (by decide)]
      rfl
    by_cases hplus : c = '+'
    · rw [hplus, text_cons, char_of_isMark ρ (by decide)]
      rfl
    have hother : ∀ (d : Char) (u : Text), d ≠ '-' → d ≠ '+' →
        Numeral.splitSign (d :: u) = (false, d :: u) := by
      intro d u hm hp
      rw [Numeral.splitSign]
      · rintro rest ⟨⟩
        exact hm rfl
      · rintro rest ⟨⟩
        exact hp rfl
    rw [text_cons, hother c rest hminus hplus,
      hother _ _ (by rwa [ne_eq, char_eq_iff ρ (by decide)])
        (by rwa [ne_eq, char_eq_iff ρ (by decide)])]
    rfl

/-- Digits are no letters. -/
theorem text_of_all_isDigit {t : Text} (h : t.all isDigit = true) : ρ.text t = t := by
  have hfix : ∀ c ∈ t, ρ.char c = id c := by
    intro c hc
    refine char_of_isMark ρ (by_contra fun hletter => ?_)
    rw [List.all_eq_true] at h
    exact absurd (h c hc) (by simp [isDigit_of_not_isMark c hletter])
  rw [text, List.map_congr_left hfix, List.map_id]

@[simp] theorem signed?_text (t : Text) : Numeral.signed? (ρ.text t) = Numeral.signed? t := by
  simp only [Numeral.signed?, splitSign_text, isEmpty_text, all_text ρ ρ.isDigit_char]
  split
  · rename_i hdigits
    rw [text_of_all_isDigit ρ (Bool.and_eq_true_iff.1 hdigits).2]
  · rfl

@[simp] theorem isNumeric_text (t : Text) :
    Expression.isNumeric (ρ.text t) = Expression.isNumeric t := by
  rw [Expression.isNumeric, Expression.isNumeric, isEmpty_text, all_text ρ ρ.isNumericChar_char]

@[simp] theorem letter?_text (t : Text) :
    Expression.letter? (ρ.text t) = (Expression.letter? t).map ρ.char := by
  match t with
  | [] => rfl
  | [c] =>
    simp only [text_cons, text_nil, Expression.letter?, isParameterLetter_char]
    split <;> rfl
  | _ :: _ :: _ => rfl

end Renaming

end RobotMaze
