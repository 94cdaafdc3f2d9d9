import RobotMaze.Proofs.Expansion.Limits
import RobotMaze.Proofs.Program.Expression
import RobotMaze.Proofs.Program.Table
import RobotMaze.Proofs.Text.Parts
import RobotMaze.Proofs.Text.Places

/-!
# Programs that are written down

A program text can be put together from parts that are not known character by character: a letter
of some kind, some instructions, a numeral. This file writes definitions, calls and numerals, and
says what reading makes of them. All that reading needs to know of the parts is which characters
they do not have.

## Plain text

Every part is made of the visible characters of ASCII (`Text.IsPlain`). In such a text there is no
line break and no white space, so it is one line, and there is nothing to trim.

## Main results

* `Expression.evaluate_numeral`, `Expression.evaluate_difference` — the value of a numeral, and of a
  letter minus a numeral
* `Definition.parse?_written` — a definition that is written is read back
* `Program.parse_written` — a program of one definition and one call
-/

namespace RobotMaze

open Text

/-! ### Plain text -/

namespace Text

/-- All characters of the text are visible characters of ASCII. -/
def IsPlain (t : Text) : Prop := ∀ c ∈ t, 0x21 ≤ c.toNat ∧ c.toNat ≤ 0x7E

@[simp] theorem isPlain_nil : IsPlain [] := List.forall_mem_nil _

@[simp] theorem isPlain_cons {c : Char} {t : Text} :
    IsPlain (c :: t) ↔ (0x21 ≤ c.toNat ∧ c.toNat ≤ 0x7E) ∧ IsPlain t := List.forall_mem_cons

@[simp] theorem isPlain_append {t u : Text} : IsPlain (t ++ u) ↔ IsPlain t ∧ IsPlain u :=
  List.forall_mem_append

variable {t : Text}

theorem IsPlain.isBlank (h : IsPlain t) : ∀ c ∈ t, isBlank c = false := by
  intro c hc
  obtain ⟨hlow, hhigh⟩ := h c hc
  simp only [Text.isBlank, Bool.or_eq_false_iff, Bool.and_eq_false_iff, decide_eq_false_iff_not,
    beq_eq_false_iff_ne]
  omega

theorem IsPlain.isLineBreak (h : IsPlain t) : ∀ c ∈ t, isLineBreak c = false := by
  intro c hc
  obtain ⟨hlow, hhigh⟩ := h c hc
  simp only [Text.isLineBreak, Bool.or_eq_false_iff, Bool.and_eq_false_iff, decide_eq_false_iff_not,
    beq_eq_false_iff_ne]
  omega

theorem IsPlain.trim_eq (h : IsPlain t) : trim t = t := trim_of_forall h.isBlank

theorem IsPlain.indent_eq (h : IsPlain t) : indent t = 0 := by
  have := indent_add_length_trimStart t
  rw [trimStart, dropWhile_isBlank h.isBlank] at this
  omega

end Text

/-! ### Words and lists -/

namespace Text

/-- All characters of the text are letters or digits of ASCII. -/
def IsWord (t : Text) : Prop := ∀ c ∈ t, c.isAlphanum = true

/-- All characters of the text are letters, digits, commas or minus signs: an argument list without
parentheses inside. -/
def IsSimple (t : Text) : Prop := ∀ c ∈ t, c.isAlphanum = true ∨ c = ',' ∨ c = '-'

@[simp] theorem isSimple_nil : IsSimple [] := List.forall_mem_nil _

@[simp] theorem isSimple_cons {c : Char} {t : Text} :
    IsSimple (c :: t) ↔ (c.isAlphanum = true ∨ c = ',' ∨ c = '-') ∧ IsSimple t :=
  List.forall_mem_cons

@[simp] theorem isSimple_append {t u : Text} : IsSimple (t ++ u) ↔ IsSimple t ∧ IsSimple u :=
  List.forall_mem_append

variable {t : Text} {c : Char}

theorem IsWord.notMem (h : IsWord t) (hc : c.isAlphanum = false) : c ∉ t := by
  intro hmem
  rw [h c hmem] at hc
  cases hc

theorem IsWord.isSimple (h : IsWord t) : IsSimple t := fun c hc => .inl (h c hc)

theorem IsSimple.notMem (h : IsSimple t) (hc : c.isAlphanum = false ∧ c ≠ ',' ∧ c ≠ '-') :
    c ∉ t := by
  intro hmem
  rcases h c hmem with h | h
  · rw [h] at hc
    cases hc.1
  · exact h.elim hc.2.1 hc.2.2

theorem isAlphanum_iff :
    c.isAlphanum = true ↔ ('A' ≤ c ∧ c ≤ 'Z' ∨ 'a' ≤ c ∧ c ≤ 'z') ∨ '0' ≤ c ∧ c ≤ '9' := by
  show (decide ('A' ≤ c ∧ c ≤ 'Z') || (decide ('a' ≤ c) && decide (c ≤ 'z')) ||
    (decide ('0' ≤ c) && decide (c ≤ '9'))) = true ↔ _
  simp only [Bool.or_eq_true, Bool.and_eq_true, decide_eq_true_eq]

theorem plain_of_isAlphanum (h : c.isAlphanum = true) : 0x21 ≤ c.toNat ∧ c.toNat ≤ 0x7E := by
  have hbounds : ∀ {low high : Char}, 0x21 ≤ low.toNat ∧ high.toNat ≤ 0x7E →
      low ≤ c ∧ c ≤ high → 0x21 ≤ c.toNat ∧ c.toNat ≤ 0x7E := by
    rintro low high ⟨hlow, hhigh⟩ ⟨hle, hge⟩
    have hle : low.toNat ≤ c.toNat := hle
    have hge : c.toNat ≤ high.toNat := hge
    omega
  rcases isAlphanum_iff.1 h with (h | h) | h
  · exact hbounds (by decide) h
  · exact hbounds (by decide) h
  · exact hbounds (by decide) h

theorem IsSimple.isPlain (h : IsSimple t) : IsPlain t := by
  intro c hc
  rcases h c hc with h | rfl | rfl
  · exact plain_of_isAlphanum h
  · decide
  · decide

end Text

theorem IsCallLetter.isAlphanum {c : Char} (h : IsCallLetter c) : c.isAlphanum = true :=
  isAlphanum_iff.2 (.inl (.inr h.range))

theorem isAlphanum_of_isParameterLetter {c : Char} (h : isParameterLetter c = true) :
    c.isAlphanum = true := by
  refine isAlphanum_iff.2 (.inl (.inl ?_))
  simpa [isParameterLetter] using h

theorem Instruction.isWord_write (w : List Instruction) : IsWord (write w) := by
  intro c hc
  obtain ⟨i, -, rfl⟩ := List.mem_map.1 hc
  cases i <;> rfl

/-! ### Numerals and differences -/

/-- A text that starts with a letter or a digit has no sign in front. -/
theorem Numeral.splitSign_of_isAlphanum {c : Char} (h : c.isAlphanum = true) (rest : Text) :
    splitSign (c :: rest) = (false, c :: rest) := by
  unfold splitSign
  split
  · rename_i heq
    cases heq
    cases h
  · rename_i heq
    cases heq
    cases h
  · rfl

/-- A decimal numeral: the digits `0` to `9`, at least one, and no more than a numeral may have. -/
structure IsNumeral (t : Text) : Prop where
  ne_nil : t ≠ []
  digit : ∀ c ∈ t, '0' ≤ c ∧ c ≤ '9'
  length_le : t.length ≤ Numeral.maxDigits

instance (t : Text) : Decidable (IsNumeral t) :=
  decidable_of_iff
    (t ≠ [] ∧ t.all (fun c => '0' ≤ c ∧ c ≤ '9') = true ∧ t.length ≤ Numeral.maxDigits)
    ⟨fun ⟨hne, hall, hle⟩ => ⟨hne, by simpa using hall, hle⟩,
      fun h => ⟨h.ne_nil, by simpa using h.digit, h.length_le⟩⟩

namespace IsNumeral

variable {t : Text} (h : IsNumeral t)
include h

theorem isWord : IsWord t := fun c hc => isAlphanum_iff.2 (.inr (h.digit c hc))

theorem isDigit : ∀ c ∈ t, isDigit c = true := by
  have hall : ∀ n < 58, 48 ≤ n → Text.isDigit (Char.ofNat n) = true := by decide
  intro c hc
  obtain ⟨hlow, hhigh⟩ := h.digit c hc
  have hhigh : c.toNat ≤ '9'.toNat := hhigh
  have hc := hall c.toNat (Nat.lt_succ_of_le hhigh) hlow
  rwa [Char.ofNat_toNat] at hc

theorem signed?_eq : Numeral.signed? t = some (false, t) := by
  have hsign : Numeral.splitSign t = (false, t) := by
    cases t with
    | nil => exact absurd rfl h.ne_nil
    | cons c rest => exact Numeral.splitSign_of_isAlphanum (h.isWord c List.mem_cons_self) rest
  rw [Numeral.signed?, hsign]
  refine if_pos ?_
  rw [List.isEmpty_eq_false_iff.2 h.ne_nil, List.all_eq_true.2 h.isDigit]
  rfl

theorem all_isNumericChar : t.all Expression.isNumericChar = true := by
  refine List.all_eq_true.2 fun c hc => ?_
  simp [Expression.isNumericChar, h.digit c hc]

theorem isNumeric : Expression.isNumeric t = true := by
  rw [Expression.isNumeric, List.isEmpty_eq_false_iff.2 h.ne_nil, h.all_isNumericChar]
  rfl

end IsNumeral

namespace Expression

variable {t : Text} {c : Char}

/-- A numeral has its value in every scope. -/
theorem evaluate_numeral (h : IsNumeral t) (scope : Scope) :
    evaluate scope t = .ok (digitsValue t) := by
  have hsigned : Numeral.signed? (trim t) = some (false, t) := by
    rw [h.isWord.isSimple.isPlain.trim_eq, h.signed?_eq]
  rw [evaluate_of_signed? hsigned, Numeral.value, if_neg (Nat.not_lt.2 h.length_le)]
  rfl

theorem isDigit_of_isParameterLetter (h : isParameterLetter c = true) : isDigit c = false := by
  have hall : ∀ n < 91, 65 ≤ n → isDigit (Char.ofNat n) = false := by decide
  simp only [isParameterLetter, Bool.and_eq_true, decide_eq_true_eq] at h
  have hhigh : c.toNat ≤ 'Z'.toNat := h.2
  have hc := hall c.toNat (Nat.lt_succ_of_le hhigh) h.1
  rwa [Char.ofNat_toNat] at hc

/-- A letter has the number that it is bound to. -/
theorem evaluate_letter (h : isParameterLetter c = true) (scope : Scope) :
    evaluate scope [c] = .ok (scope.number [c]) := by
  have halnum := isAlphanum_of_isParameterLetter h
  have htrim : trim [c] = [c] := IsPlain.trim_eq (by simpa using plain_of_isAlphanum halnum)
  have hsigned : Numeral.signed? [c] = none := by
    rw [Numeral.signed?, Numeral.splitSign_of_isAlphanum halnum]
    simp [isDigit_of_isParameterLetter h]
  have hletter : letter? [c] = some c := if_pos h
  exact evaluate_of_letter? (by rw [htrim, hsigned]) (by rw [htrim, hletter])

theorem isSimple_difference (hc : isParameterLetter c = true) (h : IsNumeral t) :
    IsSimple (c :: '-' :: t) := by
  simp [isAlphanum_of_isParameterLetter hc, h.isWord.isSimple]

theorem comma_notMem_difference (hc : isParameterLetter c = true) (h : IsNumeral t) :
    ',' ∉ c :: '-' :: t := by
  have hne : ',' ≠ c := by
    rintro rfl
    exact absurd hc (by decide)
  simp [hne, h.isWord.notMem]

theorem isNumeric_difference (hc : isParameterLetter c = true) (h : IsNumeral t) :
    isNumeric (c :: '-' :: t) = true := by
  have hall : (c :: '-' :: t).all isNumericChar = true := by
    rw [List.all_cons, List.all_cons, h.all_isNumericChar]
    simp [isNumericChar, hc]
  rw [isNumeric, hall]
  rfl

/-- A letter minus a numeral is the difference of what they stand for. -/
theorem evaluate_difference (hc : isParameterLetter c = true) (h : IsNumeral t) (scope : Scope) :
    evaluate scope (c :: '-' :: t) = .ok (scope.number [c] - digitsValue t) := by
  have halnum := isAlphanum_of_isParameterLetter hc
  have hsimple := isSimple_difference hc h
  have htrim : trim (c :: '-' :: t) = c :: '-' :: t := hsimple.isPlain.trim_eq
  have hsigned : Numeral.signed? (c :: '-' :: t) = none := by
    rw [Numeral.signed?, Numeral.splitSign_of_isAlphanum halnum]
    simp [isDigit_of_isParameterLetter hc]
  have hpieces : List.splitOn '-' (c :: '-' :: t) = [[c], t] := by
    have hminus : c ≠ '-' := by
      rintro rfl
      cases halnum
    have hfirst : '-' ∉ [c] := fun hmem => hminus (List.mem_singleton.1 hmem).symm
    rw [← List.singleton_append, List.splitOn_append_cons_self_of_not_mem hfirst,
      List.splitOn_eq_singleton (h.isWord.notMem (by decide))]
  have hplus : '+' ∉ c :: '-' :: t := hsimple.notMem (by decide)
  rw [evaluate_of_minus (by rw [htrim, hsigned]) (by rw [htrim]; rfl) (by rwa [htrim])
    (by rw [htrim, hpieces]), evaluate_letter hc, evaluate_numeral h]
  rfl

/-- A text in which the letter of an instruction stands is program text, and no number. -/
theorem isNumeric_of_mem_write {w : List Instruction} (h : w ≠ []) (before : Text) :
    isNumeric (before ++ Instruction.write w) = false := by
  obtain ⟨i, w, rfl⟩ := List.exists_cons_of_ne_nil h
  have hall : (before ++ Instruction.write (i :: w)).all isNumericChar = false := by
    refine List.all_eq_false.2 ⟨i.letter, by simp [Instruction.write], ?_⟩
    cases i <;> decide
  rw [isNumeric, hall, Bool.and_false]

theorem isNumeric_write (w : List Instruction) : isNumeric (Instruction.write w) = false := by
  cases w with
  | nil => rfl
  | cons i w => exact isNumeric_of_mem_write (List.cons_ne_nil i w) []

end Expression

/-! ### Definitions, calls and programs -/

/-- The line of a definition with parameters. -/
def Definition.written (name : Char) (params : List Char) (body : Text) : Text :=
  name :: '(' :: (List.intercalate [','] (params.map fun p => [p]) ++ ')' :: ':' :: body)

/-- A call with an argument list. -/
def Call.written (name : Char) (args : Text) : Text := name :: '(' :: (args ++ [')'])

namespace Definition

variable {name : Char} {params : List Char} {body t : Text}

/-- Parameters that are written are read back. -/
theorem readParams_joined (hne : params ≠ []) (h : ∀ p ∈ params, isParameterLetter p = true)
    (rest : Text) :
    readParams (List.intercalate [','] (params.map fun p => [p]) ++ ')' :: rest) =
      some (params.map fun p => [p], rest) := by
  induction params with
  | nil => exact absurd rfl hne
  | cons p params ih =>
    obtain ⟨hp, hparams⟩ := List.forall_mem_cons.1 h
    cases params with
    | nil => exact if_pos hp
    | cons q params =>
      have hrest := ih (List.cons_ne_nil q params) hparams
      rw [List.map_cons, List.map_cons, List.intercalate_cons_cons]
      show (if isParameterLetter p = true then _ else _) = _
      rw [if_pos hp]
      exact congrArg (Option.map _) hrest

/-- What a definition has after its name is read back. -/
theorem readRest_afterName (h : ∀ p ∈ params, isParameterLetter p = true) (body : Text) :
    readRest (afterName params body) = some (params.map fun p => [p], body) := by
  rw [afterName]
  split
  · rename_i hnil
    rw [hnil]
    rfl
  · rename_i hne
    rw [readRest, readParams_joined hne h]
    rfl

theorem isSimple_joined (h : ∀ p ∈ params, isParameterLetter p = true) :
    IsSimple (List.intercalate [','] (params.map fun p => [p])) := by
  induction params with
  | nil => exact isSimple_nil
  | cons p params ih =>
    obtain ⟨hp, hparams⟩ := List.forall_mem_cons.1 h
    have hfirst : IsSimple [p] := by simp [isAlphanum_of_isParameterLetter hp]
    cases params with
    | nil => exact hfirst
    | cons q params =>
      rw [List.map_cons, List.map_cons, List.intercalate_cons_cons, List.append_assoc]
      exact isSimple_append.2 ⟨hfirst, isSimple_cons.2 ⟨by simp, ih hparams⟩⟩

theorem isPlain_written (hname : IsCallLetter name)
    (hparams : ∀ p ∈ params, isParameterLetter p = true) (hbody : IsPlain body) :
    IsPlain (written name params body) := by
  simp [written, plain_of_isAlphanum hname.isAlphanum, (isSimple_joined hparams).isPlain, hbody]

/-- **A definition that is written is read back.** -/
theorem parse?_written (hname : IsCallLetter name) (hne : params ≠ [])
    (hparams : ∀ p ∈ params, isParameterLetter p = true) (hnodup : params.Nodup)
    (hbody : IsPlain body) (number : Int) :
    parse? (written name params body) number =
      some ⟨[name], params.map fun p => [p], body, number, 1⟩ := by
  have hplain := isPlain_written hname hparams hbody
  have hbreak : body.contains '\n' = false := by
    refine Bool.eq_false_iff.2 fun hmem => ?_
    exact absurd (hbody _ (List.contains_iff_mem.1 hmem)).1 (by decide)
  have hrest : readRest
      ('(' :: (List.intercalate [','] (params.map fun p => [p]) ++ ')' :: ':' :: body)) =
        some (params.map fun p => [p], body) := by
    have hread := readRest_afterName hparams body
    rwa [afterName, if_neg hne] at hread
  have hnodup : (params.map fun p => [p]).Nodup :=
    List.pairwise_map.2 (hnodup.imp fun hne heq => hne (List.singleton_inj.1 heq))
  rw [parse?, hplain.trim_eq, hplain.indent_eq]
  simp only [written, hrest, hname.1, hnodup, hbreak]
  rfl

/-- A line without a colon is no definition. -/
theorem parse?_of_notMem (h : ':' ∉ t) (number : Int) : parse? t number = none := by
  have hrest : ∀ {u : Text}, ':' ∉ u → readRest u = none := by
    intro u hu
    refine Option.eq_none_iff_forall_ne_some.2 fun ⟨params, body⟩ hread => hu ?_
    obtain ⟨letters, -, -, rfl⟩ := exists_of_readRest hread
    obtain ⟨before, hbefore⟩ := exists_afterName_eq letters body
    simp [hbefore]
  have htrim : ':' ∉ trim t := fun hmem => h ((isInfix_trim t).subset hmem)
  unfold parse?
  cases hline : trim t with
  | nil => rfl
  | cons name rest =>
    rw [hline] at htrim
    simp only [hrest fun hmem => htrim (List.mem_cons_of_mem name hmem)]

end Definition

namespace Call

variable {name : Char} {args : Text}

theorem isPlain_written (hname : IsCallLetter name) (hargs : IsSimple args) :
    IsPlain (written name args) := by
  simp [written, plain_of_isAlphanum hname.isAlphanum, hargs.isPlain]

/-- The argument list of a call that is written is taken off again. -/
theorem takeArguments_written (hargs : IsSimple args) (rest : Text) :
    takeArguments ('(' :: (args ++ ')' :: rest)) = (args, rest) := by
  refine takeArguments_append (fun c hc => ⟨?_, ?_⟩) rest
  · rintro rfl
    exact hargs.notMem (by decide) hc
  · rintro rfl
    exact hargs.notMem (by decide) hc

/-- A list without a comma is one argument. -/
theorem arguments_single (hargs : IsSimple args) (hne : args ≠ []) (hcomma : ',' ∉ args) :
    arguments args = [args] := by
  rw [arguments, List.isEmpty_eq_false_iff.2 hne, if_neg (by decide),
    List.splitOn_eq_singleton hcomma, List.map_singleton, hargs.isPlain.trim_eq]

/-- A list with one comma has two arguments, of which each may be empty. -/
theorem arguments_pair {first second : Text} (hargs : IsSimple (first ++ ',' :: second))
    (hfirst : ',' ∉ first) (hsecond : ',' ∉ second) :
    arguments (first ++ ',' :: second) = [first, second] := by
  obtain ⟨hplain, hrest⟩ := isSimple_append.1 hargs
  have htrim : trim second = second := (isSimple_cons.1 hrest).2.isPlain.trim_eq
  rw [arguments, List.isEmpty_eq_false_iff.2 (by simp), if_neg (by decide),
    List.splitOn_append_cons_self_of_not_mem hfirst second, List.splitOn_eq_singleton hsecond,
    List.map_cons, List.map_singleton, hplain.isPlain.trim_eq, htrim]

/-- A call is no definition. -/
theorem parse?_written (hname : IsCallLetter name) (hargs : IsSimple args) (number : Int) :
    Definition.parse? (written name args) number = none := by
  have hcolon : ':' ∉ args := hargs.notMem (by decide)
  have hne : ':' ≠ name := by
    rintro rfl
    exact absurd hname.1 (by decide)
  exact Definition.parse?_of_notMem (by simp [written, hcolon, hne]) number

end Call

/-- A line that is no definition, and has nothing to trim, is a line of the main part. -/
theorem ProgramLine.read_of_isPlain {t : Text} {number : Int} (hne : t ≠ []) (h : IsPlain t)
    (hparse : Definition.parse? t number = none) : read number t = .main ⟨number, 1, t⟩ := by
  rw [read, hparse, h.trim_eq, h.indent_eq]
  exact if_neg (by simpa using hne)

/-- **A program of a definition and a call.** The first line is its only function, and the second
line is its main part. -/
theorem Program.parse_written {name letter : Char} {params : List Char} {body args : Text}
    (hname : IsCallLetter name) (hne : params ≠ [])
    (hparams : ∀ p ∈ params, isParameterLetter p = true) (hnodup : params.Nodup)
    (hbody : IsPlain body) (hletter : IsCallLetter letter) (hargs : IsSimple args) :
    parse (Definition.written name params body ++ '\n' :: Call.written letter args) =
      ⟨[⟨[name], params.map fun p => [p], body, 1, 1⟩], [⟨2, 1, Call.written letter args⟩]⟩ := by
  have hfirst := Definition.isPlain_written hname hparams hbody
  have hsecond := Call.isPlain_written hletter hargs
  have hcall : Call.written letter args ≠ [] := List.cons_ne_nil _ _
  have hlines : splitLines
      (Definition.written name params body ++ '\n' :: Call.written letter args) =
        [Definition.written name params body, Call.written letter args] := by
    rw [splitLines_append hfirst.isLineBreak, splitLines_of_forall hsecond.isLineBreak hcall]
  have hdefinition : ProgramLine.read 1 (Definition.written name params body) =
      .definition ⟨[name], params.map fun p => [p], body, 1, 1⟩ := by
    rw [ProgramLine.read, Definition.parse?_written hname hne hparams hnodup hbody]
  have hmain : ProgramLine.read 2 (Call.written letter args) =
      .main ⟨2, 1, Call.written letter args⟩ :=
    ProgramLine.read_of_isPlain hcall hsecond (Call.parse?_written hletter hargs 2)
  have hprogram : programLines
      (Definition.written name params body ++ '\n' :: Call.written letter args) =
        [.definition ⟨[name], params.map fun p => [p], body, 1, 1⟩,
          .main ⟨2, 1, Call.written letter args⟩] := by
    rw [programLines, hlines, ← hdefinition, ← hmain]
    rfl
  rw [parse, hprogram]
  rfl

end RobotMaze
