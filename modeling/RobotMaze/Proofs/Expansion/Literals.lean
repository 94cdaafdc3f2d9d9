import RobotMaze.Proofs.Expansion.Bindings
import RobotMaze.Proofs.Expansion.Limits
import RobotMaze.Proofs.Program.Expression
import RobotMaze.Simulation

/-!
# Programs without long numerals

An expansion fails for one of two reasons: a call is too deep, or a numeral has too many digits. The
first is caught and shown as the end of a game, for which the limit on depth must be written out.
The second is not caught, nor is a limit with too many digits, and this file says when neither of
them happens.

Whatever is read as a numeral is a part of the text of the program. It stands in an argument, an
argument stands in the text of a frame, and such a text is the main program, a body, or an argument
itself (`Frame.OfProgram`). Nothing is put together on the way: a text that a fragment brings in is
read on its own, and cutting at a sign or a comma only makes parts smaller. The lines of the main
program are put together before all this, so that digits at the end of one line and at the start of
the next make one numeral.

Numeric arguments have the digits `0` to `9` only, though numerals in general may have digits of any
script (`plain_of_isNumericChar`).

## Main results

* `Expression.exists_evaluate_eq` — an expression without long numerals has a value
* `Expansion.step_ne_literal`, `Expansion.failure_run_ne_literal` — one step, and a whole run
* `Simulation.exists_start_iff` — when a program without long numerals has a simulation
-/

namespace RobotMaze

open Text

/-! ### Runs of digits -/

/-- No run of the digits `0` to `9` in the text is longer than a numeral may be. -/
def Text.ShortRuns (t : Text) : Prop :=
  ∀ run, run <:+: t → (∀ c ∈ run, '0' ≤ c ∧ c ≤ '9') → run.length ≤ Numeral.maxDigits

theorem Text.ShortRuns.of_part {t u : Text} (h : ShortRuns u) (ht : t <:+: u) : ShortRuns t :=
  fun run hrun => h run (hrun.trans ht)

theorem Text.shortRuns_of_length_le {t : Text} (h : t.length ≤ Numeral.maxDigits) : ShortRuns t :=
  fun _ hrun _ => Nat.le_trans hrun.length_le h

/-- No run of digits in the main program or in a body is longer than a numeral may be. -/
structure Program.ShortRuns (p : Program) : Prop where
  main : Text.ShortRuns p.main
  body : ∀ d ∈ p.functions, Text.ShortRuns d.body

theorem Program.ShortRuns.of_holds {p : Program} {t : Text} (h : p.ShortRuns) (ht : p.Holds t) :
    Text.ShortRuns t := by
  rcases ht with ht | ⟨d, hd, ht⟩
  · exact h.main.of_part ht
  · exact (h.body d hd).of_part ht

/-! ### Values -/

theorem Numeral.of_signed? {t digits : Text} {negative : Bool}
    (h : signed? t = some (negative, digits)) : digits <:+ t ∧ ∀ c ∈ digits, isDigit c = true := by
  obtain ⟨⟨-, hdigits⟩, hsign⟩ := cases_of_signed? h
  refine ⟨?_, hdigits⟩
  rcases hsign with ⟨rfl, -⟩ | ⟨rfl, -⟩ | ⟨rfl, -⟩
  · exact List.suffix_rfl
  · exact List.suffix_cons _ _
  · exact List.suffix_cons _ _

namespace Expression

theorem toNat_le_of_isNumericChar {c : Char} (h : isNumericChar c = true) : c.toNat < 91 := by
  simp only [isNumericChar, isParameterLetter, Bool.or_eq_true, Bool.and_eq_true,
    decide_eq_true_eq, beq_iff_eq] at h
  rcases h with ((⟨-, h⟩ | ⟨-, h⟩) | rfl) | rfl
  · exact Nat.lt_of_le_of_lt (show c.toNat ≤ '9'.toNat from h) (by decide)
  · exact Nat.lt_of_le_of_lt (show c.toNat ≤ 'Z'.toNat from h) (by decide)
  · decide
  · decide

/-- A digit in a numeric argument is one of the ten of ASCII. -/
theorem plain_of_isNumericChar {c : Char} (hn : isNumericChar c = true) (hd : isDigit c = true) :
    '0' ≤ c ∧ c ≤ '9' := by
  have hall : ∀ n < 91, isNumericChar (Char.ofNat n) = true → isDigit (Char.ofNat n) = true →
      '0' ≤ Char.ofNat n ∧ Char.ofNat n ≤ '9' := by decide
  have hc := hall c.toNat (toNat_le_of_isNumericChar hn)
  rw [Char.ofNat_toNat] at hc
  exact hc hn hd

/-- **Values.** A numeric argument without long runs of digits has a value. -/
theorem exists_evaluate_eq (scope : Scope) {expr : Text}
    (hn : ∀ c ∈ expr, isNumericChar c = true) (hr : ShortRuns expr) :
    ∃ n, evaluate scope expr = .ok n := by
  have htrim : ∀ x : Text, trim x <:+: x := isInfix_trim
  -- The cases are the forms that are tried in turn, and each of them looks at parts of the text.
  induction expr using evaluate.induct with
  | case1 x e negative digits h =>
    obtain ⟨hsuffix, hdigits⟩ := Numeral.of_signed? h
    have hpart : digits <:+: x := hsuffix.isInfix.trans (htrim x)
    have hshort : digits.length ≤ Numeral.maxDigits := by
      refine hr digits hpart fun c hc => ?_
      exact plain_of_isNumericChar (hn c (hpart.subset hc)) (hdigits c hc)
    rw [evaluate_of_signed? h, Numeral.value, if_neg (Nat.not_lt.2 hshort)]
    exact ⟨_, rfl⟩
  | case2 x e hs c hc => exact ⟨_, evaluate_of_letter? hs hc⟩
  | case3 x e hs hl hplus ih =>
    have hterms : (List.splitOn '+' (trim x)).mapM (evaluate scope) =
        (List.splitOn '+' (trim x)).mapM fun t => pure ((evaluate scope t).toOption.getD 0) := by
      refine mapM_congr fun t ht => ?_
      have hpart : t <:+: x := (isInfix_of_mem_splitOn ht).trans (htrim x)
      obtain ⟨n, h⟩ := ih t ht (fun c hc => hn c (hpart.subset hc)) (hr.of_part hpart)
      rw [h]
      rfl
    rw [evaluate_of_plus hs hl hplus, hterms, List.mapM_pure]
    exact ⟨_, rfl⟩
  | case4 x e hs hl hplus hminus a b hpieces iha ihb =>
    have hpart : ∀ t ∈ [a, b], t <:+: x := by
      intro t ht
      exact (isInfix_of_mem_splitOn (hpieces ▸ ht)).trans (htrim x)
    have ha := hpart a List.mem_cons_self
    have hb := hpart b (List.mem_cons_of_mem a List.mem_cons_self)
    obtain ⟨m, hm⟩ := iha (fun c hc => hn c (ha.subset hc)) (hr.of_part ha)
    obtain ⟨n, hn⟩ := ihb (fun c hc => hn c (hb.subset hc)) (hr.of_part hb)
    rw [evaluate_of_minus hs hl hplus hpieces, hm, hn]
    exact ⟨_, rfl⟩
  | case5 x e hs hl hplus hminus hpieces => exact ⟨_, evaluate_of_other hs hl hplus hpieces⟩
  | case6 x e hs hl hplus hminus =>
    have hone : List.splitOn '-' (trim x) = [trim x] := List.splitOn_eq_singleton hminus
    have hpieces : ∀ a b, List.splitOn '-' (trim x) ≠ [a, b] := by simp [hone]
    exact ⟨_, evaluate_of_other hs hl hplus hpieces⟩

end Expression

/-! ### Calls -/

theorem Definition.exists_bindPairs_eq (caller : Context) {pairs : List (Name × Text)}
    (h : ∀ pair ∈ pairs, ShortRuns pair.2) (callee : Scope) :
    ∃ context, bindPairs caller pairs callee = .ok context := by
  induction pairs generalizing callee with
  | nil => exact ⟨_, rfl⟩
  | cons pair pairs ih =>
    obtain ⟨param, arg⟩ := pair
    have hrest := ih fun pair hpair => h pair (List.mem_cons_of_mem _ hpair)
    rw [bindPairs]
    split
    · rename_i hnumeric
      have hchars : ∀ c ∈ arg, Expression.isNumericChar c = true := by
        simp only [Expression.isNumeric, Bool.and_eq_true, List.all_eq_true] at hnumeric
        exact hnumeric.2
      obtain ⟨n, hn⟩ :=
        Expression.exists_evaluate_eq caller.scope hchars (h _ List.mem_cons_self)
      simp only [hn]
      split
      · exact ⟨_, rfl⟩
      · exact hrest _
    · exact hrest _

theorem Frame.OfProgram.call_ne_literal {p : Program} {f : Frame} {c : Char} {rest : Text}
    (h : f.OfProgram p) (hp : p.ShortRuns) (hu : f.unread = c :: rest) (maxDepth : Int)
    (e : Numeral.TooLong) :
    f.call maxDepth [c] (Call.arguments (Call.takeArguments rest).1) ≠ .error (.literal e) := by
  have hargs : ∀ arg ∈ Call.arguments (Call.takeArguments rest).1, ShortRuns arg := by
    intro arg harg
    obtain ⟨-, -, hpart⟩ := Call.of_mem_arguments harg
    have hrest : p.Holds rest := h.held_rest hu
    exact hp.of_holds (hrest.of_infix (hpart.trans (Call.isInfix_takeArguments_fst rest)))
  rw [Frame.call]
  split
  · simp
  · split
    · simp
    · rename_i d hget
      have hpairs : ∀ pair ∈ d.params.zip (Call.arguments (Call.takeArguments rest).1),
          ShortRuns pair.2 := fun pair hpair => hargs _ (List.of_mem_zip hpair).2
      obtain ⟨context, hbind⟩ :=
        Definition.exists_bindPairs_eq f.context hpairs f.context.scope
      rw [Definition.bind, hbind]
      cases context <;> simp

namespace Expansion

variable {p : Program} {maxDepth : Int} {stack : List Frame}

/-- **One step** of a program without long numerals does not fail for a numeral. -/
theorem step_ne_literal (hp : p.ShortRuns) (h : ∀ f ∈ stack, f.OfProgram p) (e : Numeral.TooLong) :
    step maxDepth stack ≠ .failed (.literal e) := by
  intro hs
  cases stack with
  | nil => cases hs
  | cons f below =>
    rw [step] at hs
    split at hs
    · cases hs
    · rename_i c rest hu
      have hread : f.read maxDepth c rest ≠ .error (.literal e) := by
        by_cases hc : IsCallLetter c
        · rw [Ne, Frame.read_eq_error_iff hc]
          exact (h f List.mem_cons_self).call_ne_literal hp hu maxDepth e
        · obtain ⟨effect, heffect, -⟩ := @Frame.exists_effect_of_not_isCallLetter f c rest hc
          simp [heffect maxDepth]
      split at hs
      · rename_i herror
        cases hs
        exact hread herror
      all_goals cases hs

/-- **A whole run** of a program without long numerals does not fail for a numeral. -/
theorem failure_run_ne_literal (hp : p.ShortRuns) (h : ∀ f ∈ stack, f.OfProgram p)
    (e : Numeral.TooLong) (room : Option Nat) (given : List Instruction) :
    (run maxDepth room stack given).failure ≠ some (.literal e) := by
  revert h
  refine run_induction (P := fun _ stack _ expansion =>
    (∀ f ∈ stack, f.OfProgram p) → expansion.failure ≠ some (.literal e)) ?_ ?_ ?_ ?_
    room stack given
  · intro stack given _ he
    cases he
  · intro room stack given _ _ _ he
    cases he
  · intro room stack given failure _ hs h he
    cases he
    exact step_ne_literal hp h e hs
  · intro room stack given emitted stack' rest _ hs ih h
    exact ih (Frame.OfProgram.transition h (step_eq_next_iff.1 hs))

end Expansion

/-! ### Programs -/

/-- The expansion of a program without long numerals does not break off for one. -/
theorem expandProgram_ne_literal {program : Text} (hp : (Program.parse program).ShortRuns)
    (maxDepth : Int) (limit : Option Int) (e : Numeral.TooLong) :
    expandProgram program maxDepth limit ≠ .error (.literal e) := by
  have hfailure : ((Program.parse program).expand maxDepth limit).failure ≠ some (.literal e) :=
    Expansion.failure_run_ne_literal hp
      (List.forall_mem_singleton.2 (Frame.OfProgram.entry (Program.parse program))) e _ _
  intro he
  obtain ⟨w, hw⟩ := Expansion.result_eq_error_iff.1 he
  exact hfailure (congrArg Expansion.failure hw)

/-- An error for depth names the limit that the program was expanded with. -/
theorem maxDepth_of_expandProgram {program : Text} {maxDepth : Int} {limit : Option Int}
    {e : DepthExceeded} (h : expandProgram program maxDepth limit = .error (.depth e)) :
    e.maxDepth = maxDepth := by
  obtain ⟨w, hw⟩ := Expansion.result_eq_error_iff.1 h
  exact (Expansion.depth_of_run (depthsWithin_start _ _ _ _) (congrArg Expansion.failure hw)).1

/-! ### Simulations -/

namespace Simulation

variable {program : Text} {maxDepth maxSteps : Int}

/-- A program has a simulation unless its expansion raises a numeral error. -/
theorem exists_start_iff_ne_literal (initial : State) :
    (∃ sim, (start program initial maxDepth maxSteps).value = .ok sim) ↔
      ∀ e, expandForRun program maxDepth maxSteps ≠ .error (.literal e) := by
  show (∃ sim, ofExpansion initial maxSteps (expandForRun program maxDepth maxSteps) = .ok sim) ↔ _
  cases expandForRun program maxDepth maxSteps with
  | ok instructions => simp [ofExpansion]
  | error e => cases e <;> simp [ofExpansion]

/-- An error for depth is raised as such if its limit can be written out, and otherwise there is no
simulation. -/
theorem value_start_of_not_writable {e : DepthExceeded}
    (h : expandProgram program maxDepth (some (maxSteps + 1)) = .error (.depth e))
    (hw : ¬Numeral.Writable maxDepth) (initial : State) :
    (start program initial maxDepth maxSteps).value = .error .writing := by
  have hraised : ExpansionError.raised (.depth e) = .literal .writing := by
    rw [ExpansionError.raised, maxDepth_of_expandProgram h, if_neg hw]
  show ofExpansion initial maxSteps (expandForRun program maxDepth maxSteps) = _
  rw [expandForRun_of_error h, hraised]
  rfl

/-- **When there is a simulation.** A program without long numerals has one exactly if no call is
too deep or the limit on depth can be written out, as the error for depth asks for. -/
theorem exists_start_iff (hp : (Program.parse program).ShortRuns) (maxDepth maxSteps : Int)
    (initial : State) :
    (∃ sim, (start program initial maxDepth maxSteps).value = .ok sim) ↔
      Numeral.Writable maxDepth ∨
        ∀ e, expandProgram program maxDepth (some (maxSteps + 1)) ≠ .error (.depth e) := by
  rw [exists_start_iff_ne_literal]
  cases hexpansion : expandProgram program maxDepth (some (maxSteps + 1)) with
  | ok instructions => simp [expandForRun_of_ok hexpansion]
  | error failure =>
    rw [expandForRun_of_error hexpansion]
    cases failure with
    | literal e => exact absurd hexpansion (expandProgram_ne_literal hp _ _ e)
    | depth e =>
      rw [ExpansionError.raised, maxDepth_of_expandProgram hexpansion]
      by_cases hw : Numeral.Writable maxDepth <;> simp [hw]

end Simulation

end RobotMaze
