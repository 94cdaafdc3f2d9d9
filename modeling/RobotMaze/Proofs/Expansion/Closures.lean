import RobotMaze.Proofs.Expansion.Recursion

/-!
# Arguments that grow

An argument that is program text is bound with the context of the caller, and a reference to it is
read in that context. The function of this file refers to its own parameter in the argument that it
passes on: on each level the parameter is bound to a text that has the same parameter in it, which
means what it meant one level above. So the bindings of the levels make a chain, as long as the
recursion is deep, and reading the parameter goes back along it to the first call.

Read where it is used, and not where it was passed, the parameter would refer to itself without an
end.

## Main results

* `Growth.meaning_parameter` — what the parameter means on a level
* `expandProgram_growth` — what the program gives
-/

namespace RobotMaze

open Text Expansion

/-- The program of two lines `f(B,N):Bf(BQ,N-1)` and `f(P,n)`. -/
def growth (f B N : Char) (P Q : List Instruction) (n : Text) : Text :=
  Definition.written f [B, N]
      (B :: Call.written f (B :: Instruction.write Q ++ ',' :: [N, '-', '1'])) ++
    '\n' :: Call.written f (Instruction.write P ++ ',' :: n)

example : growth 'f' 'X' 'N' [.step] [.right] "3".toList = "f(X,N):Xf(Xr,N-1)\nf(s,3)".toList := rfl

namespace Growth

variable {f B N : Char} {P Q : List Instruction} {n : Text}

/-- The arguments that the function passes on. -/
def args (B N : Char) (Q : List Instruction) : Text :=
  (B :: Instruction.write Q) ++ ',' :: [N, '-', '1']

/-- The function of the program. -/
def definition (f B N : Char) (Q : List Instruction) : Definition :=
  ⟨[f], [[B], [N]], B :: Call.written f (args B N Q), 1, 1⟩

/-- The context that a call leads to: a text with the context of the caller, and a counter. -/
def callee (B N : Char) (caller : Context) (t : Text) (counter : Int) : Context :=
  ⟨caller.functions,
    (caller.scope.insert [B] (.fragment t caller)).insert [N] (.datum (.number counter))⟩

/-- What the counter is on a level. -/
def counter (n : Text) (i : Nat) : Int := digitsValue n - i

/-- The context on a level. The text that is passed on has the parameter in it, and the context of
the level above with it. -/
def context (f B N : Char) (P Q : List Instruction) (n : Text) : Nat → Context
  | 0 => callee B N ⟨[definition f B N Q], .empty⟩ (Instruction.write P) (counter n 0)
  | i + 1 => callee B N (context f B N P Q n i) (B :: Instruction.write Q) (counter n (i + 1))

theorem functions_context (i : Nat) :
    (context f B N P Q n i).functions = [definition f B N Q] := by
  induction i with
  | zero => rfl
  | succ i ih => exact ih

theorem get?_callee (hne : B ≠ N) (caller : Context) (t : Text) (counter : Int) :
    (callee B N caller t counter).scope.get? [B] = some (.fragment t caller) := by
  have hnames : [N] ≠ [B] := fun h => hne (List.singleton_inj.1 h).symm
  rw [callee, Scope.get?_insert, if_neg hnames, Scope.get?_insert, if_pos rfl]

/-- What a reference gives in the context that a call leads to. -/
theorem meaning_callee (hB : isParameterLetter B = true) (hne : B ≠ N) {caller : Context} {t : Text}
    {w : List Instruction} {maxDepth depth : Int} (counter : Int)
    (h : meaning maxDepth t caller depth = ⟨w, none⟩) (rest : Text) :
    meaning maxDepth (B :: rest) (callee B N caller t counter) depth =
      andThen ⟨w, none⟩ (meaning maxDepth rest (callee B N caller t counter) depth) := by
  rw [meaning_fragment hB (get?_callee hne caller t counter), h]

/-- **What the parameter means on a level.** The induction goes back along the chain of contexts. -/
theorem meaning_parameter (hB : isParameterLetter B = true) (hne : B ≠ N) (i : Nat)
    (maxDepth depth : Int) (rest : Text) :
    meaning maxDepth (B :: rest) (context f B N P Q n i) depth =
      andThen ⟨P ++ (List.replicate i Q).flatten, none⟩
        (meaning maxDepth rest (context f B N P Q n i) depth) := by
  induction i generalizing rest with
  | zero =>
    refine meaning_callee hB hne _ ?_ rest
    rw [meaning_write]
    simp
  | succ i ih =>
    refine meaning_callee hB hne _ ?_ rest
    rw [ih, meaning_write, List.replicate_succ', List.flatten_append, List.flatten_singleton,
      ← List.append_assoc]
    rfl

theorem number_context (i : Nat) :
    (context f B N P Q n i).scope.number [N] = counter n i := by
  cases i <;> exact Scope.number_insert _ _ _

/-- A call binds the text with the context of the caller, and the counter of the level that it leads
to, or is dropped. -/
theorem bind_eq {caller : Context} {t arg : Text} {i : Nat} (ht : Expression.isNumeric t = false)
    (hnum : Expression.isNumeric arg = true)
    (h : Expression.evaluate caller.scope arg = .ok (counter n i)) :
    (definition f B N Q).bind [t, arg] caller =
      .ok (if i < digitsValue n then some (callee B N caller t (counter n i)) else none) := by
  have hpos : 0 < counter n i ↔ i < digitsValue n := by
    rw [counter]
    omega
  rw [← if_congr hpos rfl rfl]
  show Definition.bindPairs caller [([B], t), ([N], arg)] caller.scope = _
  rw [Definition.bindPairs_fragment ht, Definition.bindPairs_number hnum h]
  rfl

/-- One is a numeral. -/
theorem isNumeral_one : IsNumeral ['1'] := by decide

theorem isWord_argument (hB : isParameterLetter B = true) :
    IsWord (B :: Instruction.write Q) :=
  List.forall_mem_cons.2 ⟨isAlphanum_of_isParameterLetter hB, Instruction.isWord_write Q⟩

theorem isSimple_args (hB : isParameterLetter B = true) (hN : isParameterLetter N = true) :
    IsSimple (args B N Q) :=
  isSimple_append.2 ⟨(isWord_argument hB).isSimple,
    isSimple_cons.2 ⟨by simp, Expression.isSimple_difference hN isNumeral_one⟩⟩

/-- **The levels of the program.** -/
theorem unrolls (hf : IsCallLetter f) (hB : isParameterLetter B = true)
    (hN : isParameterLetter N = true) (hne : B ≠ N) (hQ : Q ≠ []) :
    Unrolls f (definition f B N Q) [B] (args B N Q) (digitsValue n) (context f B N P Q n)
      fun i => P ++ (List.replicate i Q).flatten where
  isCallLetter := hf
  isSimple := isSimple_args hB hN
  body_eq := rfl
  get?_eq := fun i _ => by simp [functions_context, FunctionTable.get?, definition]
  bind_eq := by
    intro i _
    have hargs : Call.arguments (args B N Q) = [B :: Instruction.write Q, [N, '-', '1']] :=
      Call.arguments_pair (isSimple_args hB hN) ((isWord_argument hB).notMem (by decide))
        (Expression.comma_notMem_difference hN isNumeral_one)
    have hcounter : counter n i - digitsValue ['1'] = counter n (i + 1) := by
      have hone : digitsValue ['1'] = 1 := by decide
      rw [counter, counter, hone]
      omega
    rw [hargs]
    refine bind_eq (Expression.isNumeric_of_mem_write hQ [B])
      (Expression.isNumeric_difference hN isNumeral_one) ?_
    rw [Expression.evaluate_difference hN isNumeral_one, number_context, hcounter]
  front_eq := fun i _ maxDepth depth rest => meaning_parameter hB hne i maxDepth depth rest

end Growth

/-- **Arguments are closures over the caller.** Let `f` be a function that refers to its first
parameter, and calls itself with that parameter followed by some instructions `Q`, and with its
second parameter less one. Called with instructions `P` and a numeral within the depth limit, it
gives `P` without `Q`, with one `Q`, with two, and so forth, one round for each unit of the numeral.
With a lower limit it fails one level beyond the limit, or at the first call if the limit is
negative. -/
theorem expandProgram_growth {f B N : Char} {n : Text} {Q : List Instruction}
    (hf : IsCallLetter f) (hB : isParameterLetter B = true) (hN : isParameterLetter N = true)
    (hne : B ≠ N) (hn : IsNumeral n) (hQ : Q ≠ []) (P : List Instruction) (maxDepth : Int) :
    let rounds := digitsValue n
    expandProgram (growth f B N P Q n) maxDepth none =
      if (rounds : Int) ≤ maxDepth then
        .ok ((List.range rounds).flatMap fun i => P ++ (List.replicate i Q).flatten)
      else .error (.depth ⟨[f], max 0 (maxDepth + 1), maxDepth⟩) := by
  intro rounds
  have hP := Instruction.isWord_write P
  have hfirst : IsSimple (Instruction.write P ++ ',' :: n) :=
    isSimple_append.2 ⟨hP.isSimple, isSimple_cons.2 ⟨by simp, hn.isWord.isSimple⟩⟩
  have hbody : IsPlain (B :: Call.written f (Growth.args B N Q)) :=
    isPlain_cons.2 ⟨plain_of_isAlphanum (isAlphanum_of_isParameterLetter hB),
      Call.isPlain_written hf (Growth.isSimple_args hB hN)⟩
  have hargs : Call.arguments (Instruction.write P ++ ',' :: n) = [Instruction.write P, n] :=
    Call.arguments_pair hfirst (hP.notMem (by decide)) (hn.isWord.notMem (by decide))
  have hbind : (Growth.definition f B N Q).bind (Call.arguments (Instruction.write P ++ ',' :: n))
      ⟨[Growth.definition f B N Q], .empty⟩ =
        .ok (if 0 < rounds then some (Growth.context f B N P Q n 0) else none) := by
    rw [hargs]
    refine Growth.bind_eq (Expression.isNumeric_write P) hn.isNumeric ?_
    rw [Expression.evaluate_numeral hn]
    simp [Growth.counter]
  have hcall := (Growth.unrolls hf hB hN hne hQ).result_call (Nat.zero_le rounds) hfirst
    (by simp [FunctionTable.get?, Growth.definition]) hbind maxDepth 0
  rw [Nat.sub_zero, zero_add, ← List.range_eq_range'] at hcall
  rw [growth]
  refine (expandProgram_written hf (List.cons_ne_nil B [N]) (by simp [hB, hN]) (by simpa using hne)
    hbody hfirst maxDepth).trans hcall

/-- Three rounds, with a text that grows by two instructions each time. A limit of three allows them
and a limit of two does not. -/
theorem expandProgram_growth_three :
    growth 'g' 'X' 'A' [.left] [.step, .right] "3".toList =
        "g(X,A):Xg(Xsr,A-1)\ng(l,3)".toList ∧
      expandProgram "g(X,A):Xg(Xsr,A-1)\ng(l,3)".toList 3 none =
        .ok [.left, .left, .step, .right, .left, .step, .right, .step, .right] ∧
      expandProgram "g(X,A):Xg(Xsr,A-1)\ng(l,3)".toList 2 none =
        .error (.depth ⟨['g'], 3, 2⟩) := by
  have hn : IsNumeral "3".toList := by decide
  have h := expandProgram_growth (f := 'g') (B := 'X') (N := 'A') (Q := [.step, .right])
    ⟨by decide, by decide⟩ (by decide) (by decide) (by decide) hn (by decide) [.left]
  exact ⟨rfl, h 3, h 2⟩

end RobotMaze
