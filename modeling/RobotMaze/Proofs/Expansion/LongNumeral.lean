import RobotMaze.Proofs.Expansion.Meaning
import RobotMaze.Proofs.Text.Scan
import RobotMaze.Simulation

/-!
# Programs that break off

A numeral may not have more than a certain number of digits. A program that evaluates a longer one
cannot be expanded, and this failure is not turned into a state of the game: there is no simulation.

`longProgram` is such a program, for any number of digits, and `ofProgram_longProgram` shows that it
breaks off. Its digits are never looked at one by one: the scanners pass over them by the laws of
plain text.
-/

namespace RobotMaze

open Text Expansion

variable {n : Nat}

/-- A numeral of `n` digits. -/
def longNumeral (n : Nat) : Text := List.replicate n '1'

/-- A call of a function with a numeral of `n` digits. -/
def longCall (n : Nat) : Text := 'f' :: '(' :: (longNumeral n ++ [')'])

/-- The function that is called. -/
def longCallee : Definition := ⟨['f'], [['A']], [], 1, 1⟩

/-- The function on one line, and the call on the other. -/
def longProgram (n : Nat) : Text := "f(A):".toList ++ '\n' :: longCall n

theorem forall_mem_longNumeral {P : Char → Prop} (h : P '1') : ∀ c ∈ longNumeral n, P c :=
  fun _ hc => List.eq_of_mem_replicate hc ▸ h

theorem isEmpty_longNumeral (h : 0 < n) : (longNumeral n).isEmpty = false := by
  obtain ⟨m, rfl⟩ : ∃ m, n = m + 1 := ⟨n - 1, by omega⟩
  rfl

theorem trim_longNumeral : trim (longNumeral n) = longNumeral n :=
  trim_of_forall (forall_mem_longNumeral (by decide))

theorem all_isDigit_longNumeral : (longNumeral n).all isDigit = true :=
  List.all_eq_true.2 (forall_mem_longNumeral (by decide))

/-! ### Reading -/

theorem forall_mem_longCall {P : Char → Prop} (h : P 'f' ∧ P '(' ∧ P '1' ∧ P ')') :
    ∀ c ∈ longCall n, P c := by
  obtain ⟨hf, hopen, hdigit, hclose⟩ := h
  intro c hc
  simp only [longCall, List.mem_cons, List.mem_append, List.not_mem_nil, or_false] at hc
  rcases hc with rfl | rfl | hc | rfl
  · exact hf
  · exact hopen
  · exact forall_mem_longNumeral hdigit c hc
  · exact hclose

theorem parse_longProgram (h : 2 ≤ n) :
    Program.parse (longProgram n) = ⟨[longCallee], [⟨2, 1, longCall n⟩]⟩ := by
  have hbreak := @forall_mem_longCall n (isLineBreak · = false) (by decide)
  have hblank := @forall_mem_longCall n (isBlank · = false) (by decide)
  have hplain : ∀ c ∈ "f(A):".toList, isLineBreak c = false := by simp [isLineBreak]
  have hlines : splitLines (longProgram n) = ["f(A):".toList, longCall n] :=
    calc splitLines (longProgram n)
      _ = "f(A):".toList :: splitLines (longCall n) := splitLines_append hplain (longCall n)
      _ = ["f(A):".toList, longCall n] := by
        rw [splitLines_of_forall hbreak (List.cons_ne_nil _ _)]
  have hfirst : ProgramLine.read 1 "f(A):".toList = .definition longCallee := by decide
  -- Two digits are enough to see that the second line is no definition.
  have hsecond : ProgramLine.read 2 (longCall n) = .main ⟨2, 1, longCall n⟩ := by
    obtain ⟨m, rfl⟩ : ∃ m, n = m + 2 := ⟨n - 2, by omega⟩
    rw [ProgramLine.read, Definition.parse?, trim_of_forall hblank]
    rfl
  have hprogram : programLines (longProgram n) =
      [.definition longCallee, .main ⟨2, 1, longCall n⟩] := by
    rw [programLines, hlines, ← hfirst, ← hsecond]
    rfl
  rw [Program.parse, hprogram]
  rfl

theorem arguments_longCall (h : 0 < n) :
    Call.arguments (Call.takeArguments ('(' :: (longNumeral n ++ [')']))).1 = [longNumeral n] := by
  have hparens := @forall_mem_longNumeral n (fun c => c ≠ '(' ∧ c ≠ ')') (by decide)
  have hcomma : ',' ∉ longNumeral n := fun hc =>
    @forall_mem_longNumeral n (· ≠ ',') (by decide) _ hc rfl
  rw [Call.takeArguments_append hparens, Call.arguments, isEmpty_longNumeral h, if_neg (by decide),
    List.splitOn_eq_singleton hcomma, List.map_singleton, trim_longNumeral]

/-! ### Breaking off -/

theorem evaluate_longNumeral (h : Numeral.maxDigits < n) (scope : Scope) :
    Expression.evaluate scope (longNumeral n) = .error (.reading n) := by
  have hsigned : Numeral.signed? (longNumeral n) = some (false, longNumeral n) := by
    obtain ⟨m, rfl⟩ : ∃ m, n = m + 1 := ⟨n - 1, by omega⟩
    show (if _ && (longNumeral (m + 1)).all isDigit then some (false, longNumeral (m + 1))
      else none) = _
    rw [all_isDigit_longNumeral]
    rfl
  rw [Expression.evaluate, trim_longNumeral, hsigned]
  simp [Numeral.value, h, longNumeral]

theorem bind_longCallee (h : Numeral.maxDigits < n) (context : Context) :
    longCallee.bind [longNumeral n] context = .error (.reading n) := by
  have hnumeric : Expression.isNumeric (longNumeral n) = true := by
    rw [Expression.isNumeric, isEmpty_longNumeral (Nat.zero_lt_of_lt h), Bool.not_false,
      Bool.true_and, List.all_eq_true]
    exact forall_mem_longNumeral (by decide)
  show Definition.bindPairs context [(['A'], longNumeral n)] context.scope = .error (.reading n)
  rw [Definition.bindPairs, if_pos hnumeric, evaluate_longNumeral h]

theorem meaning_longCall (h : Numeral.maxDigits < n) {maxDepth : Int} (hd : 0 ≤ maxDepth)
    (scope : Scope) :
    meaning maxDepth (longCall n) ⟨[longCallee], scope⟩ 0 = ⟨[], some (.literal (.reading n))⟩ := by
  have hi : Instruction.ofLetter? 'f' = none := by decide
  have hp : isParameterLetter 'f' = false := by decide
  have hf : isFunctionLetter 'f' = true := by decide
  have hget : FunctionTable.get? [longCallee] ['f'] = some longCallee := by decide
  rw [longCall, meaning]
  simp only [hi, hp, hf, Int.not_lt.2 hd, hget, arguments_longCall (Nat.zero_lt_of_lt h),
    bind_longCallee h]
  rfl

/-- **A program that breaks off.** With more digits than a numeral may have, there is no simulation
of the program, under any limits that let it make its call. -/
theorem Simulation.ofProgram_longProgram (h : Numeral.maxDigits < n) (initial : State)
    {maxDepth maxSteps : Int} (hd : 0 ≤ maxDepth) (hs : 0 ≤ maxSteps) :
    ofProgram (longProgram n) initial maxDepth maxSteps = .error (.reading n) := by
  have hn : 2 ≤ n := Nat.le_trans (by decide) (Nat.le_of_lt h)
  have hmain : (Program.parse (longProgram n)).expand maxDepth none =
      ⟨[], some (.literal (.reading n))⟩ := by
    rw [Program.expand, expand_none_eq_meaning, parse_longProgram hn, Program.main,
      List.flatMap_singleton]
    exact meaning_longCall h hd .empty
  have hroom : (some (maxSteps + 1)).map Int.toNat ≠ some 0 := by
    simp only [Option.map_some, ne_eq, Option.some.injEq]
    omega
  rw [ofProgram, expandForRun, expandProgram, Program.expand_eq_cut, hmain, cut_failed hroom]
  rfl

end RobotMaze
