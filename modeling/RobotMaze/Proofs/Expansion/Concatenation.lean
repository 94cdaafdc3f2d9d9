import RobotMaze.Proofs.Expansion.Equations
import RobotMaze.Proofs.Expansion.Termination
import RobotMaze.Proofs.Program.Parentheses
import RobotMaze.Proofs.Text.Parts

/-!
# Expanding two texts as one

The lines of a main program are joined without a separator, so a text can run on into the next. A
call letter at the end of one takes an argument list at the start of the other, and an argument list
that is not closed takes everything that follows. This file shows that nothing else can happen: if
the first text closes every argument list that it opens, and the second does not start with one,
then the two together expand to what each of them expands to.

## Closed texts

`IsClosed` follows a frame along its text. Parentheses that no call opens are skipped like any other
character and need not match, and what stands inside an argument list is not looked at beyond its
parentheses. Each argument list has to have its end in the text, in the sense of `Call.Closes`, and
appending to a text does not move that end.

## Main results

* `Call.takeArguments_append_of_closes` — a closed argument list is taken off whatever follows
* `meaning_append` — the meaning of two texts is that of the first and then that of the second
* `result_expand_append` — so is their expansion, with the first of two errors
-/

namespace RobotMaze

open Text Expansion

variable {t u rest : Text} {c : Char}

/-! ### Argument lists in a longer text -/

namespace Call

/-- If a text closes the argument list that it starts with, or starts with none, and what follows
does not start with one, then the list is taken off the text alone. -/
theorem takeArguments_append_of_closes (ht : ∀ inside, t = '(' :: inside → ∃ n, Closes inside n)
    (hu : ∀ inside, u ≠ '(' :: inside) :
    takeArguments (t ++ u) = ((takeArguments t).1, (takeArguments t).2 ++ u) := by
  by_cases hlist : ∃ inside, t = '(' :: inside
  · obtain ⟨inside, rfl⟩ := hlist
    obtain ⟨n, hn⟩ := ht inside rfl
    have hdrop : n + 1 ≤ inside.length := hn.lt_length
    simp only [List.cons_append, takeArguments, closingDistance_eq_some_iff.2 hn,
      closingDistance_eq_some_iff.2 (hn.append u)]
    rw [List.take_append_of_le_length (Nat.le_of_succ_le hdrop),
      List.drop_append_of_le_length hdrop]
  · have hnone : ∀ inside, t ≠ '(' :: inside := fun inside h => hlist ⟨inside, h⟩
    have hboth : ∀ inside, t ++ u ≠ '(' :: inside := by
      cases t with
      | nil => exact hu
      | cons c t =>
        intro inside h
        exact hnone t (by rw [(List.cons.inj h).1])
    rw [takeArguments_of_ne hboth, takeArguments_of_ne hnone]

end Call

/-! ### Closed texts -/

/-- Every argument list that a frame takes while it reads the text has its end in the text. -/
inductive IsClosed : Text → Prop
  | nil : IsClosed []
  /-- A character that calls nothing is read alone. -/
  | other {c : Char} {rest : Text} (hc : ¬IsCallLetter c) (h : IsClosed rest) : IsClosed (c :: rest)
  /-- A call letter is read with its argument list. -/
  | call {c : Char} {rest : Text} (hc : IsCallLetter c)
      (hlist : ∀ inside, rest = '(' :: inside → ∃ n, Call.Closes inside n)
      (h : IsClosed (Call.takeArguments rest).2) : IsClosed (c :: rest)

/-! ### The meaning of two texts -/

section

variable (maxDepth : Int) (context : Context) (depth : Int)

/-- What a character contributes that calls nothing does not depend on what follows it. -/
theorem exists_meaning_cons (hc : ¬IsCallLetter c) :
    ∃ own : Expansion, ∀ rest, meaning maxDepth (c :: rest) context depth =
      own.andThen (meaning maxDepth rest context depth) := by
  cases hi : Instruction.ofLetter? c with
  | some i => exact Instruction.letter_of_ofLetter? hi ▸ ⟨_, meaning_letter i⟩
  | none =>
    cases hp : isParameterLetter c with
    | true =>
      by_cases hs : ∃ t own, context.scope.get? [c] = some (.fragment t own)
      · obtain ⟨t, own, hs⟩ := hs
        exact ⟨_, fun rest => meaning_fragment hp hs⟩
      · exact ⟨nothing, fun rest => meaning_unbound hp fun t own h => hs ⟨t, own, h⟩⟩
    | false =>
      have hf : isFunctionLetter c = false := Bool.eq_false_iff.2 fun hf => hc ⟨hf, hi⟩
      exact ⟨nothing, fun rest => meaning_skip hi hp hf⟩

/-- **Two texts.** If the first is closed, and the second starts with no argument list, they mean
one after the other what each of them means. The induction is along the reading of the first
text. -/
theorem meaning_append (ht : IsClosed t) (hu : ∀ inside, u ≠ '(' :: inside) :
    meaning maxDepth (t ++ u) context depth =
      (meaning maxDepth t context depth).andThen (meaning maxDepth u context depth) := by
  induction ht with
  | nil => rw [List.nil_append, meaning_nil, nothing_andThen]
  | other hc h ih =>
    obtain ⟨own, hown⟩ := exists_meaning_cons maxDepth context depth hc
    rw [List.cons_append, hown, hown, ih, andThen_assoc]
  | call hc hlist h ih =>
    rw [List.cons_append]
    rcases Int.lt_or_le maxDepth depth with hd | hd
    · rw [meaning_call_of_lt hc hd, meaning_call_of_lt hc hd, failed_andThen]
    · rw [meaning_call_of_le hc hd, meaning_call_of_le hc hd,
        Call.takeArguments_append_of_closes hlist hu, ih, andThen_assoc]

end

/-- **Expansion distributes over concatenation.** Let the first text close every argument list that
it opens, and let the second not start with a parenthesis. In every context, and from every depth,
they expand together to the instructions of the first and then those of the second. If one of them
fails, they fail with its error, and with that of the first if both do. -/
theorem result_expand_append (ht : IsClosed t) (hu : ∀ inside, u ≠ '(' :: inside)
    (maxDepth : Int) (context : Context) (depth : Int) :
    (expand maxDepth none context depth (t ++ u)).result = (do
      let w ← (expand maxDepth none context depth t).result
      let v ← (expand maxDepth none context depth u).result
      return w ++ v) := by
  simp only [expand_none_eq_meaning]
  rw [meaning_append maxDepth context depth ht hu, result_andThen]

/-- The first text has parentheses that match nothing, and ends with a call letter; the second
leaves its argument list open. -/
theorem result_expand_append_open :
    let context : Context := ⟨(Program.parse "f(A):A\ng(B):Br".toList).functions, .empty⟩
    IsClosed ")f(g(s))(g".toList ∧
      (expand 3 none context 0 ")f(g(s))(g".toList).result = .ok [.step, .right, .right] ∧
      (expand 3 none context 0 "f(l".toList).result = .ok [.left] ∧
      (expand 3 none context 0 ")f(g(s))(gf(l".toList).result =
        .ok [.step, .right, .right, .left] := by
  intro context
  have hlist : Call.Closes "g(s))(g".toList 4 := Call.closingDistance_eq_some_iff.1 (by decide)
  have hclosed : IsClosed ")f(g(s))(g".toList := by
    refine .other (by decide) (.call (by decide) (fun inside h => ⟨4, ?_⟩) ?_)
    · cases h
      exact hlist
    · exact .other (by decide) (.call (by decide) (by simp) .nil)
  have hfirst : (expand 3 none context 0 ")f(g(s))(g".toList).result =
      .ok [.step, .right, .right] := by
    rw [expand_eq_of_runWithin 40 (e := ⟨[.step, .right, .right], none⟩) (by decide)]
    rfl
  have hsecond : (expand 3 none context 0 "f(l".toList).result = .ok [.left] := by
    rw [expand_eq_of_runWithin 40 (e := ⟨[.left], none⟩) (by decide)]
    rfl
  refine ⟨hclosed, hfirst, hsecond, ?_⟩
  have hboth := result_expand_append (u := "f(l".toList) hclosed (by simp) 3 context 0
  rw [hfirst, hsecond] at hboth
  exact hboth

end RobotMaze
