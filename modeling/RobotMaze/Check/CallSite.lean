import RobotMaze.Expression
import RobotMaze.Instruction
import RobotMaze.Program.Call

/-!
# Calls in a text

The checks look at the calls that stand in a text, with the places of the calls and of their
arguments. Calls are found by reading the text once; argument lists are stepped over, since an
argument is expanded only where the body of the called function refers to it.

The arguments of all calls are together no longer than the text, even when one is added to the
length of each (`weight_callsFrom_le`). This is what lets arguments be searched in turn.
-/

namespace RobotMaze

namespace Check

open Text

/-- An argument of a call, and how many characters stand before it. -/
structure Argument where
  text : Text
  offset : Nat
deriving DecidableEq, Repr

/-- A call in a text: the function letter, the characters before the call and before what follows
it, and its arguments. -/
structure CallSite where
  name : Char
  start : Nat
  stop : Nat
  args : List Argument
deriving DecidableEq, Repr

/-- The arguments that pieces of an argument list hold, the first of which starts at `offset`. -/
def placedArguments : Nat → List Text → List Argument
  | _, [] => []
  | offset, piece :: rest =>
    ⟨trim piece, offset + indent piece⟩ :: placedArguments (offset + piece.length + 1) rest

/-- The arguments of an argument list that starts at `offset`. -/
def argumentsAt (offset : Nat) (argsText : Text) : List Argument :=
  if argsText.isEmpty then [] else placedArguments offset (List.splitOn ',' argsText)

/-- Whether a letter calls a function: lower case, and no primitive instruction. -/
def isCallLetter (c : Char) : Bool := isFunctionLetter c && !Instruction.isLetter c

/-- The calls in a text that starts at `offset`. -/
def callsFrom (offset : Nat) (t : Text) : List CallSite :=
  match t with
  | [] => []
  | c :: '(' :: inside =>
    if isCallLetter c then
      match Call.closingDistance 1 inside with
      | some n =>
        ⟨c, offset, offset + n + 3, argumentsAt (offset + 2) (inside.take n)⟩ ::
          callsFrom (offset + n + 3) (inside.drop (n + 1))
      | none => [⟨c, offset, offset + inside.length + 2, argumentsAt (offset + 2) inside⟩]
    else callsFrom (offset + 1) ('(' :: inside)
  | c :: rest =>
    if isCallLetter c then ⟨c, offset, offset + 1, []⟩ :: callsFrom (offset + 1) rest
    else callsFrom (offset + 1) rest
termination_by t.length
decreasing_by all_goals (simp only [List.length_drop, List.length_cons]; omega)

/-- The calls in a text. -/
def calls (t : Text) : List CallSite := callsFrom 0 t

/-- The lengths of some texts, each with one added. -/
def weight (texts : List Text) : Nat := texts.foldr (fun t n => t.length + 1 + n) 0

@[simp] theorem weight_nil : weight [] = 0 := rfl

@[simp] theorem weight_cons (t : Text) (ts : List Text) :
    weight (t :: ts) = t.length + 1 + weight ts := rfl

@[simp] theorem weight_append (ts us : List Text) : weight (ts ++ us) = weight ts + weight us := by
  induction ts with
  | nil => rw [List.nil_append, weight_nil, Nat.zero_add]
  | cons t ts ih =>
    rw [List.cons_append, weight_cons, weight_cons, ih]
    omega

theorem weight_le_of_sublist {ts us : List Text} (h : ts.Sublist us) : weight ts ≤ weight us := by
  induction h with
  | slnil => exact Nat.le_refl _
  | cons t _ ih => rw [weight_cons]; omega
  | cons_cons t _ ih => rw [weight_cons, weight_cons]; omega

/-- The pieces between separators weigh one more than the text. -/
theorem weight_splitOn (separator : Char) (t : Text) :
    weight (List.splitOn separator t) = t.length + 1 := by
  induction t with
  | nil => rfl
  | cons c rest ih =>
    obtain ⟨first, others, hrest⟩ :=
      List.exists_cons_of_ne_nil (List.splitOn_ne_nil separator rest)
    rw [hrest, weight_cons] at ih
    rw [List.splitOn_cons_eq_if_modifyHead, hrest]
    split
    · rw [weight_cons, weight_cons, List.length_cons, List.length_nil]; omega
    · rw [List.modifyHead_cons, weight_cons, List.length_cons, List.length_cons]; omega

theorem weight_placedArguments_le (offset : Nat) (ps : List Text) :
    weight ((placedArguments offset ps).map (·.text)) ≤ weight ps := by
  induction ps generalizing offset with
  | nil => exact Nat.le_refl _
  | cons p ps ih =>
    have := length_trim_le p
    have := ih (offset + p.length + 1)
    simp only [placedArguments, List.map_cons, weight_cons]
    omega

theorem weight_argumentsAt_le (offset : Nat) (argsText : Text) :
    weight ((argumentsAt offset argsText).map (·.text)) ≤ argsText.length + 1 := by
  unfold argumentsAt
  split
  · simp
  · rw [← weight_splitOn ',' argsText]
    exact weight_placedArguments_le _ _

/-- The arguments of all calls in a text weigh no more than its length. -/
theorem weight_callsFrom_le (offset : Nat) (t : Text) :
    weight ((callsFrom offset t).flatMap fun call => call.args.map (·.text)) ≤ t.length := by
  fun_induction callsFrom offset t with
  | case1 => simp
  | case2 offset c inside hc n hn ih =>
    have := weight_argumentsAt_le (offset + 2) (inside.take n)
    simp only [List.flatMap_cons, weight_append, List.length_cons, List.length_drop,
      List.length_take] at *
    omega
  | case3 offset c inside hc hn =>
    have := weight_argumentsAt_le (offset + 2) inside
    simp only [List.flatMap_cons, List.flatMap_nil, List.append_nil, List.length_cons]
    omega
  | case4 offset c inside hc ih => simp only [List.length_cons] at *; omega
  | case5 offset c rest _ hc ih =>
    simp only [List.flatMap_cons, List.map_nil, List.nil_append, List.length_cons]
    omega
  | case6 offset c rest _ hc ih => simp only [List.length_cons]; omega

end Check

end RobotMaze
