import RobotMaze.Check.CallSite
import RobotMaze.Program.Definition

/-!
# Searched text

The checks look at every piece of text that can be expanded: main lines, bodies, and those arguments
that are program text and whose parameter occurs in the body of the called function. Arguments are
found while pieces are scanned, and wait for their turn behind the pieces found before. What a piece
passes on weighs less than the piece (`weight_passed_lt`), so the search ends.
-/

namespace RobotMaze

namespace Check

open Text

/-- A piece of program text that can be expanded, and the place where it starts. -/
structure Segment where
  line : Int
  col : Int
  text : Text
deriving DecidableEq, Repr

/-- Whether a name occurs in a text. -/
def mentions (name : Name) : Text → Bool
  | [] => name.isEmpty
  | c :: rest => name.isPrefixOf (c :: rest) || mentions name rest

/-- The arguments of a call of `d` that are expanded: program text, given to a parameter that occurs
in the body. -/
def passedArguments (d : Definition) (call : CallSite) : List Argument :=
  ((d.params.zip call.args).filter fun (param, arg) =>
    !arg.text.isEmpty && !Expression.isNumeric arg.text && mentions param d.body).map (·.2)

/-- The pieces that join the search when a piece has been scanned. -/
def passed (table : FunctionTable) (s : Segment) : List Segment :=
  (calls s.text).flatMap fun call =>
    match table.get? [call.name] with
    | none => []
    | some d => (passedArguments d call).map fun arg => ⟨s.line, s.col + arg.offset, arg.text⟩

theorem map_snd_zip_sublist {α β : Type} (as : List α) (bs : List β) :
    ((as.zip bs).map (·.2)).Sublist bs := by
  induction as generalizing bs with
  | nil => simp
  | cons a as ih =>
    cases bs with
    | nil => simp
    | cons b bs => simpa using (ih bs).cons_cons b

/-- The arguments that are expanded are among the arguments. -/
theorem passedArguments_sublist (d : Definition) (call : CallSite) :
    (passedArguments d call).Sublist call.args := by
  unfold passedArguments
  exact (List.filter_sublist.map _).trans (map_snd_zip_sublist _ _)

/-- What a piece passes on weighs less than the piece. -/
theorem weight_passed_lt (table : FunctionTable) (s : Segment) :
    weight ((passed table s).map (·.text)) < weight [s.text] := by
  have h : weight ((passed table s).map (·.text)) ≤
      weight ((calls s.text).flatMap fun call => call.args.map (·.text)) := by
    unfold passed
    induction calls s.text with
    | nil => simp
    | cons call rest ih =>
      simp only [List.flatMap_cons, List.map_append, weight_append]
      refine Nat.add_le_add ?_ ih
      split
      · simp
      · rw [List.map_map]
        exact weight_le_of_sublist ((passedArguments_sublist _ call).map _)
  have := weight_callsFrom_le 0 s.text
  simp only [weight_cons, weight_nil]
  exact Nat.lt_of_le_of_lt h (by unfold calls; omega)

/-- All pieces that are searched, in the order of the search, when some are waiting. -/
def searched (table : FunctionTable) : List Segment → List Segment
  | [] => []
  | s :: waiting => s :: searched table (waiting ++ passed table s)
termination_by segments => weight (segments.map (·.text))
decreasing_by
  have := weight_passed_lt table s
  simp only [List.map_append, List.map_cons, weight_append, weight_cons, weight_nil] at *
  omega

end Check

end RobotMaze
