import RobotMaze.Check.Diagnostics
import RobotMaze.Proofs.Expansion.Limits
import RobotMaze.Proofs.Program.Table

/-!
# What the checks look at

The checks find calls in pieces of text, and pieces of text in the arguments of calls. This file
says what they find, without the places where they find it.

## Attempts

An `Attempt` is a call as a frame makes it: the letter and the arguments. `attempts` reads a text as
a frame does, one character after the other, with argument lists stepped over. The scanner of the
checks reads the text in its own way, and finds the same (`map_attempt_callsFrom`).

## The search

The search starts with the main lines and the bodies. It keeps every piece that it is given, and
with a piece it has the arguments that the calls in this piece pass on (`subset_searched`,
`mem_searched_of_mem_passed`). So a call that stands in a searched piece is reported if there is
something to report, wherever the search has met it.

## Main results

* `map_attempt_callsFrom` — the scanner finds the calls that a frame makes
* `exists_searched_of_passed` — the arguments of a call that is searched are searched
* `exists_undefinedCall_of_searched` — a call of no function that is searched is reported
-/

namespace RobotMaze

namespace Check

open Text

/-! ### Attempts -/

/-- A call without its place: the function letter and the arguments. -/
structure Attempt where
  letter : Char
  args : List Text
deriving DecidableEq, Repr

/-- The calls that a frame makes when it reads a text to its end, in order. -/
def attempts (t : Text) : List Attempt :=
  match t with
  | [] => []
  | c :: rest =>
    if isCallLetter c then
      ⟨c, Call.arguments (Call.takeArguments rest).1⟩ :: attempts (Call.takeArguments rest).2
    else attempts rest
termination_by t.length
decreasing_by
  · exact Nat.lt_succ_of_le (Call.length_takeArguments_snd_le rest)
  · exact Nat.lt_succ_self _

/-- The checks and the expander take the same letters for calls. -/
theorem isCallLetter_iff {c : Char} : isCallLetter c = true ↔ IsCallLetter c := by
  simp [isCallLetter, IsCallLetter, Instruction.isLetter]

@[simp] theorem attempts_nil : attempts [] = [] := by rw [attempts]

theorem attempts_cons_of_isCallLetter {c : Char} (rest : Text) (h : IsCallLetter c) :
    attempts (c :: rest) =
      ⟨c, Call.arguments (Call.takeArguments rest).1⟩ ::
        attempts (Call.takeArguments rest).2 := by
  rw [attempts, if_pos (isCallLetter_iff.2 h)]

theorem mem_attempts_of_isCallLetter {c : Char} {rest t : Text} (ht : t = c :: rest)
    (h : IsCallLetter c) : ⟨c, Call.arguments (Call.takeArguments rest).1⟩ ∈ attempts t := by
  rw [ht, attempts_cons_of_isCallLetter rest h]
  exact List.mem_cons_self

theorem attempts_cons_of_not_isCallLetter {c : Char} (rest : Text) (h : ¬IsCallLetter c) :
    attempts (c :: rest) = attempts rest := by
  rw [attempts, if_neg (mt isCallLetter_iff.1 h)]

/-- A call of the checks without its place. -/
def CallSite.attempt (call : CallSite) : Attempt := ⟨call.name, call.args.map (·.text)⟩

theorem map_text_placedArguments (offset : Nat) (ps : List Text) :
    (placedArguments offset ps).map (·.text) = ps.map trim := by
  induction ps generalizing offset with
  | nil => rfl
  | cons p ps ih => rw [placedArguments, List.map_cons, List.map_cons, ih]

theorem map_text_argumentsAt (offset : Nat) (argsText : Text) :
    (argumentsAt offset argsText).map (·.text) = Call.arguments argsText := by
  unfold argumentsAt Call.arguments
  split
  · rfl
  · exact map_text_placedArguments _ _

/-- **The scanner finds the calls that a frame makes**, with the arguments that it passes. -/
theorem map_attempt_callsFrom (offset : Nat) (t : Text) :
    (callsFrom offset t).map CallSite.attempt = attempts t := by
  fun_induction callsFrom offset t with
  | case1 => simp
  | case2 offset c inside hc n hn ih =>
    rw [attempts_cons_of_isCallLetter _ (isCallLetter_iff.1 hc)]
    simp [Call.takeArguments, hn, CallSite.attempt, map_text_argumentsAt, ih]
  | case3 offset c inside hc hn =>
    rw [attempts_cons_of_isCallLetter _ (isCallLetter_iff.1 hc)]
    simp [Call.takeArguments, hn, CallSite.attempt, map_text_argumentsAt]
  | case4 offset c inside hc ih =>
    rw [attempts_cons_of_not_isCallLetter _ (mt isCallLetter_iff.2 hc), ih]
  | case5 offset c rest hne hc ih =>
    have hrest : Call.takeArguments rest = ([], rest) := by
      unfold Call.takeArguments
      split
      · exact absurd rfl (hne _)
      · rfl
    rw [attempts_cons_of_isCallLetter _ (isCallLetter_iff.1 hc), hrest]
    simp [CallSite.attempt, Call.arguments, ih]
  | case6 offset c rest _ hc ih =>
    rw [attempts_cons_of_not_isCallLetter _ (mt isCallLetter_iff.2 hc), ih]

theorem mem_attempts_iff {t : Text} {a : Attempt} :
    a ∈ attempts t ↔ ∃ call ∈ calls t, call.attempt = a := by
  rw [← map_attempt_callsFrom 0 t, calls, List.mem_map]

/-! ### The search -/

variable {table : FunctionTable} {segments : List Segment} {s s' : Segment}

/-- What the search starts with is searched. -/
theorem subset_searched (h : s ∈ segments) : s ∈ searched table segments := by
  fun_induction searched table segments with
  | case1 => exact h
  | case2 first waiting ih =>
    rcases List.mem_cons.1 h with rfl | h
    · exact List.mem_cons_self
    · exact List.mem_cons_of_mem _ (ih (List.mem_append_left _ h))

/-- What a searched piece passes on is searched. -/
theorem mem_searched_of_mem_passed (h : s ∈ searched table segments)
    (h' : s' ∈ passed table s) : s' ∈ searched table segments := by
  fun_induction searched table segments with
  | case1 => cases h
  | case2 first waiting ih =>
    rcases List.mem_cons.1 h with rfl | h
    · exact List.mem_cons_of_mem _ (subset_searched (List.mem_append_right _ h'))
    · exact List.mem_cons_of_mem _ (ih h)

/-- **The arguments of a call that is searched are searched**, if they are program text and the body
of the function has their parameter. -/
theorem exists_searched_of_passed {a : Attempt} {d : Definition} {param : Name} {arg : Text}
    (hs : s ∈ searched table segments) (ha : a ∈ attempts s.text)
    (hget : table.get? [a.letter] = some d) (hpair : (param, arg) ∈ d.params.zip a.args)
    (hne : arg ≠ []) (hnum : Expression.isNumeric arg = false)
    (hbody : mentions param d.body = true) :
    ∃ s' ∈ searched table segments, s'.text = arg := by
  obtain ⟨call, hcall, rfl⟩ := mem_attempts_iff.1 ha
  rw [CallSite.attempt, List.zip_map_right] at hpair
  obtain ⟨⟨param', argument⟩, hplaced, heq⟩ := List.mem_map.1 hpair
  obtain ⟨rfl, rfl⟩ := Prod.mk.inj heq
  have hpassed : argument ∈ passedArguments d call := by
    refine List.mem_map.2 ⟨(param', argument), List.mem_filter.2 ⟨hplaced, ?_⟩, rfl⟩
    simp [hne, hnum, show mentions param' d.body = true from hbody]
  have hmem : ⟨s.line, s.col + argument.offset, argument.text⟩ ∈ passed table s := by
    refine List.mem_flatMap.2 ⟨call, hcall, ?_⟩
    rw [show table.get? [call.name] = some d from hget]
    exact List.mem_map.2 ⟨argument, hpassed, rfl⟩
  exact ⟨_, mem_searched_of_mem_passed hs hmem, rfl⟩

/-! ### Where the search starts -/

/-- Every main line is among the pieces that the lines hold. -/
theorem exists_segment_of_mem_mainLines {text : Text} {m : MainLine}
    (h : m ∈ (Program.parse text).mainLines) : ∃ s ∈ lineSegments text, s.text = m.text := by
  obtain ⟨line, hline, hm⟩ := List.mem_filterMap.1 h
  obtain ⟨⟨raw, number⟩, hraw, rfl⟩ := List.mem_map.1 hline
  have hread : ProgramLine.read number raw = .main m := ProgramLine.main?_eq_some_iff.1 hm
  exact ⟨⟨m.line, m.col, m.text⟩, List.mem_filterMap.2 ⟨(raw, number), hraw, by simp [hread]⟩, rfl⟩

/-- The body of every function is among the pieces that the lines hold. -/
theorem exists_segment_of_mem_functions {text : Text} {d : Definition}
    (h : d ∈ (Program.parse text).functions) : ∃ s ∈ lineSegments text, s.text = d.body := by
  obtain ⟨line, hline, hd⟩ := List.mem_filterMap.1 (FunctionTable.mem_of_mem_ofList h)
  obtain ⟨⟨raw, number⟩, hraw, rfl⟩ := List.mem_map.1 hline
  have hread : ProgramLine.read number raw = .definition d :=
    ProgramLine.definition?_eq_some_iff.1 hd
  exact ⟨⟨d.line, bodyColumn raw d, d.body⟩,
    List.mem_filterMap.2 ⟨(raw, number), hraw, by simp [hread]⟩, rfl⟩

/-! ### What is reported -/

/-- **A call of no function that is searched is reported.** -/
theorem exists_undefinedCall_of_searched {text : Text} {a : Attempt}
    (hs : s ∈ searched (Program.parse text).functions (lineSegments text))
    (ha : a ∈ attempts s.text) (hget : (Program.parse text).functions.get? [a.letter] = none) :
    ∃ span, undefinedCall a.letter span ∈ diagnostics text := by
  obtain ⟨call, hcall, rfl⟩ := mem_attempts_iff.1 ha
  have hreport : callDiagnostic (Program.parse text).functions s call =
      some (undefinedCall call.name ⟨s.line, s.col + call.start, s.col + call.stop⟩) := by
    rw [callDiagnostic, show (Program.parse text).functions.get? [call.name] = none from hget]
  exact ⟨_, List.mem_append_right _
    (List.mem_flatMap.2 ⟨s, hs, List.mem_filterMap.2 ⟨call, hcall, hreport⟩⟩)⟩

end Check

end RobotMaze
