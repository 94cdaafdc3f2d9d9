import Mathlib.Data.List.Basic
import RobotMaze.Proofs.Expansion.Coincidence
import RobotMaze.Proofs.Program.Table
import RobotMaze.Proofs.Text.Joined

/-!
# The order of the lines of a program

A definition may stand before the lines that call it or after them. This file shows that two
neighbouring lines can change places if one of them is a definition, unless they define the same
name.

A line does two things for a program: it adds a text to the main part (`ProgramLine.mainText`), and
it may give a name its parameters and its body (`ProgramLine.code?`). Neither depends on where the
line stands. The main part is what the lines add, one after the other, and a name has the code that
the last line gives it that defines it. Line numbers and columns do enter the program, but expansion
does not look at them (`expand_eq_of_agreeOn`).

An empty last line is the one thing that gets lost when lines are joined and split again
(`Text.splitLines_joined`), and an empty line does neither of the two things.

## Main results

* `Program.main_parse`, `Program.code_get?_parse` — a program in terms of what its lines do
* `expandProgram_swap` — neighbouring lines may change places
-/

namespace RobotMaze

open Text

/-! ### What a line does -/

/-- Only the line number of a definition depends on where it stands. -/
theorem Definition.parse?_eq_map (raw : Text) (number : Int) :
    parse? raw number = (parse? raw 0).map fun d => { d with line := number } := by
  rw [parse?, parse?]
  split
  · rfl
  · split
    · rfl
    · split <;> rfl

namespace ProgramLine

/-- What a line adds to the main part. -/
def mainText (raw : Text) : Text := if (Definition.parse? raw 0).isSome then [] else trim raw

/-- The parameters and the body that a line gives to a name, if it defines that name. -/
def code? (name : Name) (raw : Text) : Option (List Name × Text) :=
  ((Definition.parse? raw 0).filter (·.name = name)).map Definition.code

theorem mainText_eq (number : Int) (raw : Text) :
    (read number raw).main?.toList.flatMap (·.text) = mainText raw := by
  rw [read, mainText, Definition.parse?_eq_map raw number]
  cases Definition.parse? raw 0 with
  | some d => rfl
  | none => by_cases hblank : trim raw = [] <;> simp [hblank, main?]

theorem code?_eq (name : Name) (number : Int) (raw : Text) :
    ((read number raw).definition?.filter (·.name = name)).map Definition.code =
      code? name raw := by
  rw [definition?_read, code?, Definition.parse?_eq_map raw number]
  cases Definition.parse? raw 0 with
  | none => rfl
  | some d =>
    simp only [Option.map_some, Option.filter_some]
    split <;> rfl

end ProgramLine

namespace Program

open ProgramLine

/-- **The main part** is what the lines add to it, one after the other. -/
theorem main_parse (text : Text) : (parse text).main = (splitLines text).flatMap mainText :=
  calc (parse text).main
      = ((splitLines text).zipIdx 1).flatMap fun p => mainText p.1 := by
        show ((programLines text).filterMap main?).flatMap (·.text) = _
        rw [programLines, List.filterMap_map, List.filterMap_eq_flatMap_toList, List.flatMap_assoc]
        exact List.flatMap_congr fun p _ => mainText_eq p.2 p.1
    _ = (((splitLines text).zipIdx 1).map Prod.fst).flatMap mainText := by rw [List.flatMap_map]
    _ = (splitLines text).flatMap mainText := by rw [List.zipIdx_map_fst]

/-- The first of some definitions that has a name, and the first line that gives the name a code. -/
theorem map_code_find? {α : Type} (f : α → Option Definition) (lines : List α) (name : Name) :
    ((lines.filterMap f).find? (·.name = name)).map Definition.code =
      lines.findSome? fun line => ((f line).filter (·.name = name)).map Definition.code := by
  induction lines with
  | nil => rfl
  | cons line lines ih =>
    rw [List.filterMap_cons, List.findSome?_cons, ← ih]
    cases f line with
    | none => rfl
    | some d =>
      rw [Option.filter_some, List.find?_cons]
      by_cases h : d.name = name
      · simp only [h, decide_true, if_true, Option.map_some]
      · simp only [h, decide_false, Bool.false_eq_true, if_false, Option.map_none]

/-- **The functions.** A name has the code that the last line gives it that defines it. -/
theorem code_get?_parse (text : Text) (name : Name) :
    ((parse text).functions.get? name).map Definition.code =
      (splitLines text).reverse.findSome? (code? name) :=
  calc ((parse text).functions.get? name).map Definition.code
      = ((splitLines text).zipIdx 1).reverse.findSome? (fun p => code? name p.1) := by
        rw [parse, FunctionTable.get?_ofList, programLines, List.filterMap_map,
          ← List.filterMap_reverse, map_code_find?]
        exact congrArg (List.findSome? · _) (funext fun p => code?_eq name p.2 p.1)
    _ = (((splitLines text).zipIdx 1).map Prod.fst).reverse.findSome? (code? name) := by
        rw [← List.map_reverse, List.findSome?_map]
        rfl
    _ = (splitLines text).reverse.findSome? (code? name) := by rw [List.zipIdx_map_fst]

variable {lines : List Text}

/-- Neither the main part nor the functions depend on whether an empty last line is lost. -/
theorem main_parse_joined (h : ∀ line ∈ lines, ∀ c ∈ line, isLineBreak c = false) :
    (parse (List.intercalate ['\n'] lines)).main = lines.flatMap mainText := by
  rw [main_parse]
  rcases splitLines_joined h with hsame | hlost
  · rw [← hsame]
  · conv => rhs; rw [hlost, List.flatMap_append]
    exact (List.append_nil _).symm

theorem code_get?_parse_joined (h : ∀ line ∈ lines, ∀ c ∈ line, isLineBreak c = false)
    (name : Name) :
    ((parse (List.intercalate ['\n'] lines)).functions.get? name).map Definition.code =
      lines.reverse.findSome? (code? name) := by
  rw [code_get?_parse]
  rcases splitLines_joined h with hsame | hlost
  · rw [← hsame]
  · conv => rhs; rw [hlost, List.reverse_append]
    rfl

/-- Programs with the same main part, and the same code for every name, expand alike. -/
theorem expand_congr {p q : Program} (hmain : p.main = q.main)
    (hcode : ∀ name, (p.functions.get? name).map Definition.code =
      (q.functions.get? name).map Definition.code)
    (maxDepth : Int) (limit : Option Int) : p.expand maxDepth limit = q.expand maxDepth limit := by
  have hagree : Context.AgreeOn (fun _ => True) ⟨p.functions, .empty⟩ ⟨q.functions, .empty⟩ :=
    ⟨⟨fun c _ => hcode [c], fun _ _ _ _ _ _ _ => trivial⟩, .empty⟩
  rw [expand, expand, ← hmain]
  exact expand_eq_of_agreeOn maxDepth limit hagree (fun _ _ _ => trivial) 0

end Program

open ProgramLine

/-! ### Lines that change places -/

section Swap

variable {a b : Text}

/-- At most one of two lines adds to the main part, if one of them is a definition. -/
theorem ProgramLine.mainText_append_comm
    (h : (Definition.parse? a 0).isSome ∨ (Definition.parse? b 0).isSome) :
    mainText a ++ mainText b = mainText b ++ mainText a := by
  rcases h with h | h
  · rw [mainText, if_pos h, List.nil_append, List.append_nil]
  · rw [show mainText b = [] from if_pos h, List.nil_append, List.append_nil]

/-- Two lines do not both give a code to one name, unless they define the same name. -/
theorem ProgramLine.code?_or_comm
    (h : ∀ d e, Definition.parse? a 0 = some d → Definition.parse? b 0 = some e → d.name ≠ e.name)
    (name : Name) : (code? name a).or (code? name b) = (code? name b).or (code? name a) := by
  rw [code?, code?]
  cases ha : Definition.parse? a 0 with
  | none => simp
  | some d =>
    cases hb : Definition.parse? b 0 with
    | none => simp
    | some e =>
      have hne := h d e ha hb
      by_cases hd : d.name = name
      · have he : e.name ≠ name := fun he => hne (hd.trans he.symm)
        simp [Option.filter_some, hd, he]
      · simp [Option.filter_some, hd]

/-- The lines add the same to the main part. -/
theorem ProgramLine.flatMap_mainText_swap
    (h : (Definition.parse? a 0).isSome ∨ (Definition.parse? b 0).isSome)
    (before after : List Text) :
    (before ++ a :: b :: after).flatMap mainText =
      (before ++ b :: a :: after).flatMap mainText := by
  simp only [List.flatMap_append, List.flatMap_cons]
  rw [← List.append_assoc (mainText a), mainText_append_comm h, List.append_assoc]

/-- Every name has the same code. -/
theorem ProgramLine.findSome?_code?_swap
    (h : ∀ d e, Definition.parse? a 0 = some d → Definition.parse? b 0 = some e → d.name ≠ e.name)
    (before after : List Text) (name : Name) :
    (before ++ a :: b :: after).reverse.findSome? (code? name) =
      (before ++ b :: a :: after).reverse.findSome? (code? name) := by
  simp only [List.reverse_append, List.reverse_cons, List.append_assoc, List.findSome?_append,
    List.findSome?_singleton]
  refine congrArg (Option.or _) ?_
  rw [← Option.or_assoc, ← code?_or_comm h, Option.or_assoc]

/-- **The order of definitions does not matter.** Let two neighbouring lines of a program change
places, of which one at least is a definition, and which do not both define the same name. Then the
program expands to the same instructions or fails with the same error, whatever the other lines are:
definitions, also of the same names, parts of the main program, or blank. -/
theorem expandProgram_swap {before after : List Text}
    (hlines : ∀ line ∈ before ++ a :: b :: after, ∀ c ∈ line, isLineBreak c = false)
    (hdefinition : (Definition.parse? a 0).isSome ∨ (Definition.parse? b 0).isSome)
    (hnames : ∀ d e, Definition.parse? a 0 = some d → Definition.parse? b 0 = some e →
      d.name ≠ e.name)
    (maxDepth : Int) (limit : Option Int) :
    expandProgram (List.intercalate ['\n'] (before ++ a :: b :: after)) maxDepth limit =
      expandProgram (List.intercalate ['\n'] (before ++ b :: a :: after)) maxDepth limit := by
  have hlines' : ∀ line ∈ before ++ b :: a :: after, ∀ c ∈ line, isLineBreak c = false := by
    intro line hline
    exact hlines line (((List.Perm.swap a b after).append_left before).mem_iff.1 hline)
  have hmain : (Program.parse (List.intercalate ['\n'] (before ++ a :: b :: after))).main =
      (Program.parse (List.intercalate ['\n'] (before ++ b :: a :: after))).main := by
    rw [Program.main_parse_joined hlines, Program.main_parse_joined hlines']
    exact flatMap_mainText_swap hdefinition before after
  have hcode : ∀ name,
      ((Program.parse (List.intercalate ['\n']
          (before ++ a :: b :: after))).functions.get? name).map Definition.code =
        ((Program.parse (List.intercalate ['\n']
          (before ++ b :: a :: after))).functions.get? name).map Definition.code := by
    intro name
    rw [Program.code_get?_parse_joined hlines, Program.code_get?_parse_joined hlines']
    exact findSome?_code?_swap hnames before after name
  rw [expandProgram, expandProgram, Program.expand_congr hmain hcode]

/-- A definition changes places with one that it calls. An earlier definition of that one stays
without effect, and an empty last line is lost both times. -/
theorem expandProgram_swap_call :
    (Definition.parse? "g:lf(2)".toList 0).isSome ∧
      (Definition.parse? "f(A):sf(A-1)".toList 0).isSome ∧
      expandProgram "f(A):r\ng\ng:lf(2)\nf(A):sf(A-1)\n".toList 3 none =
        .ok [.left, .step, .step] ∧
      expandProgram "f(A):r\ng\nf(A):sf(A-1)\ng:lf(2)\n".toList 3 none =
        .ok [.left, .step, .step] := by
  have hall : (["f(A):r".toList, ['g']] ++ "g:lf(2)".toList :: "f(A):sf(A-1)".toList :: [[]]).all
      (fun line => line.all fun c => isLineBreak c = false) = true := by decide
  have hlines : ∀ line ∈ ["f(A):r".toList, ['g']] ++ "g:lf(2)".toList ::
      "f(A):sf(A-1)".toList :: [[]], ∀ c ∈ line, isLineBreak c = false := by
    intro line hline c hc
    have hline := List.all_eq_true.1 hall line hline
    exact of_decide_eq_true (List.all_eq_true.1 hline c hc)
  have hnames : ∀ d e, Definition.parse? "g:lf(2)".toList 0 = some d →
      Definition.parse? "f(A):sf(A-1)".toList 0 = some e → d.name ≠ e.name := by
    have hfirst : (Definition.parse? "g:lf(2)".toList 0).map (·.name) = some ['g'] := by decide
    have hsecond : (Definition.parse? "f(A):sf(A-1)".toList 0).map (·.name) = some ['f'] := by
      decide
    intro d e hd he
    rw [hd, Option.map_some, Option.some.injEq] at hfirst
    rw [he, Option.map_some, Option.some.injEq] at hsecond
    rw [hfirst, hsecond]
    decide
  have hgiven : (Program.parse "f(A):r\ng\ng:lf(2)\nf(A):sf(A-1)\n".toList).expand 3 none =
      ⟨[.left, .step, .step], none⟩ := expand_eq_of_runWithin 40 (by decide +kernel)
  have hfirst : expandProgram "f(A):r\ng\ng:lf(2)\nf(A):sf(A-1)\n".toList 3 none =
      .ok [.left, .step, .step] := by
    rw [expandProgram, hgiven]
    rfl
  have hswap : expandProgram "f(A):r\ng\ng:lf(2)\nf(A):sf(A-1)\n".toList 3 none =
      expandProgram "f(A):r\ng\nf(A):sf(A-1)\ng:lf(2)\n".toList 3 none :=
    expandProgram_swap hlines (.inl (by decide)) hnames 3 none
  exact ⟨by decide, by decide, hfirst, hswap.symm.trans hfirst⟩

end Swap

end RobotMaze
