import RobotMaze.Proofs.Check.Scanners
import RobotMaze.Proofs.Check.Spans

/-!
# What the checks say is true of the program

The checks judge calls by a table of functions, and the program runs with one. This file shows that
these are the same table, and that the numbers, names and places in the diagnostics are those of its
definitions.

## One pass over the lines

`diagnostics` takes the table from the program, and looks at the lines for the pieces and for the
diagnostics of lines one after the other. `survey` does it in one pass, with a table of its own that
grows line by line and is complete only at the end. Both come to the same (`survey_eq`).

## Previous definitions

While the lines are read, the table gives for each name what the last definition of that name was.
So the definition that a redefinition points back to is the nearest one before it
(`filter_lineDiagnostics`), however often the name has been defined.

## Main results

* `survey_eq` — the pass over the lines builds the table of the program
* `get?_of_message` — a call is reported as undefined only if it is
* `length_args_eq` — the arguments that are counted are those that a frame would pass
* `filter_diagnostics` — the redefinitions, in the order of the lines
* `diagnostics_sound` — all of this together
-/

namespace RobotMaze

namespace Check

open Text

variable {text : Text} {d : Diagnostic} {table : FunctionTable}

/-! ### One pass over the lines -/

/-- What is known after some lines: the definitions, the diagnostics of these lines, and the pieces
of text that they hold. -/
structure Survey where
  table : FunctionTable
  found : List Diagnostic
  segments : List Segment

/-- Reads one more line. -/
def Survey.read (s : Survey) (raw : Text) (number : Int) : Survey :=
  match ProgramLine.read number raw with
  | .blank => s
  | .main m =>
    { s with
      found := s.found ++ if looksLikeDefinition m.text then [malformedDefinition m] else []
      segments := s.segments ++ [⟨m.line, m.col, m.text⟩] }
  | .definition f =>
    { table := s.table.insert f
      found := s.found ++ ((s.table.get? f.name).map (redefinition · f)).toList
      segments := s.segments ++ [⟨f.line, bodyColumn raw f, f.body⟩] }

/-- Reads all lines. -/
def survey (text : Text) : Survey :=
  ((splitLines text).zipIdx 1).foldl (fun s (raw, number) => s.read raw number) ⟨[], [], []⟩

/-- The diagnostics that follow from what is known after all lines. -/
def Survey.report (s : Survey) : List Diagnostic :=
  s.found ++ (searched s.table s.segments).flatMap fun piece =>
    (calls piece.text).filterMap (callDiagnostic s.table piece)

theorem lineDiagnostics_definition (f : Definition) (lines : List ProgramLine) :
    lineDiagnostics table (.definition f :: lines) =
      ((table.get? f.name).map (redefinition · f)).toList ++
        lineDiagnostics (table.insert f) lines := by
  rw [lineDiagnostics]
  cases table.get? f.name <;> rfl

/-- **One pass.** From any line on, the pass adds what the lines hold. -/
theorem foldl_read (lines : List (Text × Nat)) (s : Survey) :
    lines.foldl (fun s (raw, number) => s.read raw number) s =
      let read := lines.map fun (raw, number) => ProgramLine.read number raw
      ⟨(read.filterMap ProgramLine.definition?).foldl .insert s.table,
        s.found ++ lineDiagnostics s.table read,
        s.segments ++ lines.filterMap fun (raw, number) => lineSegment? number raw⟩ := by
  induction lines generalizing s with
  | nil => simp [lineDiagnostics]
  | cons line lines ih =>
    obtain ⟨raw, number⟩ := line
    rw [List.foldl_cons, ih]
    simp only [List.map_cons, List.filterMap_cons, Survey.read, lineSegment?]
    cases ProgramLine.read number raw with
    | blank => rfl
    | main m => simp only [ProgramLine.definition?, lineDiagnostics, List.append_assoc]; rfl
    | definition f =>
      simp only [ProgramLine.definition?, lineDiagnostics_definition, List.append_assoc]; rfl

/-- **The pass over the lines builds the table of the program**, and finds the diagnostics and the
pieces of its lines. -/
theorem survey_eq (text : Text) :
    survey text = ⟨(Program.parse text).functions, lineDiagnostics [] (programLines text),
      lineSegments text⟩ := by
  rw [survey, foldl_read, lineSegments_eq_filterMap]
  rfl

/-! ### Calls of no function -/

/-- The message of a call of no function ends with the letter, in quotes. -/
theorem toList_message_undefinedCall (c : Char) :
    (s!"call to undefined function '{c}'").toList =
      "call to undefined function '".toList ++ [c, '\''] := by
  simp [toString]

theorem head?_message_redefinition (previous f : Definition) :
    (redefinition previous f).message.toList.head? = some 'f' := by
  simp [redefinition, toString]

theorem head?_message_missingArguments (f : Definition) (given : Nat) (span : Span) :
    (missingArguments f given span).message.toList.head? = some '\'' := by
  simp [missingArguments, toString]

/-- **A call is reported as undefined only if it is.** No other diagnostic has such a message, and
the message shows which letter it is about. -/
theorem get?_of_message {c : Char} (h : d ∈ diagnostics text)
    (hm : d.message = s!"call to undefined function '{c}'") :
    (Program.parse text).functions.get? [c] = none := by
  have hlist := congrArg String.toList hm
  rw [toList_message_undefinedCall] at hlist
  have hhead : d.message.toList.head? = some 'c' := by rw [hlist]; rfl
  rcases cases_of_mem_diagnostics h with h | ⟨s, hs, call, hcall, h⟩
  · have hcases := of_mem_lineDiagnostics (P := fun _ => True) (fun _ _ => trivial)
      (fun _ _ => trivial) h
    rcases hcases with ⟨m, -, rfl⟩ | ⟨previous, f, -, -, -, rfl⟩
    · simp [malformedDefinition] at hhead
    · simp [head?_message_redefinition] at hhead
  · rcases of_callDiagnostic h with ⟨hget, rfl⟩ | ⟨f, -, -, rfl⟩
    · rw [undefinedCall, toList_message_undefinedCall] at hlist
      obtain rfl : call.name = c := by simpa using hlist
      exact hget
    · simp [head?_message_missingArguments] at hhead

/-! ### Calls with too few arguments -/

variable {s : Segment} {call : CallSite} {c : Char} {t rest w : Text}

/-- What is written of a call has the arguments that a frame would take. -/
theorem Written.takeArguments_eq (h : Written c (c :: rest) w) :
    (Call.takeArguments (w.drop 1)).1 = (Call.takeArguments rest).1 := by
  generalize hu : c :: rest = u at h
  cases h with
  | bare hne =>
    cases hu
    rw [Call.takeArguments_of_ne (t := rest) fun inside heq => hne (heq ▸ rfl)]
    rfl
  | @closed inside n hclosed =>
    cases hu
    have hlt := hclosed.lt_length
    have hcut : Call.Closes (inside.take (n + 1)) n := by
      refine ⟨?_, ?_⟩
      · rw [List.getElem?_take_of_lt (Nat.lt_succ_self n), hclosed.closing]
      · rw [List.take_take, Nat.min_eq_left (Nat.le_succ n)]
        exact hclosed.balanced
    simp only [List.drop_succ_cons, List.drop_zero, Call.takeArguments,
      Call.closingDistance_eq_some_iff.2 hclosed, Call.closingDistance_eq_some_iff.2 hcut,
      List.take_take, Nat.min_eq_left (Nat.le_succ n)]
  | unclosed =>
    cases hu
    rfl

/-- How many arguments are passed by the call that is written at a span. -/
def argumentCount (text : Text) (span : Span) : Nat :=
  (Call.arguments (Call.takeArguments ((span.characters text).drop 1)).1).length

/-- **The arguments that are counted are those that a frame would pass.** -/
theorem length_args_eq (hs : s ∈ searched table (lineSegments text)) (hcall : call ∈ calls s.text) :
    call.args.length = argumentCount text (callSpan s call) := by
  obtain ⟨w, hcovers, hw⟩ := exists_covers_of_mem_calls hs hcall
  obtain ⟨earlier, later, hsplit⟩ := List.append_of_mem hcall
  obtain ⟨before, rest, ht, hstart, hargs, -, -⟩ :=
    exists_of_callsFrom_eq [] s.text earlier (List.nil_append s.text).symm hsplit
  have hdrop : s.text.drop call.start = call.name :: rest := by
    rw [ht, hstart, List.drop_left]
  rw [hdrop] at hw
  rw [argumentCount, hcovers.characters_eq, hw.takeArguments_eq, ← hargs, List.length_map]

/-- **A note is about a call of a function with more parameters.** -/
theorem exists_of_note (h : d ∈ diagnostics text) (hnote : d.severity = "note") :
    ∃ name f span, (Program.parse text).functions.get? [name] = some f ∧
      IsCallSpan text name span ∧ argumentCount text span < f.params.length ∧
      d = missingArguments f (argumentCount text span) span := by
  rcases cases_of_mem_diagnostics h with h | ⟨s, hs, call, hcall, h⟩
  · have hcases := of_mem_lineDiagnostics (P := fun _ => True) (fun _ _ => trivial)
      (fun _ _ => trivial) h
    rcases hcases with ⟨m, -, rfl⟩ | ⟨previous, f, -, -, -, rfl⟩
    · simp [malformedDefinition] at hnote
    · simp [redefinition] at hnote
  · rcases of_callDiagnostic h with ⟨-, rfl⟩ | ⟨f, hget, hlt, rfl⟩
    · simp [undefinedCall] at hnote
    · rw [length_args_eq hs hcall] at hlt ⊢
      exact ⟨call.name, f, _, hget, isCallSpan_callSpan hs hcall, hlt, rfl⟩

/-! ### Redefinitions -/

/-- Whether a diagnostic shows a previous definition. -/
def isRedefinition (d : Diagnostic) : Bool :=
  d.labels[1]?.bind (·.message) = some "previous definition is here"

/-- The definitions on the lines of a text. -/
def definitions (text : Text) : List Definition :=
  ((splitLines text).zipIdx 1).filterMap fun (raw, number) => Definition.parse? raw number

/-- The nearest of the definitions before place `i` that has the name of `f`. -/
def previous? (definitions : List Definition) (i : Nat) (f : Definition) : Option Definition :=
  (definitions.take i).reverse.find? (·.name = f.name)

theorem filterMap_definition?_programLines (text : Text) :
    (programLines text).filterMap ProgramLine.definition? = definitions text := by
  rw [programLines, List.filterMap_map]
  refine congrArg (List.filterMap · _) (funext fun line => ?_)
  exact ProgramLine.definition?_read line.2 line.1

theorem isRedefinition_of_callDiagnostic (h : callDiagnostic table s call = some d) :
    isRedefinition d = false := by
  rcases of_callDiagnostic h with ⟨-, rfl⟩ | ⟨f, -, -, rfl⟩
  · rfl
  · simp [isRedefinition, missingArguments]

/-- **The redefinitions that lines give.** `seen` are the definitions before these lines, the last
one first, and the table gives for each name the first of them. -/
theorem filter_lineDiagnostics (seen : List Definition)
    (htable : ∀ name, table.get? name = seen.find? (·.name = name)) (lines : List ProgramLine) :
    (lineDiagnostics table lines).filter isRedefinition =
      let later := lines.filterMap ProgramLine.definition?
      later.zipIdx.filterMap fun (f, i) =>
        (((later.take i).reverse ++ seen).find? (·.name = f.name)).map (redefinition · f) := by
  induction lines generalizing table seen with
  | nil => rfl
  | cons line lines ih =>
    cases line with
    | blank => exact ih seen htable
    | main m =>
      have hnone : (if looksLikeDefinition m.text then [malformedDefinition m] else []).filter
          isRedefinition = [] := by split <;> rfl
      rw [lineDiagnostics, List.filter_append, hnone, ih seen htable]
      rfl
    | definition f =>
      have hinsert : ∀ name, (table.insert f).get? name = (f :: seen).find? (·.name = name) := by
        intro name
        rw [FunctionTable.get?_insert, htable, List.find?_cons]
        by_cases hname : f.name = name <;> simp [hname]
      have hfirst : ((table.get? f.name).map (redefinition · f)).toList.filter isRedefinition =
          ((seen.find? (·.name = f.name)).map (redefinition · f)).toList := by
        rw [htable]
        cases seen.find? (·.name = f.name) <;> rfl
      -- Before a later definition stand those of the later ones that come before it, and `f`.
      rw [lineDiagnostics_definition, List.filter_append, hfirst, ih (f :: seen) hinsert]
      simp only [List.filterMap_cons, ProgramLine.definition?, List.zipIdx_cons',
        List.filterMap_map, Function.comp_def, Prod.map_fst, Prod.map_snd, id,
        List.take_succ_cons, List.reverse_cons, List.append_assoc, List.singleton_append]
      cases hseen : seen.find? (·.name = f.name) <;> simp [hseen]

/-- **The redefinitions of a program**, in the order of the lines: one for each definition that has
one of its name before it, with the nearest of these. -/
theorem filter_diagnostics (text : Text) :
    (diagnostics text).filter isRedefinition =
      (definitions text).zipIdx.filterMap fun (f, i) =>
        (previous? (definitions text) i f).map (redefinition · f) := by
  have hcalls : ((searched (Program.parse text).functions (lineSegments text)).flatMap fun s =>
      (calls s.text).filterMap (callDiagnostic (Program.parse text).functions s)).filter
        isRedefinition = [] := by
    rw [List.filter_eq_nil_iff]
    intro d hd
    obtain ⟨s, -, hd⟩ := List.mem_flatMap.1 hd
    obtain ⟨call, -, hd⟩ := List.mem_filterMap.1 hd
    simp [isRedefinition_of_callDiagnostic hd]
  rw [diagnostics, List.filter_append, hcalls, List.append_nil,
    filter_lineDiagnostics [] (fun _ => rfl), filterMap_definition?_programLines]
  simp only [List.append_nil]
  rfl

end Check

open Check Text

/-- **The checks are sound.** They pass over the lines once, and the table that they build on the
way is that of the program, as it is after all lines.

A call is reported as undefined only if its letter has no definition. A note is about a call that
stands in a piece that is searched. It gives the number of parameters of the function, and the
number of arguments that a frame would pass, which is less; it lists the parameters that are left,
in order, and it points at the place of the definition. The redefinitions are those definitions, in
the order of the lines, that have one of their name before them, each with the nearest. -/
theorem diagnostics_sound (text : Text) :
    let functions := (Program.parse text).functions
    (survey text).table = functions ∧ (survey text).report = diagnostics text ∧
      (∀ d ∈ diagnostics text, ∀ c, d.message = s!"call to undefined function '{c}'" →
        functions.get? [c] = none) ∧
      (∀ d ∈ diagnostics text, d.severity = "note" → ∃ name f span,
        functions.get? [name] = some f ∧ IsCallSpan text name span ∧
          let given := argumentCount text span
          let unbound := String.ofList (List.intercalate ", ".toList (f.params.drop given))
          given < f.params.length ∧
            d.message = s!"'{name}' takes {f.params.length} argument(s) but {given} given" ∧
            d.labels = [⟨span, some s!"{unbound} left unbound", "primary"⟩,
              ⟨⟨f.line, f.col, f.col + 1⟩, some "defined here", "secondary"⟩]) ∧
      (diagnostics text).filter isRedefinition =
        (definitions text).zipIdx.filterMap fun (f, i) =>
          (previous? (definitions text) i f).map (redefinition · f) := by
  intro functions
  refine ⟨?_, ?_, ?_, ?_, filter_diagnostics text⟩
  · rw [survey_eq]
  · rw [survey_eq]
    rfl
  · intro d hd c hm
    exact get?_of_message hd hm
  · intro d hd hnote
    obtain ⟨name, f, span, hget, hspan, hlt, rfl⟩ := exists_of_note hd hnote
    have hname : f.name = [name] := (FunctionTable.mem_of_get? hget).2
    refine ⟨name, f, span, hget, hspan, hlt, ?_, rfl⟩
    rw [missingArguments, hname]
    rfl

/-- A name that is defined three times. Each redefinition points at the one before it, the calls are
judged by the last, and another name has no definition at all. -/
theorem diagnostics_sound_redefined :
    let text := "f:s\nf(A):f\nf(A,B):s\nf(s) g".toList
    let functions := (Program.parse text).functions
    (∃ d ∈ diagnostics text, d.message = "call to undefined function 'g'") ∧
      functions.get? ['g'] = none ∧
      (∃ d ∈ diagnostics text, d.severity = "note" ∧
        d.message = "'f' takes 2 argument(s) but 1 given" ∧ ∃ name f span,
          functions.get? [name] = some f ∧ IsCallSpan text name span ∧
            argumentCount text span < f.params.length ∧
            d.labels.map (·.span) = [span, ⟨f.line, f.col, f.col + 1⟩]) ∧
      ((diagnostics text).filter isRedefinition).map (fun d => d.labels.map (·.span.line)) =
        [[2, 1], [3, 2]] := by
  intro text functions
  obtain ⟨-, -, hundefined, hnote, hredefined⟩ := diagnostics_sound text
  have hcall : ∃ d ∈ diagnostics text, d.message = "call to undefined function 'g'" := by
    decide +kernel
  refine ⟨hcall, ?_, ?_, ?_⟩
  · obtain ⟨d, hd, hm⟩ := hcall
    exact hundefined d hd 'g' hm
  · obtain ⟨d, hd, hseverity, hm⟩ : ∃ d ∈ diagnostics text, d.severity = "note" ∧
        d.message = "'f' takes 2 argument(s) but 1 given" := by decide +kernel
    obtain ⟨name, f, span, hget, hspan, hlt, -, hlabels⟩ := hnote d hd hseverity
    exact ⟨d, hd, hseverity, hm, name, f, span, hget, hspan, hlt, by rw [hlabels]; rfl⟩
  · rw [hredefined]
    decide +kernel

end RobotMaze
