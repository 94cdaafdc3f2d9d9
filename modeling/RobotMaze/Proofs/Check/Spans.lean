import RobotMaze.Proofs.Check.Places

/-!
# What the labels of the checks point at

Every label of the checks points into the program: at a line that it has, and at one character or
more of that line. This file says at which characters. A label about a call points at the call, a
label about a definition at the name that is defined, and a label about a line that only looks like
a definition at the whole line.

How far a call reaches depends on the piece of text that it is found in. In `f(g(a,b))` the
arguments of `f` are `g(a` and `b)`, and a label about `g` points at `g(a`, although the
parenthesis is closed further on in the line. That is why `IsCallSpan` names the piece.

## Main results

* `exists_covers_of_mem_calls` — the span of a call
* `of_mem_lineDiagnostics`, `of_callDiagnostic` — what each kind of diagnostic is about
* `labels_exact` — all labels of all diagnostics, and no place reported twice
-/

namespace RobotMaze

namespace Check

open Text

variable {text : Text} {table : FunctionTable} {d : Diagnostic}

/-! ### Definitions and lines -/

/-- The place of the name of a definition. -/
def nameSpan (f : Definition) : Span := ⟨f.line, f.col, f.col + 1⟩

/-- The place of a line of the main program. -/
def mainSpan (m : MainLine) : Span := ⟨m.line, m.col, m.col + m.text.length⟩

theorem exists_line_of_mem_programLines {line : ProgramLine} (h : line ∈ programLines text) :
    ∃ (n : Nat) (raw : Text), (splitLines text)[n]? = some raw ∧ line = .read (n + 1) raw := by
  obtain ⟨⟨raw, number⟩, hmem, rfl⟩ := List.mem_map.1 h
  obtain ⟨hpos, hline⟩ := List.mk_mem_zipIdx_iff_le_and_getElem?_sub.1 hmem
  refine ⟨number - 1, raw, hline, ?_⟩
  rw [show ((number - 1 : Nat) : Int) + 1 = number by omega]

/-- A definition has its name where it says. -/
theorem covers_nameSpan {f : Definition} (h : .definition f ∈ programLines text) :
    ∃ c, f.name = [c] ∧ (nameSpan f).Covers text [c] := by
  obtain ⟨n, raw, hline, hread⟩ := exists_line_of_mem_programLines h
  have hparse := ProgramLine.definition?_read (n + 1) raw
  rw [← hread] at hparse
  obtain ⟨hnumber, hcol, c, rest, htrim, hname, -⟩ := Definition.place_of_parse? hparse.symm
  have hfirst : StandsAt [c] 0 (trim raw) := .of_isPrefix (htrim ▸ List.prefix_append [c] rest)
  exact ⟨c, hname, ⟨n, _, raw, hline, (standsAt_trim raw).trans hfirst, hnumber, hcol⟩, rfl⟩

/-- A line of the main program is a line without the white space around it. -/
theorem covers_mainSpan {m : MainLine} (h : .main m ∈ programLines text) :
    (mainSpan m).Covers text m.text ∧ m.text ≠ [] ∧
      m.text = trim ((mainSpan m).sourceLine text) := by
  obtain ⟨n, raw, hline, hread⟩ := exists_line_of_mem_programLines h
  obtain ⟨rfl, hne⟩ := ProgramLine.eq_of_read_main hread.symm
  refine ⟨.of_line hline (standsAt_trim raw), hne, ?_⟩
  rw [Span.sourceLine, mainSpan, show ((n : Int) + 1 - 1).toNat = n by omega, hline]
  rfl

theorem mem_programLines_of_get? {name : Name} {f : Definition}
    (h : (Program.parse text).functions.get? name = some f) :
    .definition f ∈ programLines text := by
  obtain ⟨line, hline, hf⟩ :=
    List.mem_filterMap.1 (FunctionTable.mem_of_mem_ofList (FunctionTable.mem_of_get? h).1)
  rwa [← ProgramLine.definition?_eq_some_iff.1 hf]

/-- **Diagnostics of lines** are about a line of the main program, or about two definitions of one
name. -/
theorem of_mem_lineDiagnostics {lines : List ProgramLine} {P : Definition → Prop}
    (htable : ∀ f ∈ table, P f) (hlines : ∀ f, .definition f ∈ lines → P f)
    (h : d ∈ lineDiagnostics table lines) :
    (∃ m, .main m ∈ lines ∧ d = malformedDefinition m) ∨
      ∃ previous f, P previous ∧ P f ∧ previous.name = f.name ∧ d = redefinition previous f := by
  induction lines generalizing table with
  | nil => cases h
  | cons line lines ih =>
    have hrest := fun f hf => hlines f (List.mem_cons_of_mem line hf)
    have hlater : ∀ {table}, (∀ f ∈ table, P f) → d ∈ lineDiagnostics table lines →
        (∃ m, .main m ∈ line :: lines ∧ d = malformedDefinition m) ∨
          ∃ previous f, P previous ∧ P f ∧ previous.name = f.name ∧
            d = redefinition previous f := by
      intro table htable h
      rcases ih htable hrest h with ⟨m, hm, rfl⟩ | hredefined
      · exact .inl ⟨m, List.mem_cons_of_mem line hm, rfl⟩
      · exact .inr hredefined
    cases line with
    | blank => exact hlater htable h
    | main m =>
      rcases List.mem_append.1 h with h | h
      · split at h
        · exact .inl ⟨m, List.mem_cons_self, List.mem_singleton.1 h⟩
        · cases h
      · exact hlater htable h
    | definition f =>
      have hf : P f := hlines f List.mem_cons_self
      rcases List.mem_append.1 h with h | h
      · split at h
        · cases h
        · rename_i previous hget
          obtain ⟨hmem, hname⟩ := FunctionTable.mem_of_get? hget
          exact .inr ⟨previous, f, htable previous hmem, hf, hname, List.mem_singleton.1 h⟩
      · refine hlater (fun e he => ?_) h
        rcases FunctionTable.mem_of_mem_insert he with rfl | he
        · exact hf
        · exact htable e he

/-! ### Calls -/

variable {s : Segment} {call : CallSite}

/-- The place of a call in a piece. -/
def callSpan (s : Segment) (call : CallSite) : Span :=
  ⟨s.line, s.col + call.start, s.col + call.stop⟩

/-- The span is that of a call of `c` in a piece that is searched: the piece stands on the line of
the span, and the characters at the span are what is written of the call. -/
def IsCallSpan (text : Text) (c : Char) (span : Span) : Prop :=
  ∃ s ∈ searched (Program.parse text).functions (lineSegments text), ∃ i : Nat,
    s.line = span.line ∧ s.span.characters text = s.text ∧ span.start = s.col + i ∧
      Written c (s.text.drop i) (span.characters text)

/-- **The span of a call.** -/
theorem exists_covers_of_mem_calls (hs : s ∈ searched table (lineSegments text))
    (hcall : call ∈ calls s.text) :
    ∃ w, (callSpan s call).Covers text w ∧ Written call.name (s.text.drop call.start) w := by
  obtain ⟨hplace, hheads⟩ := standsAt_of_mem_calls hcall
  obtain ⟨w, hw, hstop⟩ := hheads.written
  have hcovers := (covers_of_mem_searched hs).sub (hplace.trans (.of_isPrefix hw.isPrefix))
  refine ⟨w, ?_, hw⟩
  rw [callSpan, hstop, Int.natCast_add, ← Int.add_assoc]
  exact hcovers

theorem isCallSpan_callSpan
    (hs : s ∈ searched (Program.parse text).functions (lineSegments text))
    (hcall : call ∈ calls s.text) : IsCallSpan text call.name (callSpan s call) := by
  obtain ⟨w, hcovers, hw⟩ := exists_covers_of_mem_calls hs hcall
  refine ⟨s, hs, call.start, rfl, (covers_of_mem_searched hs).characters_eq, rfl, ?_⟩
  rwa [hcovers.characters_eq]

/-- **Diagnostics of calls** are about a call of no function, or of one with more parameters. -/
theorem of_callDiagnostic (h : callDiagnostic table s call = some d) :
    table.get? [call.name] = none ∧ d = undefinedCall call.name (callSpan s call) ∨
      ∃ f, table.get? [call.name] = some f ∧ call.args.length < f.params.length ∧
        d = missingArguments f call.args.length (callSpan s call) := by
  unfold callDiagnostic at h
  simp only at h
  split at h
  · rename_i hget
    cases h
    exact .inl ⟨hget, rfl⟩
  · rename_i f hget
    split at h
    · rename_i hlt
      cases h
      exact .inr ⟨f, hget, hlt, rfl⟩
    · cases h

/-! ### Labels -/

/-- The labels of a diagnostic point at what it is about. -/
inductive Exact (text : Text) : Diagnostic → Prop
  /-- A line that only looks like a definition, without the white space around it. -/
  | malformed {m : MainLine}
      (h : ∀ label ∈ (malformedDefinition m).labels,
        label.span.characters text = trim (label.span.sourceLine text)) :
      Exact text (malformedDefinition m)
  /-- The name in both of its definitions. -/
  | redefinition {previous f : Definition} {c : Char} (hp : previous.name = [c])
      (hf : f.name = [c])
      (h : ∀ label ∈ (redefinition previous f).labels, label.span.characters text = [c]) :
      Exact text (redefinition previous f)
  /-- The call. -/
  | undefinedCall {c : Char} {span : Span} (h : IsCallSpan text c span) :
      Exact text (undefinedCall c span)
  /-- The call, and the name in the definition of the function. -/
  | missingArguments {f : Definition} {given : Nat} {span : Span} {c : Char} (hf : f.name = [c])
      (hspan : IsCallSpan text c span) (h : (nameSpan f).characters text = [c]) :
      Exact text (missingArguments f given span)

theorem exact_of_mem_lineDiagnostics (h : d ∈ lineDiagnostics [] (programLines text)) :
    Exact text d ∧ ∀ label ∈ d.labels, label.span.InSource text := by
  have hcases := of_mem_lineDiagnostics (P := (.definition · ∈ programLines text))
    (fun _ hf => absurd hf List.not_mem_nil) (fun _ hf => hf) h
  rcases hcases with ⟨m, hm, rfl⟩ | ⟨previous, f, hprevious, hf, hname, rfl⟩
  · obtain ⟨hcovers, hne, htrim⟩ := covers_mainSpan hm
    refine ⟨.malformed fun label hlabel => ?_, fun label hlabel => ?_⟩ <;>
      rw [List.mem_singleton.1 hlabel]
    · exact hcovers.characters_eq.trans htrim
    · exact hcovers.inSource hne
  · obtain ⟨c, hc, hcovers⟩ := covers_nameSpan hf
    obtain ⟨c', hc', hcovers'⟩ := covers_nameSpan hprevious
    obtain rfl : c' = c := by simpa [hc, hc'] using hname
    have hlabels : ∀ label ∈ (redefinition previous f).labels, label.span.Covers text [c'] := by
      intro label hlabel
      simp only [redefinition, List.mem_cons, List.not_mem_nil, or_false] at hlabel
      rcases hlabel with rfl | rfl
      · exact hcovers
      · exact hcovers'
    exact ⟨.redefinition hc' hc fun label hlabel => (hlabels label hlabel).characters_eq,
      fun label hlabel => (hlabels label hlabel).inSource (List.cons_ne_nil _ _)⟩

theorem exact_of_callDiagnostic
    (hs : s ∈ searched (Program.parse text).functions (lineSegments text))
    (hcall : call ∈ calls s.text)
    (h : callDiagnostic (Program.parse text).functions s call = some d) :
    Exact text d ∧ ∀ label ∈ d.labels, label.span.InSource text := by
  obtain ⟨w, hcovers, hw⟩ := exists_covers_of_mem_calls hs hcall
  have hspan := isCallSpan_callSpan hs hcall
  rcases of_callDiagnostic h with ⟨-, rfl⟩ | ⟨f, hget, -, rfl⟩
  · refine ⟨.undefinedCall hspan, fun label hlabel => ?_⟩
    rw [List.mem_singleton.1 hlabel]
    exact hcovers.inSource hw.ne_nil
  · obtain ⟨c, hc, hname⟩ := covers_nameSpan (mem_programLines_of_get? hget)
    obtain rfl : call.name = c := by
      simpa [hc] using ((FunctionTable.mem_of_get? hget).2).symm
    refine ⟨.missingArguments hc hspan hname.characters_eq, fun label hlabel => ?_⟩
    simp only [missingArguments, List.mem_cons, List.not_mem_nil, or_false] at hlabel
    rcases hlabel with rfl | rfl
    · exact hcovers.inSource hw.ne_nil
    · exact hname.inSource (List.cons_ne_nil _ _)

/-- Every diagnostic comes from the lines or from a call in a piece that is searched. -/
theorem cases_of_mem_diagnostics (h : d ∈ diagnostics text) :
    d ∈ lineDiagnostics [] (programLines text) ∨
      ∃ s ∈ searched (Program.parse text).functions (lineSegments text),
        ∃ call ∈ calls s.text, callDiagnostic (Program.parse text).functions s call = some d := by
  rcases List.mem_append.1 h with h | h
  · exact .inl h
  · obtain ⟨s, hs, h⟩ := List.mem_flatMap.1 h
    obtain ⟨call, hcall, h⟩ := List.mem_filterMap.1 h
    exact .inr ⟨s, hs, call, hcall, h⟩

/-- **Every label is real and exact.** -/
theorem exact_of_mem_diagnostics (h : d ∈ diagnostics text) :
    Exact text d ∧ ∀ label ∈ d.labels, label.span.InSource text := by
  rcases cases_of_mem_diagnostics h with h | ⟨s, hs, call, hcall, h⟩
  · exact exact_of_mem_lineDiagnostics h
  · exact exact_of_callDiagnostic hs hcall h

/-! ### No place twice -/

/-- The line and the column where the first label of a diagnostic starts. -/
def firstSite? (d : Diagnostic) : Option (Int × Int) :=
  d.labels.head?.map fun label => (label.span.line, label.span.start)

theorem firstSite?_of_callDiagnostic (h : callDiagnostic table s call = some d) :
    firstSite? d = some (s.site call) := by
  rcases of_callDiagnostic h with ⟨-, rfl⟩ | ⟨f, -, -, rfl⟩ <;> rfl

/-- A diagnostic is about a call. -/
def AboutCall (d : Diagnostic) : Prop :=
  (∃ c span, d = undefinedCall c span) ∨ ∃ f given span, d = missingArguments f given span

/-- What the lines give is not about calls. -/
theorem not_aboutCall_of_mem_lineDiagnostics {lines : List ProgramLine}
    (h : d ∈ lineDiagnostics table lines) : ¬AboutCall d := by
  have hcases := of_mem_lineDiagnostics (P := fun _ => True) (fun _ _ => trivial)
    (fun _ _ => trivial) h
  rcases hcases with ⟨m, -, rfl⟩ | ⟨previous, f, -, -, -, rfl⟩
  · simp [AboutCall, malformedDefinition, undefinedCall, missingArguments]
  · simp [AboutCall, redefinition, undefinedCall, missingArguments]

/-- The diagnostics of calls start in different places. -/
theorem pairwise_callDiagnostics (table : FunctionTable) (text : Text) :
    ((searched table (lineSegments text)).flatMap fun s =>
      (calls s.text).filterMap (callDiagnostic table s)).Pairwise
        fun d e => firstSite? d ≠ firstSite? e := by
  refine List.pairwise_flatMap.2 ⟨fun s _ => ?_, ?_⟩
  · refine List.pairwise_filterMap.2 (List.Pairwise.imp_of_mem ?_ (pairwise_callsFrom 0 s.text))
    intro c c' hc _ hbefore d hd e he heq
    rw [firstSite?_of_callDiagnostic hd, firstSite?_of_callDiagnostic he] at heq
    have hlt := (standsAt_of_mem_calls hc).2.start_lt
    simp only [Segment.site, Option.some.injEq, Prod.mk.injEq, true_and] at heq
    omega
  · refine (pairwise_searched (pairwise_lineSegments text)).imp fun hsites d hd e he heq => ?_
    obtain ⟨c, hc, hd⟩ := List.mem_filterMap.1 hd
    obtain ⟨c', hc', he⟩ := List.mem_filterMap.1 he
    rw [firstSite?_of_callDiagnostic hd, firstSite?_of_callDiagnostic he] at heq
    exact hsites c hc c' hc' (Option.some.inj heq)

/-- **No place twice.** A diagnostic about a call starts where none of the later ones does. -/
theorem pairwise_diagnostics (text : Text) :
    (diagnostics text).Pairwise fun d e => AboutCall d → firstSite? d ≠ firstSite? e := by
  refine List.pairwise_append.2 ⟨?_, ?_, ?_⟩
  · refine List.pairwise_of_forall_mem_list fun d hd e _ habout => ?_
    exact absurd habout (not_aboutCall_of_mem_lineDiagnostics hd)
  · refine (pairwise_callDiagnostics _ text).imp ?_
    intro d e hsites _
    exact hsites
  · intro d hd e _ habout
    exact absurd habout (not_aboutCall_of_mem_lineDiagnostics hd)

/-- **The labels of the checks.** Every label of every diagnostic points at one character or more of
a line of the program, and at exactly the characters that the diagnostic is about: a call in a
searched piece, the name of a definition, or a whole line without the white space around it. No two
calls of undefined functions are reported at the same start, and no two calls with too few
arguments. -/
theorem labels_exact (text : Text) :
    (∀ d ∈ diagnostics text, Exact text d ∧ ∀ label ∈ d.labels, label.span.InSource text) ∧
      (diagnostics text).Pairwise fun d e =>
        (∀ c span c' span', d = undefinedCall c span → e = undefinedCall c' span' →
          (span.line, span.start) ≠ (span'.line, span'.start)) ∧
        ∀ f given span f' given' span', d = missingArguments f given span →
          e = missingArguments f' given' span' →
          (span.line, span.start) ≠ (span'.line, span'.start) := by
  refine ⟨fun d hd => exact_of_mem_diagnostics hd, (pairwise_diagnostics text).imp fun h => ?_⟩
  constructor
  · rintro c span c' span' rfl rfl heq
    exact h (.inl ⟨c, span, rfl⟩) (congrArg some heq)
  · rintro f given span f' given' span' rfl rfl heq
    exact h (.inr ⟨f, given, span, rfl⟩) (congrArg some heq)

-- The call of `g` is cut where the argument of `f` that holds it ends.
example : (diagnostics "f(A):A\n\tf( g(x,h))".toList).map
    (fun d => d.labels.map (·.span.characters "f(A):A\n\tf( g(x,h))".toList)) =
      [["g(x".toList]] := by decide +kernel

end Check

end RobotMaze
