import Mathlib.Data.Set.Basic
import RobotMaze.Check.Diagnostics
import RobotMaze.Proofs.Diagnostic.Spans
import RobotMaze.Proofs.Program.Table

/-!
# Where the checks look

The checks search pieces of text, and pieces of these pieces, and carry the place of each along: a
line and a column, moved on by indentation, by what stands before the body of a definition, by the
arguments before an argument and by the white space around it. This file shows that no place is ever
off, and that no place is searched twice.

## Calls

`CallSite.Heads` says what is known of a call that a text starts with. Every call that the scanner
finds heads what is left of the text at its place (`exists_heads_of_mem_callsFrom`), so all that is
needed about places follows from there: what is written at the place of a call, and where its
arguments stand.

## Regions

A piece of text takes up a `region` of the program: the columns of a line that its characters stand
in. Arguments have regions within the piece that they are found in, apart from each other and from
the letters of the calls in that piece, since the scanner steps over argument lists. So the regions
that are waiting to be searched stay apart, and no two calls start in one place
(`pairwise_searched`).

## Main results

* `exists_heads_of_mem_callsFrom` — what the scanner finds
* `forall_mem_searched` — what holds of the pieces on the lines holds of all that is searched
* `covers_of_mem_searched` — all pieces stand where they are said to stand
* `pairwise_searched` — no two calls start in one place
-/

namespace RobotMaze

namespace Check

open Text

/-! ### Arguments -/

variable {offset : Nat} {t : Text} {arg : Argument} {call : CallSite}

theorem standsAt_placedArguments {ps : List Text} (h : arg ∈ placedArguments offset ps) :
    ∃ i, arg.offset = offset + i ∧ StandsAt arg.text i (List.intercalate [','] ps) := by
  induction ps generalizing offset with
  | nil => cases h
  | cons p ps ih =>
    rcases List.mem_cons.1 h with rfl | h
    · have hfirst : StandsAt p 0 (List.intercalate [','] (p :: ps)) := by
        cases ps with
        | nil => exact ⟨[], [], by simp, rfl⟩
        | cons q ps =>
          refine .of_isPrefix ?_
          rw [List.intercalate_cons_cons, List.append_assoc]
          exact List.prefix_append _ _
      refine ⟨indent p, rfl, ?_⟩
      rw [← Nat.zero_add (indent p)]
      exact hfirst.trans (standsAt_trim p)
    · obtain ⟨i, hi, hstands⟩ := ih h
      refine ⟨p.length + 1 + i, by omega, ?_⟩
      cases ps with
      | nil => cases h
      | cons q ps =>
        refine StandsAt.trans ⟨p ++ [','], [], ?_, by simp⟩ hstands
        simp [List.intercalate_cons_cons]

/-- Arguments stand in their argument list. -/
theorem standsAt_argumentsAt (h : arg ∈ argumentsAt offset t) :
    ∃ i, arg.offset = offset + i ∧ StandsAt arg.text i t := by
  unfold argumentsAt at h
  split at h
  · cases h
  · obtain ⟨i, hi, hstands⟩ := standsAt_placedArguments h
    rw [List.intercalate_splitOn] at hstands
    exact ⟨i, hi, hstands⟩

theorem pairwise_placedArguments (offset : Nat) (ps : List Text) :
    (placedArguments offset ps).Pairwise fun a b => a.offset + a.text.length < b.offset := by
  induction ps generalizing offset with
  | nil => exact .nil
  | cons p ps ih =>
    refine List.pairwise_cons.2 ⟨fun b hb => ?_, ih _⟩
    obtain ⟨i, hi, -⟩ := standsAt_placedArguments hb
    have := (standsAt_trim p).add_length_le
    simp only at this ⊢
    omega

/-- Every argument ends before the next one begins. -/
theorem pairwise_argumentsAt (offset : Nat) (t : Text) :
    (argumentsAt offset t).Pairwise fun a b => a.offset + a.text.length < b.offset := by
  unfold argumentsAt
  split
  · exact .nil
  · exact pairwise_placedArguments _ _

/-! ### Calls -/

/-- What is written of a call of `c` that a text starts with: the letter alone if no parenthesis
follows it, the letter and the argument list up to the parenthesis that closes it, or all of the
text if nothing closes the list. -/
inductive Written (c : Char) : Text → Text → Prop
  | bare {rest : Text} (h : rest.head? ≠ some '(') : Written c (c :: rest) [c]
  | closed {inside : Text} {n : Nat} (h : Call.Closes inside n) :
      Written c (c :: '(' :: inside) (c :: '(' :: inside.take (n + 1))
  | unclosed {inside : Text} (h : ∀ n, ¬Call.Closes inside n) :
      Written c (c :: '(' :: inside) (c :: '(' :: inside)

/-- A text starts with a call. -/
structure CallSite.Heads (call : CallSite) (t : Text) : Prop where
  written : ∃ w, Written call.name t w ∧ call.stop = call.start + w.length
  args : ∀ arg ∈ call.args, ∃ i, arg.offset = call.start + 2 + i ∧
    arg.offset + arg.text.length ≤ call.stop ∧ StandsAt arg.text (2 + i) t
  ordered : call.args.Pairwise fun a b => a.offset + a.text.length < b.offset

theorem Written.isPrefix {c : Char} {w : Text} (h : Written c t w) : w <+: t := by
  cases h with
  | bare => exact List.prefix_append [c] _
  | closed =>
    exact (List.prefix_cons_inj _).2 ((List.prefix_cons_inj _).2 (List.take_prefix _ _))
  | unclosed => exact List.prefix_rfl

theorem Written.ne_nil {c : Char} {w : Text} (h : Written c t w) : w ≠ [] := by
  cases h <;> simp

theorem CallSite.Heads.start_lt (h : call.Heads t) : call.start < call.stop := by
  obtain ⟨w, hw, hstop⟩ := h.written
  have := List.length_pos_iff.2 hw.ne_nil
  omega

theorem CallSite.Heads.length_le (h : call.Heads t) : call.stop ≤ call.start + t.length := by
  obtain ⟨w, hw, hstop⟩ := h.written
  have := hw.isPrefix.length_le
  omega

theorem heads_bare (offset : Nat) (c : Char) {rest : Text} (h : rest.head? ≠ some '(') :
    CallSite.Heads ⟨c, offset, offset + 1, []⟩ (c :: rest) :=
  ⟨⟨[c], .bare h, rfl⟩, by simp, .nil⟩

/-- The arguments of a call stand in the first `n` characters after its parenthesis. -/
theorem heads_list {c : Char} {inside : Text} {n stop : Nat}
    (hwritten : ∃ w, Written c (c :: '(' :: inside) w ∧ stop = offset + w.length)
    (hstop : offset + 2 + (inside.take n).length ≤ stop) :
    CallSite.Heads ⟨c, offset, stop, argumentsAt (offset + 2) (inside.take n)⟩
      (c :: '(' :: inside) := by
  refine ⟨hwritten, fun arg harg => ?_, pairwise_argumentsAt _ _⟩
  obtain ⟨i, hi, hstands⟩ := standsAt_argumentsAt harg
  have hlist : StandsAt (inside.take n) 2 (c :: '(' :: inside) :=
    ⟨[c, '('], inside.drop n, by simp, rfl⟩
  have := hstands.add_length_le
  exact ⟨i, hi, by simp only at hstop ⊢; omega, hlist.trans hstands⟩

/-- **What the scanner finds.** A call heads what is left of the text at its place. -/
theorem exists_heads_of_mem_callsFrom (h : call ∈ callsFrom offset t) :
    ∃ i, call.start = offset + i ∧ call.Heads (t.drop i) := by
  fun_induction callsFrom offset t with
  | case1 => cases h
  | case2 offset c inside hc n hn ih =>
    have hcloses := Call.closingDistance_eq_some_iff.1 hn
    have hlt := hcloses.lt_length
    rcases List.mem_cons.1 h with rfl | h
    · refine ⟨0, rfl, heads_list ⟨_, .closed hcloses, ?_⟩ ?_⟩ <;>
        simp only [List.length_cons, List.length_take] <;> omega
    · obtain ⟨i, hi, hheads⟩ := ih h
      refine ⟨n + 3 + i, by omega, ?_⟩
      rw [List.drop_drop] at hheads
      rw [show n + 3 + i = n + 1 + i + 1 + 1 by omega, List.drop_succ_cons, List.drop_succ_cons]
      exact hheads
  | case3 offset c inside hc hn =>
    rw [List.mem_singleton.1 h]
    have hopen := Call.closingDistance_eq_none_iff.1 hn
    refine ⟨0, rfl, ?_⟩
    have hheads := @heads_list offset c inside inside.length _ ⟨_, .unclosed hopen, rfl⟩
      (by simp only [List.take_length, List.length_cons]; omega)
    simpa [Nat.add_assoc] using hheads
  | case4 offset c inside hc ih =>
    obtain ⟨i, hi, hheads⟩ := ih h
    exact ⟨i + 1, by omega, hheads⟩
  | case5 offset c rest hne hc ih =>
    have hopen : rest.head? ≠ some '(' := by
      intro hhead
      obtain ⟨inside, rfl⟩ := List.head?_eq_some_iff.1 hhead
      exact hne inside rfl
    rcases List.mem_cons.1 h with rfl | h
    · exact ⟨0, rfl, heads_bare offset c hopen⟩
    · obtain ⟨i, hi, hheads⟩ := ih h
      exact ⟨i + 1, by omega, hheads⟩
  | case6 offset c rest _ hc ih =>
    obtain ⟨i, hi, hheads⟩ := ih h
    exact ⟨i + 1, by omega, hheads⟩

/-- A call starts in the text. -/
theorem standsAt_of_mem_calls (h : call ∈ calls t) :
    StandsAt (t.drop call.start) call.start t ∧ call.Heads (t.drop call.start) := by
  obtain ⟨i, hi, hheads⟩ := exists_heads_of_mem_callsFrom h
  obtain rfl : call.start = i := by omega
  have hle := hheads.length_le
  have hlt := hheads.start_lt
  rw [List.length_drop] at hle
  exact ⟨.of_drop (by omega), hheads⟩

/-- An argument of a call stands within the call, behind the letter. -/
theorem standsAt_of_mem_args (h : call ∈ calls t) (harg : arg ∈ call.args) :
    StandsAt arg.text arg.offset t ∧ call.start < arg.offset ∧
      arg.offset + arg.text.length ≤ call.stop := by
  obtain ⟨hcall, hheads⟩ := standsAt_of_mem_calls h
  obtain ⟨i, hi, hstop, hstands⟩ := hheads.args arg harg
  have hplace := hcall.trans hstands
  rw [← Nat.add_assoc, ← hi] at hplace
  exact ⟨hplace, by omega, hstop⟩

theorem pairwise_callsFrom (offset : Nat) (t : Text) :
    (callsFrom offset t).Pairwise fun c c' => c.stop ≤ c'.start := by
  have hlower : ∀ {offset t call}, call ∈ callsFrom offset t → offset ≤ call.start := by
    intro offset t call h
    obtain ⟨i, hi, -⟩ := exists_heads_of_mem_callsFrom h
    omega
  fun_induction callsFrom offset t with
  | case1 => exact .nil
  | case2 offset c inside hc n hn ih =>
    exact List.pairwise_cons.2 ⟨fun c' hc' => hlower hc', ih⟩
  | case3 => exact List.pairwise_singleton _ _
  | case4 offset c inside hc ih => exact ih
  | case5 offset c rest hne hc ih =>
    exact List.pairwise_cons.2 ⟨fun c' hc' => hlower hc', ih⟩
  | case6 offset c rest hne hc ih => exact ih

/-- Two calls in a text are the same, or one ends before the other starts. -/
theorem calls_apart {c c' : CallSite} (h : c ∈ calls t) (h' : c' ∈ calls t) :
    c = c' ∨ c.stop ≤ c'.start ∨ c'.stop ≤ c.start := by
  have hordered := pairwise_callsFrom 0 t
  exact List.Pairwise.forall_of_forall_of_flip (R := fun c c' : CallSite =>
    c = c' ∨ c.stop ≤ c'.start ∨ c'.stop ≤ c.start) (fun _ _ => .inl rfl)
    (hordered.imp fun h => .inr (.inl h)) (hordered.imp fun h => .inr (.inr h)) h h'

/-! ### Pieces -/

variable {table : FunctionTable} {s s' : Segment} {segments : List Segment} {text : Text}

/-- The place of a piece. -/
def Segment.span (s : Segment) : Span := ⟨s.line, s.col, s.col + s.text.length⟩

/-- What a call in a piece adds to the search. -/
def passedBy (table : FunctionTable) (s : Segment) (call : CallSite) : List Segment :=
  match table.get? [call.name] with
  | none => []
  | some d => (passedArguments d call).map fun arg => ⟨s.line, s.col + arg.offset, arg.text⟩

theorem passed_eq_flatMap (table : FunctionTable) (s : Segment) :
    passed table s = (calls s.text).flatMap (passedBy table s) := rfl

/-- What a call adds are arguments of its own, in order. -/
theorem exists_sublist_passedBy (table : FunctionTable) (s : Segment) (call : CallSite) :
    ∃ args : List Argument, args.Sublist call.args ∧
      passedBy table s call = args.map fun arg => ⟨s.line, s.col + arg.offset, arg.text⟩ := by
  unfold passedBy
  split
  · exact ⟨[], List.nil_sublist _, rfl⟩
  · exact ⟨_, passedArguments_sublist _ call, rfl⟩

theorem exists_of_mem_passedBy (h : s' ∈ passedBy table s call) :
    ∃ arg ∈ call.args, s' = ⟨s.line, s.col + arg.offset, arg.text⟩ := by
  obtain ⟨args, hargs, heq⟩ := exists_sublist_passedBy table s call
  rw [heq] at h
  obtain ⟨arg, harg, rfl⟩ := List.mem_map.1 h
  exact ⟨arg, hargs.subset harg, rfl⟩

/-- What joins the search is an argument of a call in the piece that was scanned. -/
theorem exists_of_mem_passed (h : s' ∈ passed table s) :
    ∃ call ∈ calls s.text, ∃ arg ∈ call.args,
      s' = ⟨s.line, s.col + arg.offset, arg.text⟩ := by
  obtain ⟨call, hcall, h⟩ := List.mem_flatMap.1 (passed_eq_flatMap table s ▸ h)
  exact ⟨call, hcall, exists_of_mem_passedBy h⟩

/-- **Invariants of the search.** What a piece hands on to all that it passes on holds of everything
that is searched, if it holds of what the search starts with. -/
theorem forall_mem_searched {P : Segment → Prop}
    (hpassed : ∀ s s', P s → s' ∈ passed table s → P s') (h : ∀ s ∈ segments, P s) :
    ∀ s ∈ searched table segments, P s := by
  fun_induction searched table segments with
  | case1 => exact h
  | case2 first waiting ih =>
    obtain ⟨hfirst, hwaiting⟩ := List.forall_mem_cons.1 h
    refine List.forall_mem_cons.2 ⟨hfirst, ih fun s hs => ?_⟩
    rcases List.mem_append.1 hs with hs | hs
    · exact hwaiting s hs
    · exact hpassed first s hfirst hs

theorem covers_of_mem_passed (h : s.span.Covers text s.text) (hs : s' ∈ passed table s) :
    s'.span.Covers text s'.text := by
  obtain ⟨call, hcall, arg, harg, rfl⟩ := exists_of_mem_passed hs
  exact h.sub (standsAt_of_mem_args hcall harg).1

/-- The piece that a line holds. -/
def lineSegment? (number : Nat) (raw : Text) : Option Segment :=
  match ProgramLine.read number raw with
  | .blank => none
  | .main m => some ⟨m.line, m.col, m.text⟩
  | .definition d => some ⟨d.line, bodyColumn raw d, d.body⟩

theorem lineSegments_eq_filterMap (text : Text) :
    lineSegments text = ((splitLines text).zipIdx 1).filterMap fun p => lineSegment? p.2 p.1 := rfl

/-- A piece stands on its line: the main program behind the indentation, and a body at the end of
the trimmed line. -/
theorem place_of_lineSegment? {number : Nat} {raw : Text} (h : lineSegment? number raw = some s) :
    s.line = number ∧ ∃ i : Nat, s.col = i + 1 ∧ StandsAt s.text i raw := by
  unfold lineSegment? at h
  cases hread : ProgramLine.read number raw with
  | blank => simp [hread] at h
  | main m =>
    obtain ⟨rfl, -⟩ := ProgramLine.eq_of_read_main hread
    simp only [hread, Option.some.injEq] at h
    subst h
    exact ⟨rfl, indent raw, rfl, standsAt_trim raw⟩
  | definition d =>
    simp only [hread, Option.some.injEq] at h
    subst h
    have hparse := ProgramLine.definition?_read number raw
    rw [hread] at hparse
    obtain ⟨hline, hcol, c, rest, htrim, -, hbody⟩ := Definition.place_of_parse? hparse.symm
    have hbody : d.body <:+ trim raw := htrim ▸ hbody.trans (List.suffix_cons c rest)
    have hle := hbody.length_le
    refine ⟨hline, _, ?_, (standsAt_trim raw).trans (.of_suffix hbody)⟩
    simp only [bodyColumn, hcol]
    omega

/-- The pieces that the lines hold stand where they are said to stand. -/
theorem covers_of_mem_lineSegments (h : s ∈ lineSegments text) :
    s.span.Covers text s.text := by
  rw [lineSegments_eq_filterMap] at h
  obtain ⟨⟨raw, number⟩, hmem, hs⟩ := List.mem_filterMap.1 h
  obtain ⟨hpos, hline⟩ := List.mk_mem_zipIdx_iff_le_and_getElem?_sub.1 hmem
  obtain ⟨hnumber, i, hcol, hplace⟩ := place_of_lineSegment? hs
  refine ⟨⟨number - 1, i, raw, hline, hplace, ?_, hcol⟩, rfl⟩
  simp only [Segment.span, hnumber]
  omega

/-- **All pieces stand where they are said to stand.** -/
theorem covers_of_mem_searched (h : s ∈ searched table (lineSegments text)) :
    s.span.Covers text s.text :=
  forall_mem_searched (fun _ _ hs hs' => covers_of_mem_passed hs hs')
    (fun _ hs => covers_of_mem_lineSegments hs) s h

/-! ### Regions -/

/-- The lines and columns that a piece takes up. -/
def Segment.region (s : Segment) : Set (Int × Int) :=
  {p | p.1 = s.line ∧ s.col ≤ p.2 ∧ p.2 < s.col + s.text.length}

/-- Two pieces have no place in common. -/
def Segment.Apart (a b : Segment) : Prop := ∀ p ∈ a.region, p ∉ b.region

/-- The line and the column where a call in a piece starts. -/
def Segment.site (s : Segment) (call : CallSite) : Int × Int := (s.line, s.col + call.start)

theorem site_mem_region (h : call ∈ calls s.text) : s.site call ∈ s.region := by
  obtain ⟨hplace, hheads⟩ := standsAt_of_mem_calls h
  have hle := hheads.length_le
  have hlt := hheads.start_lt
  rw [List.length_drop] at hle
  exact ⟨rfl, by simp only [Segment.site]; omega, by simp only [Segment.site]; omega⟩

theorem region_subset_of_mem_passed (h : s' ∈ passed table s) : s'.region ⊆ s.region := by
  obtain ⟨call, hcall, arg, harg, rfl⟩ := exists_of_mem_passed h
  have hle := (standsAt_of_mem_args hcall harg).1.add_length_le
  rintro p ⟨hline, hstart, hstop⟩
  exact ⟨hline, by simp only at hstart; omega, by simp only at hstop; omega⟩

/-- The letter of a call is not searched again with the arguments of calls. -/
theorem site_notMem_of_mem_passed (hcall : call ∈ calls s.text) (h : s' ∈ passed table s) :
    s.site call ∉ s'.region := by
  obtain ⟨call', hcall', arg, harg, rfl⟩ := exists_of_mem_passed h
  obtain ⟨-, hstart, hstop⟩ := standsAt_of_mem_args hcall' harg
  have hlt := (standsAt_of_mem_calls hcall).2.start_lt
  rintro ⟨-, hle, hlt'⟩
  simp only [Segment.site] at hle hlt'
  rcases calls_apart hcall hcall' with rfl | hbefore | hafter <;> omega

theorem pairwise_passed (table : FunctionTable) (s : Segment) :
    (passed table s).Pairwise Segment.Apart := by
  have hapart : ∀ {a b : Argument}, a.offset + a.text.length ≤ b.offset →
      Segment.Apart ⟨s.line, s.col + a.offset, a.text⟩ ⟨s.line, s.col + b.offset, b.text⟩ := by
    rintro a b hab p ⟨-, -, hlt⟩ ⟨-, hle, -⟩
    simp only at hlt hle
    omega
  rw [passed_eq_flatMap]
  refine List.pairwise_flatMap.2 ⟨fun call hcall => ?_, ?_⟩
  · obtain ⟨args, hargs, heq⟩ := exists_sublist_passedBy table s call
    have hordered := (standsAt_of_mem_calls hcall).2.ordered.sublist hargs
    rw [heq]
    exact List.pairwise_map.2 (hordered.imp fun h => hapart (Nat.le_of_lt h))
  · refine List.Pairwise.imp_of_mem ?_ (pairwise_callsFrom 0 s.text)
    intro c c' hc hc' hbefore a ha b hb
    obtain ⟨arg, harg, rfl⟩ := exists_of_mem_passedBy ha
    obtain ⟨arg', harg', rfl⟩ := exists_of_mem_passedBy hb
    have hstop := (standsAt_of_mem_args hc harg).2.2
    have hstart := (standsAt_of_mem_args hc' harg').2.1
    exact hapart (by omega)

/-- Pieces on different lines take up different places. -/
theorem pairwise_lineSegments (text : Text) :
    (lineSegments text).Pairwise Segment.Apart := by
  have hnumbers := pairwise_zipIdx (splitLines text) 1
  rw [lineSegments_eq_filterMap]
  refine List.pairwise_filterMap.2 (hnumbers.imp fun hlt a ha b hb => ?_)
  have ha := (place_of_lineSegment? ha).1
  have hb := (place_of_lineSegment? hb).1
  rintro p ⟨hp, -⟩ ⟨hp', -⟩
  omega

/-- Everything that is searched lies in a piece that the search starts with. -/
theorem exists_region_of_mem_searched (h : s' ∈ searched table segments) :
    ∃ s ∈ segments, s'.region ⊆ s.region := by
  refine forall_mem_searched (P := fun s' => ∃ s ∈ segments, s'.region ⊆ s.region)
    ?_ (fun s hs => ⟨s, hs, subset_rfl⟩) s' h
  rintro a b ⟨s, hs, hsub⟩ hb
  exact ⟨s, hs, (region_subset_of_mem_passed hb).trans hsub⟩

/-- **No two calls start in one place.** -/
theorem pairwise_searched (h : segments.Pairwise Segment.Apart) :
    (searched table segments).Pairwise fun a b =>
      ∀ c ∈ calls a.text, ∀ c' ∈ calls b.text, a.site c ≠ b.site c' := by
  fun_induction searched table segments with
  | case1 => exact .nil
  | case2 first waiting ih =>
    obtain ⟨hfirst, hwaiting⟩ := List.pairwise_cons.1 h
    refine List.pairwise_cons.2 ⟨fun b hb c hc c' hc' heq => ?_, ih ?_⟩
    · obtain ⟨s, hs, hsub⟩ := exists_region_of_mem_searched hb
      have hmem : first.site c ∈ s.region := heq ▸ hsub (site_mem_region hc')
      rcases List.mem_append.1 hs with hs | hs
      · exact hfirst s hs _ (site_mem_region hc) hmem
      · exact site_notMem_of_mem_passed hc hs hmem
    · refine List.pairwise_append.2 ⟨hwaiting, pairwise_passed table first, fun a ha b hb => ?_⟩
      exact fun p ha' hb' => hfirst a ha p (region_subset_of_mem_passed hb hb') ha'

end Check

end RobotMaze
