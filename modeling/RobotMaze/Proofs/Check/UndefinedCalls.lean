import RobotMaze.Proofs.Check.Calls
import RobotMaze.Proofs.Expansion.Bindings

/-!
# Calls of no function

A call of a function that has no definition has no effect, and the checks are there to report it.
They look at the text alone: at the main program line by line, and at an argument where the body of
the called function has its parameter. The expander joins the main lines first, and a body inherits
the bindings of its caller, so an argument can be expanded by a function that is called further
down. This file says when the two views agree, and shows that they do not always.

## What a text can refer to

`Uses` is the expander's view of the names in a text: a name is used where it stands, where an
argument uses it, and where a called function uses it that does not bind it anew. A text in a
context is a `Reading`. The readings that are reached from it through the names it uses are all that
can be expanded in its place, and whatever a call makes of them is found among the readings of the
caller, the arguments and the body (`Reading.reaches_of_bind`).

## When the checks see everything

In a `Program.Traceable` program no argument list runs on over the end of a line, and a body that
uses a parameter has that parameter. At every moment of its expansion, all calls of all readings are
then calls of a piece that is searched (`Reading.Watched`), and so no failed look-up goes
unreported.

## Main results

* `Reading.reaches_of_bind` — what the body of a call can refer to
* `undefined_call_reported` — in a traceable program every failed look-up is reported
* `undefined_call_unreported` — neither of the two conditions can be left out
-/

namespace RobotMaze

open Text Expansion

namespace Check

variable {table : FunctionTable} {name : Name} {t u : Text}

/-! ### The names that a text uses -/

/-- A name occurs in a text where it is a part of it. -/
theorem mentions_iff : mentions name t = true ↔ name <:+: t := by
  induction t with
  | nil => simp [mentions]
  | cons c rest ih => simp [mentions, ih, List.infix_cons_iff]

/-- Reading a text can refer to what a name is bound to where the text is read. -/
inductive Uses (table : FunctionTable) (name : Name) : Text → Prop
  /-- The name stands in the text. -/
  | here {t : Text} (h : mentions name t = true) : Uses table name t
  /-- An argument uses the name. -/
  | argument {t arg : Text} {a : Attempt} (ha : a ∈ attempts t) (harg : arg ∈ a.args)
      (h : Uses table name arg) : Uses table name t
  /-- A function that is called uses the name, and the call does not bind it anew. -/
  | callee {t : Text} {a : Attempt} {d : Definition} (ha : a ∈ attempts t)
      (hget : table.get? [a.letter] = some d)
      (hname : name ∉ (d.params.zip a.args).map Prod.fst) (h : Uses table name d.body) :
      Uses table name t

/-- A part of a text with no calls of its own uses no more than the text. -/
theorem Uses.mono (hpart : t <:+: u) (hcalls : attempts t ⊆ attempts u)
    (h : Uses table name t) : Uses table name u := by
  cases h with
  | here h => exact .here (mentions_iff.2 ((mentions_iff.1 h).trans hpart))
  | argument ha harg h => exact .argument (hcalls ha) harg h
  | callee ha hget hname h => exact .callee (hcalls ha) hget hname h

/-! ### Readings -/

/-- A text and the context that it is read in. -/
structure Reading where
  text : Text
  context : Context

namespace Reading

/-- The second reading is a fragment that the text of the first can refer to. -/
def Refers (table : FunctionTable) (r own : Reading) : Prop :=
  ∃ name, Uses table name r.text ∧
    r.context.scope.get? name = some (.fragment own.text own.context)

/-- The second reading is reached from the first through any number of fragments. -/
def Reaches (table : FunctionTable) : Reading → Reading → Prop :=
  Relation.ReflTransGen (Refers table)

variable {context caller callee : Context} {r : Reading}

/-- A text that uses fewer names reaches nothing else in the same context. -/
theorem reaches_of_uses (huses : ∀ name, Uses table name t → Uses table name u)
    (h : Reaches table ⟨t, context⟩ r) : r = ⟨t, context⟩ ∨ Reaches table ⟨u, context⟩ r := by
  rcases Relation.ReflTransGen.cases_head h with rfl | ⟨own, ⟨name, hname, hv⟩, h⟩
  · exact .inl rfl
  · exact .inr (.head ⟨name, huses name hname, hv⟩ h)

/-- **What the body of a call can refer to** is the body itself, an argument whose parameter the
body uses, and what the text of the call can refer to. -/
theorem reaches_of_bind {a : Attempt} {d : Definition} (ha : a ∈ attempts t)
    (hget : table.get? [a.letter] = some d) (hbind : d.bind a.args caller = .ok (some callee))
    (h : Reaches table ⟨d.body, callee⟩ r) :
    r = ⟨d.body, callee⟩ ∨
      (∃ param arg, (param, arg) ∈ d.params.zip a.args ∧ Expression.isNumeric arg = false ∧
        Uses table param d.body ∧ r = ⟨arg, caller⟩) ∨
      Reaches table ⟨t, caller⟩ r := by
  rcases Relation.ReflTransGen.cases_head h with rfl | ⟨⟨arg, own⟩, ⟨param, huses, hv⟩, h⟩
  · exact .inl rfl
  · refine .inr ?_
    obtain ⟨hnot, hv⟩ | ⟨arg', hpair, hv⟩ := Definition.get?_of_bind hbind hv
    · -- A binding that is inherited is one that the text of the call uses.
      exact .inr (.head ⟨param, .callee ha hget hnot huses, hv⟩ h)
    · cases hv with
      | fragment hnum =>
        have harg : arg ∈ a.args := (List.of_mem_zip hpair).2
        rcases reaches_of_uses (fun _ => .argument ha harg) h with rfl | h
        · exact .inl ⟨param, arg, hpair, hnum, huses, rfl⟩
        · exact .inr h

end Reading

end Check

open Check

/-- A program whose calls can be traced in its lines. -/
structure Program.Traceable (p : Program) : Prop where
  /-- A call of the main program stands on one line, together with its arguments. -/
  lines : ∀ a ∈ attempts p.main, ∃ m ∈ p.mainLines, a ∈ attempts m.text
  /-- A parameter that the body of its function uses stands in that body. -/
  parameters : ∀ d ∈ p.functions, ∀ param ∈ d.params,
    Uses p.functions param d.body → mentions param d.body = true

namespace Check

/-! ### Calls that are searched -/

variable {text t u : Text}

/-- Every call of a text is a call of a piece that is searched. -/
def Covered (text t : Text) : Prop :=
  ∀ a ∈ attempts t,
    ∃ s ∈ searched (Program.parse text).functions (lineSegments text), a ∈ attempts s.text

/-- What stands on the lines of the program is searched. -/
theorem covered_of_segment (h : ∃ s ∈ lineSegments text, s.text = t) : Covered text t := by
  obtain ⟨s, hs, rfl⟩ := h
  exact fun a ha => ⟨s, subset_searched hs, ha⟩

theorem covered_main (hp : (Program.parse text).Traceable) :
    Covered text (Program.parse text).main := by
  intro a ha
  obtain ⟨m, hm, ha⟩ := hp.lines a ha
  exact covered_of_segment (exists_segment_of_mem_mainLines hm) a ha

/-- The arguments of a call that is searched are searched where the body uses their parameter. -/
theorem covered_of_argument (hp : (Program.parse text).Traceable) {a : Attempt} {d : Definition}
    {param : Name} {arg : Text} (ht : Covered text t) (ha : a ∈ attempts t)
    (hget : (Program.parse text).functions.get? [a.letter] = some d)
    (hpair : (param, arg) ∈ d.params.zip a.args) (hnum : Expression.isNumeric arg = false)
    (huses : Uses (Program.parse text).functions param d.body) : Covered text arg := by
  intro b hb
  -- The search leaves empty arguments out, but these make no call.
  have hne : arg ≠ [] := by
    rintro rfl
    simp at hb
  have hbody : mentions param d.body = true :=
    hp.parameters d (FunctionTable.mem_of_get? hget).1 param (List.of_mem_zip hpair).1 huses
  obtain ⟨s, hs, hs'⟩ := ht a ha
  obtain ⟨s', hs', rfl⟩ := exists_searched_of_passed hs hs' hget hpair hne hnum hbody
  exact ⟨s', hs', hb⟩

namespace Reading

/-- All that a reading can lead to is searched. -/
def Watched (text : Text) (r : Reading) : Prop :=
  ∀ own, Reaches (Program.parse text).functions r own →
    own.context.functions = (Program.parse text).functions ∧ Covered text own.text

namespace Watched

variable {context caller callee : Context} {r own : Reading}

theorem refer (h : r.Watched text) (hr : Refers (Program.parse text).functions r own) :
    own.Watched text :=
  fun x hx => h x (.head hr hx)

theorem readOn (h : Watched text ⟨u, context⟩) (hpart : t <:+: u)
    (hcalls : attempts t ⊆ attempts u) : Watched text ⟨t, context⟩ := by
  intro own hown
  obtain ⟨hfunctions, hcovered⟩ := h _ .refl
  rcases reaches_of_uses (fun _ => Uses.mono hpart hcalls) hown with rfl | hown
  · exact ⟨hfunctions, fun a ha => hcovered a (hcalls ha)⟩
  · exact h own hown

theorem call (hp : (Program.parse text).Traceable) (h : Watched text ⟨t, caller⟩) {a : Attempt}
    {d : Definition} (ha : a ∈ attempts t) (hget : caller.functions.get? [a.letter] = some d)
    (hbind : d.bind a.args caller = .ok (some callee)) : Watched text ⟨d.body, callee⟩ := by
  intro own hown
  obtain ⟨hfunctions, hcovered⟩ := h _ .refl
  rw [hfunctions] at hget
  rcases reaches_of_bind ha hget hbind hown with
    rfl | ⟨param, arg, hpair, hnum, huses, rfl⟩ | hown
  · have hd : d ∈ (Program.parse text).functions := (FunctionTable.mem_of_get? hget).1
    exact ⟨(Definition.functions_of_bind hbind).trans hfunctions,
      covered_of_segment (exists_segment_of_mem_functions hd)⟩
  · exact ⟨hfunctions, covered_of_argument hp hcovered ha hget hpair hnum huses⟩
  · exact h own hown

end Watched

end Reading

end Check

/-! ### Frames -/

/-- What a frame has left to read. -/
def Frame.reading (f : Frame) : Reading := ⟨f.unread, f.context⟩

namespace Frame

variable {text : Text} {f : Frame} {c : Char} {rest : Text}

theorem watched_rest (h : f.reading.Watched text) (hu : f.unread = c :: rest)
    (hc : ¬IsCallLetter c) : (Frame.reading { f with unread := rest }).Watched text := by
  refine h.readOn (hu ▸ (List.suffix_cons c rest).isInfix) ?_
  rw [hu, attempts_cons_of_not_isCallLetter rest hc]
  exact List.Subset.refl _

theorem watched_after (h : f.reading.Watched text) (hu : f.unread = c :: rest)
    (hc : IsCallLetter c) :
    (Frame.reading { f with unread := (Call.takeArguments rest).2 }).Watched text := by
  have hsuffix := (Call.isSuffix_takeArguments_snd rest).trans (List.suffix_cons c rest)
  refine h.readOn (hu ▸ hsuffix.isInfix) ?_
  rw [hu, attempts_cons_of_isCallLetter rest hc]
  exact List.subset_cons_self _ _

/-- **One step.** The frames of a stack lead to nothing but what is searched, and so does a frame
that is entered. -/
theorem watched_transition {maxDepth : Int} {emitted : Option Instruction}
    {stack stack' : List Frame} (hp : (Program.parse text).Traceable)
    (h : ∀ f ∈ stack, f.reading.Watched text) (ht : Transition maxDepth stack emitted stack') :
    ∀ f ∈ stack', f.reading.Watched text := by
  cases ht with
  | leave => exact fun f hf => h f (List.mem_cons_of_mem _ hf)
  | @emit f below c rest i hu hi =>
    obtain ⟨hf, hbelow⟩ := List.forall_mem_cons.1 h
    have hc : ¬IsCallLetter c := fun hc => by simp [hc.2] at hi
    exact List.forall_mem_cons.2 ⟨watched_rest hf hu hc, hbelow⟩
  | skip hu _ hc =>
    obtain ⟨hf, hbelow⟩ := List.forall_mem_cons.1 h
    exact List.forall_mem_cons.2 ⟨watched_rest hf hu hc, hbelow⟩
  | undefined hu hc | drop hu hc =>
    obtain ⟨hf, hbelow⟩ := List.forall_mem_cons.1 h
    exact List.forall_mem_cons.2 ⟨watched_after hf hu hc, hbelow⟩
  | @refer f below c rest t own hu hparam hv =>
    obtain ⟨hf, hbelow⟩ := List.forall_mem_cons.1 h
    have hc : ¬IsCallLetter c := fun hc => by simp [hc.not_isParameterLetter] at hparam
    have huses : Uses (Program.parse text).functions [c] f.unread :=
      .here (mentions_iff.2 (hu ▸ (List.prefix_append [c] rest).isInfix))
    exact List.forall_mem_cons.2 ⟨hf.refer ⟨[c], huses, hv⟩,
      List.forall_mem_cons.2 ⟨watched_rest hf hu hc, hbelow⟩⟩
  | @call f below c rest d callee hu hc hd hget hbind =>
    obtain ⟨hf, hbelow⟩ := List.forall_mem_cons.1 h
    have hbody := Reading.Watched.call hp hf (mem_attempts_of_isCallLetter hu hc) hget hbind
    exact List.forall_mem_cons.2 ⟨hbody,
      List.forall_mem_cons.2 ⟨watched_after hf hu hc, hbelow⟩⟩

/-- The frame that the expansion of a program starts with. -/
theorem watched_entry (hp : (Program.parse text).Traceable) :
    (Frame.start (Program.parse text).main ⟨(Program.parse text).functions, .empty⟩ 0
      .entry).reading.Watched text := by
  intro own hown
  rcases Relation.ReflTransGen.cases_head hown with rfl | ⟨own', ⟨name, -, hv⟩, -⟩
  · exact ⟨rfl, covered_main hp⟩
  · cases hv

end Frame

/-! ### Failed look-ups -/

/-- The letter of a call that the next step looks up among the functions and does not find, if the
step makes such a call. -/
def Expansion.Moment.undefined? (maxDepth : Int) (m : Moment) : Option Char :=
  match m.stack with
  | [] => none
  | f :: _ =>
    match f.unread with
    | [] => none
    | c :: _ =>
      if isCallLetter c ∧ f.depth ≤ maxDepth ∧ f.context.functions.get? [c] = none then some c
      else none

theorem Expansion.Moment.undefined?_eq_some_iff {maxDepth : Int} {m : Moment} {c : Char} :
    m.undefined? maxDepth = some c ↔
      ∃ f below rest, m.stack = f :: below ∧ f.unread = c :: rest ∧ IsCallLetter c ∧
        f.depth ≤ maxDepth ∧ f.context.functions.get? [c] = none := by
  obtain ⟨room, stack, given⟩ := m
  cases stack with
  | nil => simp [undefined?]
  | cons f below =>
    cases hu : f.unread with
    | nil => simp [undefined?, hu]
    | cons c' rest =>
      simp only [undefined?, hu, isCallLetter_iff, Option.ite_none_right_eq_some, Option.some.injEq,
        List.cons.injEq, exists_and_left, exists_and_right, exists_eq', and_true, exists_eq_left']
      constructor
      · rintro ⟨hfails, rfl⟩
        exact ⟨rfl, hfails⟩
      · rintro ⟨rfl, hfails⟩
        exact ⟨hfails, rfl⟩

theorem Expansion.Moment.exists_undefined?_of_after {maxDepth : Int} {n : Nat} {m : Moment}
    {c : Char} (h : (m.after maxDepth n).bind (undefined? maxDepth) = some c) :
    ∃ m', m.LeadsTo maxDepth m' ∧ m'.undefined? maxDepth = some c := by
  obtain ⟨m', hm', hc⟩ := Option.bind_eq_some_iff.1 h
  exact ⟨m', leadsTo_of_after hm', hc⟩

/-- **Failed look-ups are reported.** If the calls of a program can be traced in its lines, and at
some moment of its expansion a call letter is looked up that has no definition, then the checks
report a call of that letter. -/
theorem undefined_call_reported (text : Text) (maxDepth : Int) (limit : Option Int)
    (hp : (Program.parse text).Traceable) (m : Moment)
    (h : Moment.LeadsTo maxDepth (.ofProgram (Program.parse text) limit) m) (c : Char)
    (hc : m.undefined? maxDepth = some c) :
    ∃ d ∈ Check.diagnostics text, d.message = s!"call to undefined function '{c}'" := by
  obtain ⟨f, below, rest, hstack, hu, hletter, -, hget⟩ := Moment.undefined?_eq_some_iff.1 hc
  have hwatched : f.reading.Watched text :=
    h.forall_frames (fun ht hstack => Frame.watched_transition hp hstack ht)
      (Frame.watched_entry hp) f (hstack ▸ List.mem_cons_self)
  obtain ⟨hfunctions, hcovered⟩ := hwatched _ .refl
  obtain ⟨s, hs, ha⟩ := hcovered _ (mem_attempts_of_isCallLetter hu hletter)
  obtain ⟨span, hspan⟩ := exists_undefinedCall_of_searched hs ha (hfunctions ▸ hget)
  exact ⟨_, hspan, rfl⟩

/-- The argument of `f` is looked up three frames further down: `g` refers to a fragment of `f`, and
the fragment to the argument. -/
theorem undefined_call_reported_nested :
    let text := "f(A):g(lA)\ng(B):B\nf(x)".toList
    (∃ m, Moment.LeadsTo 9 (.ofProgram (Program.parse text) none) m ∧
      m.undefined? 9 = some 'x') ∧
      ∃ d ∈ Check.diagnostics text, d.message = "call to undefined function 'x'" := by
  intro text
  have hmain : ∃ m ∈ (Program.parse text).mainLines, m.text = (Program.parse text).main := by decide
  have hbody : ∀ d ∈ (Program.parse text).functions, ∀ param ∈ d.params,
      mentions param d.body = true := by decide
  have hp : (Program.parse text).Traceable := by
    obtain ⟨m, hm, hmain⟩ := hmain
    exact ⟨fun a ha => ⟨m, hm, hmain ▸ ha⟩, fun d hd param hparam _ => hbody d hd param hparam⟩
  have hlookup : ((Moment.ofProgram (Program.parse text) none).after 9 5).bind
      (Moment.undefined? 9) = some 'x' := by decide
  obtain ⟨m, hm, hc⟩ := Moment.exists_undefined?_of_after hlookup
  exact ⟨⟨m, hm, hc⟩, undefined_call_reported text 9 none hp m hm 'x' hc⟩

/-- **Unreported look-ups.** In the first program the body of `f` does not have the parameter `A`,
and `g`, which has it, inherits the argument. In the second, the argument list of `f` runs on over
the end of its line: joined, its arguments are `g(s` and `y)`, but the second line alone passes `y`
to `g`, which ignores it. -/
theorem undefined_call_unreported :
    (let text := "f(A):g\ng:A\nf(x)".toList;
      (∃ m, Moment.LeadsTo 9 (.ofProgram (Program.parse text) none) m ∧
        m.undefined? 9 = some 'x') ∧ Check.diagnostics text = []) ∧
    (let text := "f(A,B):AB\ng(C):C\nf(\ng(s,y))".toList;
      (∃ m, Moment.LeadsTo 9 (.ofProgram (Program.parse text) none) m ∧
        m.undefined? 9 = some 'y') ∧
      (Check.diagnostics text).map (·.message) = ["'f' takes 2 argument(s) but 0 given"]) := by
  refine ⟨⟨?_, by decide +kernel⟩, ⟨?_, by decide +kernel⟩⟩
  · exact Moment.exists_undefined?_of_after (n := 3) (by decide)
  · exact Moment.exists_undefined?_of_after (n := 9) (by decide)

end RobotMaze
