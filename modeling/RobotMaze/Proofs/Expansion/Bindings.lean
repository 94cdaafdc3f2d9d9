import RobotMaze.Proofs.Expansion.Moments
import RobotMaze.Proofs.Program.Table
import RobotMaze.Proofs.Text.Parts

/-!
# What names are bound to

While a program expands, contexts are made by calls and kept by fragments. A frame has a context,
its scope binds names to fragments, each of these has a context of its own, and so on to any depth.
This file says what all of these contexts look like: where their names, their numbers and their
fragments come from.

## How contexts come about

A call is the only step that makes a context. `Definition.get?_of_bind` says what it binds: a name
keeps what the caller bound it to, or it is a parameter and bound to what its argument stands for
(`Definition.Binds`). A fragment that is bound here has the context of the caller. So whatever is
reached from the context of the callee is the callee's own context, or reached from the caller's
(`Context.reaches_of_bind`), and nothing has to be shown about contexts that are further away.

## Main results

* `Definition.get?_of_bind` — the scope of a callee
* `Frame.OfProgram.transition` — every step keeps to the text of the program
* `contexts_of_program` — all contexts of an expansion
-/

namespace RobotMaze

open Text Expansion

/-! ### The scope of a callee -/

namespace Definition

variable {caller callee : Context} {pairs : List (Name × Text)} {scope : Scope} {name : Name}
  {v : Value}

/-- What an argument of a call stands for: a positive number, or program text to be read in the
context of the caller. -/
inductive Binds (caller : Context) (arg : Text) : Value → Prop
  | number {n : Int} (ha : Expression.isNumeric arg = true)
      (hn : Expression.evaluate caller.scope arg = .ok n) (hpos : 0 < n) :
      Binds caller arg (.datum (.number n))
  | fragment (ha : Expression.isNumeric arg = false) : Binds caller arg (.fragment arg caller)

theorem exists_binds_of_bindPairs {param : Name} {arg : Text}
    (h : bindPairs caller ((param, arg) :: pairs) scope = .ok (some callee)) :
    ∃ v, Binds caller arg v ∧
      bindPairs caller pairs (scope.insert param v) = .ok (some callee) := by
  rw [bindPairs] at h
  split at h
  · rename_i ha
    split at h
    · cases h
    · rename_i n hn
      split at h
      · cases h
      · rename_i hpos
        exact ⟨_, .number ha hn (Int.not_le.1 hpos), h⟩
  · rename_i ha
    exact ⟨_, .fragment (Bool.eq_false_iff.2 ha), h⟩

theorem get?_of_bindPairs (h : bindPairs caller pairs scope = .ok (some callee))
    (hv : callee.scope.get? name = some v) :
    name ∉ pairs.map Prod.fst ∧ scope.get? name = some v ∨
      ∃ arg, (name, arg) ∈ pairs ∧ Binds caller arg v := by
  induction pairs generalizing scope with
  | nil =>
    cases h
    exact .inl ⟨List.not_mem_nil, hv⟩
  | cons pair pairs ih =>
    obtain ⟨param, arg⟩ := pair
    obtain ⟨w, hw, h⟩ := exists_binds_of_bindPairs h
    rcases ih h with ⟨hnot, hget⟩ | ⟨arg', harg', hv'⟩
    · rw [Scope.get?_insert] at hget
      split at hget
      · rename_i hname
        cases hget
        exact .inr ⟨arg, hname ▸ List.mem_cons_self, hw⟩
      · rename_i hname
        refine .inl ⟨?_, hget⟩
        simpa [Ne.symm hname] using hnot
    · exact .inr ⟨arg', List.mem_cons_of_mem _ harg', hv'⟩

theorem functions_of_bindPairs (h : bindPairs caller pairs scope = .ok (some callee)) :
    callee.functions = caller.functions := by
  induction pairs generalizing scope with
  | nil =>
    cases h
    rfl
  | cons pair pairs ih =>
    obtain ⟨w, -, h⟩ := exists_binds_of_bindPairs h
    exact ih h

variable {d : Definition} {args : List Text}

/-- The body of a function can call what the caller can. -/
theorem functions_of_bind (h : d.bind args caller = .ok (some callee)) :
    callee.functions = caller.functions :=
  functions_of_bindPairs h

/-- **The scope of a callee.** A name has the value that the caller bound it to, or it is a
parameter and bound to what its argument stands for. -/
theorem get?_of_bind (h : d.bind args caller = .ok (some callee))
    (hv : callee.scope.get? name = some v) :
    name ∉ (d.params.zip args).map Prod.fst ∧ caller.scope.get? name = some v ∨
      ∃ arg, (name, arg) ∈ d.params.zip args ∧ Binds caller arg v :=
  get?_of_bindPairs h hv

end Definition

/-! ### Contexts within contexts -/

namespace Context

/-- The second context is the context of a fragment that is bound in the first. -/
def Refers (c own : Context) : Prop := ∃ name t, c.scope.get? name = some (.fragment t own)

/-- The second context is reached from the first through any number of fragments. -/
def Reaches : Context → Context → Prop := Relation.ReflTransGen Refers

/-- From the context of a callee nothing new is reached but that context itself. -/
theorem reaches_of_bind {d : Definition} {args : List Text} {caller callee c : Context}
    (hbind : d.bind args caller = .ok (some callee)) (h : callee.Reaches c) :
    c = callee ∨ caller.Reaches c := by
  rcases Relation.ReflTransGen.cases_head h with rfl | ⟨own, ⟨name, t, hv⟩, h⟩
  · exact .inl rfl
  · refine .inr ?_
    obtain ⟨-, hv⟩ | ⟨arg, -, hv⟩ := Definition.get?_of_bind hbind hv
    · exact .head ⟨name, t, hv⟩ h
    · cases hv
      exact h

end Context

/-! ### The text of a program -/

namespace Program

/-- A text stands, in one piece, in the main program or in the body of a function. -/
def Holds (p : Program) (t : Text) : Prop := t <:+: p.main ∨ ∃ d ∈ p.functions, t <:+: d.body

theorem Holds.of_infix {p : Program} {t u : Text} (h : p.Holds u) (ht : t <:+: u) : p.Holds t := by
  rcases h with h | ⟨d, hd, h⟩
  · exact .inl (ht.trans h)
  · exact .inr ⟨d, hd, ht.trans h⟩

/-- A text of the program that can be an instruction argument. -/
structure IsFragment (p : Program) (t : Text) : Prop where
  trimmed : trim t = t
  noComma : ',' ∉ t
  notNumeric : Expression.isNumeric t = false
  held : p.Holds t

/-- What names can be bound to while the program expands. -/
def Admits (p : Program) : Value → Prop
  | .datum (.number n) => 1 ≤ n
  | .datum _ => False
  | .fragment t _ => p.IsFragment t

/-- An argument of a call that stands in the program binds its parameter to what the program
admits. -/
theorem admits_of_binds {p : Program} {caller : Context} {rest arg : Text} {v : Value}
    (hheld : p.Holds rest) (harg : arg ∈ Call.arguments (Call.takeArguments rest).1)
    (hv : Definition.Binds caller arg v) : p.Admits v := by
  obtain ⟨htrim, hcomma, hpart⟩ := Call.of_mem_arguments harg
  cases hv with
  | number _ _ hpos => exact hpos
  | fragment ha =>
    exact ⟨htrim, hcomma, ha, hheld.of_infix (hpart.trans (Call.isInfix_takeArguments_fst rest))⟩

end Program

/-- A context that can arise while a program expands: it has the functions of the program, and binds
parameters to what the program admits. -/
structure Context.OfProgram (p : Program) (c : Context) : Prop where
  functions : c.functions = p.functions
  bindings : ∀ name v, c.scope.get? name = some v →
    (∃ d ∈ p.functions, name ∈ d.params) ∧ p.Admits v

theorem Context.OfProgram.bind {p : Program} {caller callee : Context} {d : Definition}
    {rest : Text} (h : caller.OfProgram p) (hheld : p.Holds rest) (hd : d ∈ p.functions)
    (hbind : d.bind (Call.arguments (Call.takeArguments rest).1) caller = .ok (some callee)) :
    callee.OfProgram p := by
  refine ⟨(Definition.functions_of_bind hbind).trans h.functions, fun name v hv => ?_⟩
  obtain ⟨-, hv⟩ | ⟨arg, hpair, hv⟩ := Definition.get?_of_bind hbind hv
  · exact h.bindings name v hv
  · obtain ⟨hname, harg⟩ := List.of_mem_zip hpair
    exact ⟨⟨d, hd, hname⟩, Program.admits_of_binds hheld harg hv⟩

/-! ### Frames -/

/-- A frame that can arise while a program expands. -/
structure Frame.OfProgram (p : Program) (f : Frame) : Prop where
  text : f.text = p.main ∨ (∃ d ∈ p.functions, f.text = d.body) ∨ p.IsFragment f.text
  unread : f.unread <:+ f.text
  contexts : ∀ c, f.context.Reaches c → c.OfProgram p

namespace Frame.OfProgram

variable {p : Program} {f : Frame} {c : Char} {rest : Text}

theorem held (h : f.OfProgram p) : p.Holds f.text := by
  rcases h.text with htext | ⟨d, hd, htext⟩ | htext
  · exact .inl (htext ▸ List.infix_rfl)
  · exact .inr ⟨d, hd, htext ▸ List.infix_rfl⟩
  · exact htext.held

/-- What is left to read is text of the program. -/
theorem held_rest (h : f.OfProgram p) (hu : f.unread = c :: rest) : p.Holds rest := by
  have hrest : rest <:+ f.text := (List.suffix_cons c rest).trans (hu ▸ h.unread)
  exact h.held.of_infix hrest.isInfix

theorem readOn (h : f.OfProgram p) (hu : f.unread = c :: rest) {after : Text}
    (hafter : after <:+ rest) : OfProgram p { f with unread := after } :=
  ⟨h.text, (hafter.trans (List.suffix_cons c rest)).trans (hu ▸ h.unread), h.contexts⟩

theorem refer (h : f.OfProgram p) {t : Text} {own : Context}
    (hv : f.context.scope.get? [c] = some (.fragment t own)) :
    OfProgram p (.start t own f.depth .reference) :=
  ⟨.inr (.inr ((h.contexts _ .refl).bindings _ _ hv).2), List.suffix_rfl,
    fun c' hc' => h.contexts c' (.head ⟨_, t, hv⟩ hc')⟩

theorem call (h : f.OfProgram p) (hu : f.unread = c :: rest) {d : Definition} {callee : Context}
    (hget : f.context.functions.get? [c] = some d)
    (hbind : d.bind (Call.arguments (Call.takeArguments rest).1) f.context = .ok (some callee)) :
    OfProgram p (.start d.body callee (f.depth + 1) .call) := by
  have hown := h.contexts _ .refl
  rw [hown.functions] at hget
  have hd : d ∈ p.functions := (FunctionTable.mem_of_get? hget).1
  refine ⟨.inr (.inl ⟨d, hd, rfl⟩), List.suffix_rfl, fun c' hc' => ?_⟩
  rcases Context.reaches_of_bind hbind hc' with rfl | hc'
  · exact hown.bind (h.held_rest hu) hd hbind
  · exact h.contexts c' hc'

/-- **One step.** The frames of a stack keep to the text of the program, and so does a frame that is
entered. -/
theorem transition {maxDepth : Int} {emitted : Option Instruction} {stack stack' : List Frame}
    (h : ∀ f ∈ stack, f.OfProgram p) (ht : Transition maxDepth stack emitted stack') :
    ∀ f ∈ stack', f.OfProgram p := by
  cases ht with
  | leave => exact fun f hf => h f (List.mem_cons_of_mem _ hf)
  | emit hu | skip hu =>
    obtain ⟨hf, hbelow⟩ := List.forall_mem_cons.1 h
    exact List.forall_mem_cons.2 ⟨hf.readOn hu List.suffix_rfl, hbelow⟩
  | undefined hu | drop hu =>
    obtain ⟨hf, hbelow⟩ := List.forall_mem_cons.1 h
    exact List.forall_mem_cons.2 ⟨hf.readOn hu (Call.isSuffix_takeArguments_snd _), hbelow⟩
  | refer hu _ hv =>
    obtain ⟨hf, hbelow⟩ := List.forall_mem_cons.1 h
    exact List.forall_mem_cons.2 ⟨hf.refer hv,
      List.forall_mem_cons.2 ⟨hf.readOn hu List.suffix_rfl, hbelow⟩⟩
  | call hu _ _ hget hbind =>
    obtain ⟨hf, hbelow⟩ := List.forall_mem_cons.1 h
    exact List.forall_mem_cons.2 ⟨hf.call hu hget hbind,
      List.forall_mem_cons.2 ⟨hf.readOn hu (Call.isSuffix_takeArguments_snd _), hbelow⟩⟩

/-- The frame that the expansion of a program starts with. -/
theorem entry (p : Program) : OfProgram p (.start p.main ⟨p.functions, .empty⟩ 0 .entry) := by
  refine ⟨.inl rfl, List.suffix_rfl, fun c hc => ?_⟩
  rcases Relation.ReflTransGen.cases_head hc with rfl | ⟨own, ⟨name, t, hv⟩, -⟩
  · exact ⟨rfl, fun name v hv => by cases hv⟩
  · cases hv

end Frame.OfProgram

/-- **The contexts of an expansion.** At every moment of the expansion of a program text, every
frame is for the main program, for the body of a function, or for an instruction argument. In its
context, and in every context that is reached from there through fragments, names are upper-case
letters and parameters of functions, numbers are positive, and fragments are instruction arguments:
trimmed, without a comma, not numeric, and in one piece in the main program or in a body. -/
theorem contexts_of_program (text : Text) (maxDepth : Int) (limit : Option Int) (m : Moment)
    (h : Moment.LeadsTo maxDepth (.ofProgram (Program.parse text) limit) m) (f : Frame)
    (hf : f ∈ m.stack) :
    let p := Program.parse text
    (f.text = p.main ∨ (∃ d ∈ p.functions, f.text = d.body) ∨ p.IsFragment f.text) ∧
      ∀ c, f.context.Reaches c → ∀ name v, c.scope.get? name = some v →
        (∃ letter, name = [letter] ∧ ('A' ≤ letter ∧ letter ≤ 'Z') ∧
          ∃ d ∈ p.functions, name ∈ d.params) ∧ p.Admits v := by
  intro p
  have hframe : f.OfProgram p :=
    h.forall_frames (fun ht hstack => Frame.OfProgram.transition hstack ht) (.entry p) f hf
  refine ⟨hframe.text, fun c hc name v hv => ?_⟩
  obtain ⟨⟨d, hd, hname⟩, hadmits⟩ := (hframe.contexts c hc).bindings name v hv
  obtain ⟨letter, rfl, hletter⟩ := Program.letter_of_mem_functions hd name hname
  exact ⟨⟨letter, rfl, by simpa [isParameterLetter] using hletter, d, hd, hname⟩, hadmits⟩

/-- A fragment within a fragment. The frame on top is for an argument of `g` that stands in the body
of `f`, with white space around it and up to the end of the body, since its list is not closed. In
its context there is the argument of `f`. -/
theorem contexts_of_program_nested :
    let p := Program.parse "f(A):g( lA\ng(C):C\nf(s,r)".toList
    let own : Context := ⟨p.functions, .empty⟩
    ∃ m f, Moment.LeadsTo 9 (.ofProgram p none) m ∧ f ∈ m.stack ∧ f.text = "lA".toList ∧
      f.context.scope.get? ['A'] = some (.fragment ['s'] own) ∧
      (∃ d ∈ p.functions, ['A'] ∈ d.params) ∧ p.IsFragment ['s'] := by
  intro p own
  have hafter : ((Moment.ofProgram p none).after 9 3).bind
      (fun m => m.stack.head?.map fun f => (f.text, f.context.scope.get? ['A'])) =
        some ("lA".toList, some (.fragment ['s'] own)) := by decide
  obtain ⟨m, hm, hhead⟩ := Option.bind_eq_some_iff.1 hafter
  obtain ⟨f, hf, hframe⟩ := Option.map_eq_some_iff.1 hhead
  obtain ⟨htext, hbound⟩ := Prod.mk.inj hframe
  have hlead := Moment.leadsTo_of_after hm
  have hmem : f ∈ m.stack := List.mem_of_head? hf
  obtain ⟨⟨letter, -, -, hparam⟩, hadmits⟩ :=
    (contexts_of_program _ 9 none m hlead f hmem).2 f.context .refl _ _ hbound
  exact ⟨m, f, hlead, hmem, htext, hbound, hparam, hadmits⟩

end RobotMaze
