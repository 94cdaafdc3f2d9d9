import Mathlib.Logic.Relation
import RobotMaze.Proofs.Expansion.Limits

/-!
# The moments of an expansion

What an expansion gives says little about how it gets there. This file is about the way: the stacks
that the expander goes through, from the frame that it starts with to the one where it stops.

## Transitions

`Transition` lists what a step can do to a stack, one rule for each thing that can happen, with
everything that is known when it does. It is the step function read as a relation
(`step_eq_next_iff`), and what every step preserves is proved by cases on it.

## Moments

A `Moment` is all that the loop carries from one iteration to the next: the room that the limit
leaves, the stack, and the instructions given so far. One moment leads to another if the loop passes
from the first to the second, and a limit ends the moments where it ends the run. Every moment of a
run gives what the run gives (`Moment.LeadsTo.run_eq`), so these are the moments of *that* run.

## Main results

* `step_eq_next_iff` — the step function and the rules say the same
* `Moment.LeadsTo.invariant` — what every step preserves holds at every moment
* `Moment.LeadsTo.forall_frames` — the same for what holds of each frame
* `Moment.leadsTo_of_after` — moments can be worked out by running the loop
-/

namespace RobotMaze

namespace Expansion

variable {maxDepth : Int} {emitted : Option Instruction} {stack stack' : List Frame}

/-! ### What a step can do -/

/-- A step leads from the first stack to the second, and gives an instruction or none. -/
inductive Transition (maxDepth : Int) : List Frame → Option Instruction → List Frame → Prop
  /-- A frame that is read to its end is removed. -/
  | leave {f : Frame} {below : List Frame} (hu : f.unread = []) :
      Transition maxDepth (f :: below) none below
  /-- A primitive letter is given. -/
  | emit {f : Frame} {below : List Frame} {c : Char} {rest : Text} {i : Instruction}
      (hu : f.unread = c :: rest) (hi : Instruction.ofLetter? c = some i) :
      Transition maxDepth (f :: below) (some i) ({ f with unread := rest } :: below)
  /-- A character is skipped that calls nothing and is bound to no fragment. -/
  | skip {f : Frame} {below : List Frame} {c : Char} {rest : Text} (hu : f.unread = c :: rest)
      (hi : Instruction.ofLetter? c = none) (hc : ¬IsCallLetter c)
      (hv : isParameterLetter c = true →
        ∀ t own, f.context.scope.get? [c] ≠ some (.fragment t own)) :
      Transition maxDepth (f :: below) none ({ f with unread := rest } :: below)
  /-- The text of a fragment is entered, in the context of the fragment. -/
  | refer {f : Frame} {below : List Frame} {c : Char} {rest t : Text} {own : Context}
      (hu : f.unread = c :: rest) (hp : isParameterLetter c = true)
      (hv : f.context.scope.get? [c] = some (.fragment t own)) :
      Transition maxDepth (f :: below) none
        (.start t own f.depth .reference :: { f with unread := rest } :: below)
  /-- A call of a function without a definition has no effect. -/
  | undefined {f : Frame} {below : List Frame} {c : Char} {rest : Text} (hu : f.unread = c :: rest)
      (hc : IsCallLetter c) (hd : f.depth ≤ maxDepth)
      (hget : f.context.functions.get? [c] = none) :
      Transition maxDepth (f :: below) none
        ({ f with unread := (Call.takeArguments rest).2 } :: below)
  /-- A call with an argument that is not positive has no effect. -/
  | drop {f : Frame} {below : List Frame} {c : Char} {rest : Text} {d : Definition}
      (hu : f.unread = c :: rest) (hc : IsCallLetter c) (hd : f.depth ≤ maxDepth)
      (hget : f.context.functions.get? [c] = some d)
      (hbind : d.bind (Call.arguments (Call.takeArguments rest).1) f.context = .ok none) :
      Transition maxDepth (f :: below) none
        ({ f with unread := (Call.takeArguments rest).2 } :: below)
  /-- The body of a function is entered, one level down. -/
  | call {f : Frame} {below : List Frame} {c : Char} {rest : Text} {d : Definition}
      {callee : Context} (hu : f.unread = c :: rest) (hc : IsCallLetter c)
      (hd : f.depth ≤ maxDepth) (hget : f.context.functions.get? [c] = some d)
      (hbind : d.bind (Call.arguments (Call.takeArguments rest).1) f.context =
        .ok (some callee)) :
      Transition maxDepth (f :: below) none
        (.start d.body callee (f.depth + 1) .call ::
          { f with unread := (Call.takeArguments rest).2 } :: below)

theorem ofLetter?_of_isParameterLetter {c : Char} (h : isParameterLetter c = true) :
    Instruction.ofLetter? c = none := by
  cases hi : Instruction.ofLetter? c with
  | none => rfl
  | some i =>
    rw [← Instruction.letter_of_ofLetter? hi] at h
    cases i <;> cases h

/-- A step that reads a call letter makes one of the three transitions of calls. -/
theorem transition_of_isCallLetter {f : Frame} {below : List Frame} {c : Char} {rest : Text}
    (hu : f.unread = c :: rest) (hc : IsCallLetter c)
    (h : step maxDepth (f :: below) = .next emitted stack') :
    Transition maxDepth (f :: below) emitted stack' := by
  simp only [step, hu, Frame.read_of_isCallLetter hc] at h
  by_cases hd : maxDepth < f.depth
  · simp [Frame.call_of_lt hd, Except.map] at h
  have hd : f.depth ≤ maxDepth := Int.not_lt.1 hd
  rw [Frame.call, if_neg (Int.not_lt.2 hd)] at h
  cases hget : f.context.functions.get? [c] with
  | none =>
    simp only [hget, Except.map, Step.next.injEq] at h
    obtain ⟨rfl, rfl⟩ := h
    exact .undefined hu hc hd hget
  | some d =>
    simp only [hget] at h
    cases hbind : d.bind (Call.arguments (Call.takeArguments rest).1) f.context with
    | error e => simp [hbind, Except.map] at h
    | ok callee =>
      cases callee with
      | none =>
        simp only [hbind, Except.map, Step.next.injEq] at h
        obtain ⟨rfl, rfl⟩ := h
        exact .drop hu hc hd hget hbind
      | some callee =>
        simp only [hbind, Except.map, Step.next.injEq] at h
        obtain ⟨rfl, rfl⟩ := h
        exact .call hu hc hd hget hbind

/-- A step that reads another character emits it, refers to a fragment or skips it. -/
theorem transition_of_not_isCallLetter {f : Frame} {below : List Frame} {c : Char} {rest : Text}
    (hu : f.unread = c :: rest) (hc : ¬IsCallLetter c)
    (h : step maxDepth (f :: below) = .next emitted stack') :
    Transition maxDepth (f :: below) emitted stack' := by
  simp only [step, hu] at h
  cases hi : Instruction.ofLetter? c with
  | some i =>
    simp only [Frame.read, hi, Step.next.injEq] at h
    obtain ⟨rfl, rfl⟩ := h
    exact .emit hu hi
  | none =>
    have hl : isFunctionLetter c = false := Bool.eq_false_iff.2 fun hl => hc ⟨hl, hi⟩
    by_cases hp : isParameterLetter c = true
    · cases hv : f.context.scope.get? [c] with
      | none =>
        simp only [Frame.read, hi, hp, hv, if_true, Step.next.injEq] at h
        obtain ⟨rfl, rfl⟩ := h
        exact .skip hu hi hc (by simp [hv])
      | some v =>
        cases v with
        | datum v =>
          simp only [Frame.read, hi, hp, hv, if_true, Step.next.injEq] at h
          obtain ⟨rfl, rfl⟩ := h
          exact .skip hu hi hc (by simp [hv])
        | fragment t own =>
          simp only [Frame.read, hi, hp, hv, if_true, Step.next.injEq] at h
          obtain ⟨rfl, rfl⟩ := h
          exact .refer hu hp hv
    · simp only [Frame.read, hi, hp, hl] at h
      obtain ⟨rfl, rfl⟩ := h
      exact .skip hu hi hc (fun hp' => absurd hp' hp)

/-- **Steps are transitions.** -/
theorem step_eq_next_iff :
    step maxDepth stack = .next emitted stack' ↔ Transition maxDepth stack emitted stack' := by
  constructor
  · intro h
    cases stack with
    | nil => cases h
    | cons f below =>
      cases hu : f.unread with
      | nil =>
        simp only [step, hu, Step.next.injEq] at h
        obtain ⟨rfl, rfl⟩ := h
        exact .leave hu
      | cons c rest =>
        by_cases hc : IsCallLetter c
        · exact transition_of_isCallLetter hu hc h
        · exact transition_of_not_isCallLetter hu hc h
  · intro h
    cases h with
    | leave hu => simp only [step, hu]
    | emit hu hi => simp only [step, hu, Frame.read, hi]
    | @skip f below c rest hu hi hc hv =>
      have hl : isFunctionLetter c = false := Bool.eq_false_iff.2 fun hl => hc ⟨hl, hi⟩
      by_cases hp : isParameterLetter c = true
      · cases hs : f.context.scope.get? [c] with
        | none => simp [step, hu, Frame.read, hi, hp, hs]
        | some v =>
          cases v with
          | datum v => simp [step, hu, Frame.read, hi, hp, hs]
          | fragment t own => exact absurd hs (hv hp t own)
      · simp [step, hu, Frame.read, hi, hp, hl]
    | refer hu hp hv =>
      simp [step, hu, Frame.read, ofLetter?_of_isParameterLetter hp, hp, hv]
    | undefined hu hc hd hget =>
      simp [step, hu, Frame.read_of_isCallLetter hc, Frame.call, Int.not_lt.2 hd, hget, Except.map]
    | drop hu hc hd hget hbind =>
      simp [step, hu, Frame.read_of_isCallLetter hc, Frame.call, Int.not_lt.2 hd, hget, hbind,
        Except.map]
    | call hu hc hd hget hbind =>
      simp [step, hu, Frame.read_of_isCallLetter hc, Frame.call, Int.not_lt.2 hd, hget, hbind,
        Except.map]

/-! ### Moments -/

/-- A moment of a run: how many instructions may still be given, if there is a limit, the stack, and
the instructions given already, the last one first. -/
structure Moment where
  room : Option Nat
  stack : List Frame
  given : List Instruction
deriving DecidableEq, Repr

namespace Moment

/-- The moment at which an expansion starts. -/
def entry (limit : Option Int) (context : Context) (depth : Int) (text : Text) : Moment :=
  ⟨limit.map Int.toNat, [.start text context depth .entry], []⟩

/-- What the run gives that goes on from a moment. -/
def run (maxDepth : Int) (m : Moment) : Expansion :=
  Expansion.run maxDepth m.room m.stack m.given

@[simp] theorem run_entry (limit : Option Int) (context : Context) (depth : Int) (text : Text) :
    (entry limit context depth text).run maxDepth = expand maxDepth limit context depth text := rfl

/-- The moment at which the expansion of a program starts. -/
def ofProgram (p : Program) (limit : Option Int) : Moment :=
  entry limit ⟨p.functions, .empty⟩ 0 p.main

@[simp] theorem run_ofProgram (p : Program) (limit : Option Int) :
    (ofProgram p limit).run maxDepth = p.expand maxDepth limit := rfl

/-- The moment after the next step. There is none if no room is left, or if the step finishes or
fails. -/
def next? (maxDepth : Int) (m : Moment) : Option Moment :=
  if m.room = some 0 then none
  else match step maxDepth m.stack with
    | .next emitted stack =>
      some ⟨m.room.map (· - emitted.toList.length), stack, emitted.toList ++ m.given⟩
    | _ => none

theorem transition_of_next? {m m' : Moment} (h : m.next? maxDepth = some m') :
    m.room ≠ some 0 ∧ ∃ emitted, Transition maxDepth m.stack emitted m'.stack ∧
      m'.room = m.room.map (· - emitted.toList.length) ∧ m'.given = emitted.toList ++ m.given := by
  unfold next? at h
  split at h
  · cases h
  · rename_i hr
    split at h
    · rename_i emitted stack hs
      cases h
      exact ⟨hr, emitted, step_eq_next_iff.1 hs, rfl, rfl⟩
    · cases h

/-- The loop passes from the first moment to the second. -/
def LeadsTo (maxDepth : Int) : Moment → Moment → Prop :=
  Relation.ReflTransGen fun m m' => m.next? maxDepth = some m'

/-- Every moment of a run gives what the run gives. -/
theorem LeadsTo.run_eq {m m' : Moment} (h : LeadsTo maxDepth m m') :
    m'.run maxDepth = m.run maxDepth := by
  induction h with
  | refl => rfl
  | @tail m₁ m₂ _ hnext ih =>
    obtain ⟨hr, emitted, ht, hroom, hgiven⟩ := transition_of_next? hnext
    rw [← ih, run, run, run_of_next hr (step_eq_next_iff.2 ht), hroom, hgiven]

/-- **Invariants.** What every transition preserves holds at every moment of a run, if it holds at
the first. -/
theorem LeadsTo.invariant {P : List Frame → Prop} {m m' : Moment}
    (hstep : ∀ {stack emitted stack'}, Transition maxDepth stack emitted stack' →
      P stack → P stack')
    (h : LeadsTo maxDepth m m') (hm : P m.stack) : P m'.stack := by
  induction h with
  | refl => exact hm
  | tail _ hnext ih =>
    obtain ⟨-, emitted, ht, -, -⟩ := transition_of_next? hnext
    exact hstep ht ih

/-- What every transition preserves of the frames holds of all frames at every moment of an
expansion, if it holds of the frame that the expansion starts with. -/
theorem LeadsTo.forall_frames {P : Frame → Prop} {limit : Option Int} {context : Context}
    {depth : Int} {text : Text} {m : Moment}
    (hstep : ∀ {stack emitted stack'}, Transition maxDepth stack emitted stack' →
      (∀ f ∈ stack, P f) → ∀ f ∈ stack', P f)
    (h : LeadsTo maxDepth (entry limit context depth text) m)
    (hentry : P (.start text context depth .entry)) : ∀ f ∈ m.stack, P f := by
  refine h.invariant (P := fun stack => ∀ f ∈ stack, P f) hstep ?_
  intro f hf
  rw [List.mem_singleton.1 hf]
  exact hentry

/-- The moment after some steps, if the run goes on for that long. -/
def after (maxDepth : Int) : Nat → Moment → Option Moment
  | 0, m => some m
  | n + 1, m => (m.next? maxDepth).bind (after maxDepth n)

theorem leadsTo_of_after {n : Nat} {m m' : Moment} (h : m.after maxDepth n = some m') :
    LeadsTo maxDepth m m' := by
  induction n generalizing m with
  | zero =>
    cases h
    exact .refl
  | succ n ih =>
    obtain ⟨m₁, hnext, h⟩ := Option.bind_eq_some_iff.1 h
    exact .head hnext (ih h)

end Moment

end Expansion

end RobotMaze
