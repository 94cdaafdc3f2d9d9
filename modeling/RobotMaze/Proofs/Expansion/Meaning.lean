import RobotMaze.Program.Meaning
import RobotMaze.Proofs.Program.Parentheses

/-!
# The expander computes the meaning of a text

`Expansion.run` works on a stack of half-read frames; `meaning` is a recursion over the text and has
no stack. Both give the same instructions and the same failure.

## What a stack owes

A stack of frames has still to give the meaning of what each frame has not read, each in its own
context and at its own depth, the frame on top first. This is `owed`. It is the invariant that ties
the two together: a step gives a part of what is owed and leaves the rest (`owed_eq_owed_step`). A
fragment that goes back to an older context, at the depth of the frame that refers to it, needs no
care of its own, because every frame on the stack carries its context and its depth.

## Limits

A limit on the number of instructions is tested before each step, and all it does is to cut
(`Expansion.cut`). The run lemma `run_eq_cut_owed` has it built in, so that what holds with a limit
and what holds without one come from a single induction.

## Main results

* `Expansion.owed_eq_owed_step` — what one step does to what is owed
* `Expansion.run_eq_cut_owed` — what a run from any stack gives
* `expand_eq_cut_meaning` — expansion is the meaning of the text, cut at the limit
* `result_expand_iff_meaning` — without a limit, the same instructions or the same failure
* `Call.takeArguments_eq_closingParen?` — argument lists end where `Call.closingParen?` says
-/

namespace RobotMaze

namespace Expansion

variable {maxDepth : Int}

@[simp] theorem ok_andThen (is : List Instruction) (e : Expansion) :
    andThen ⟨is, none⟩ e = ⟨is ++ e.instructions, e.failure⟩ := rfl

@[simp] theorem failed_andThen (is : List Instruction) (failure : ExpansionError) (e : Expansion) :
    andThen ⟨is, some failure⟩ e = ⟨is, some failure⟩ := rfl

/-! ### Cutting at a limit -/

/-- An expansion that is stopped as soon as `room` instructions have been given. A failure after
the last of them does not happen any more. -/
def cut (room : Option Nat) (e : Expansion) : Expansion :=
  match room with
  | none => e
  | some n => if n ≤ e.instructions.length then ⟨e.instructions.take n, none⟩ else e

@[simp] theorem cut_none (e : Expansion) : e.cut none = e := rfl

theorem cut_of_le {n : Nat} {e : Expansion} (h : n ≤ e.instructions.length) :
    e.cut (some n) = ⟨e.instructions.take n, none⟩ := if_pos h

theorem cut_of_lt {n : Nat} {e : Expansion} (h : e.instructions.length < n) :
    e.cut (some n) = e := if_neg (Nat.not_le.2 h)

/-- What does not fail is cut to its first instructions, be they enough or not. -/
theorem cut_ok (n : Nat) (w : List Instruction) : cut (some n) ⟨w, none⟩ = ⟨w.take n, none⟩ := by
  rcases Nat.lt_or_ge w.length n with h | h
  · rw [cut_of_lt h, List.take_of_length_le (Nat.le_of_lt h)]
  · exact cut_of_le h

@[simp] theorem cut_zero (e : Expansion) : e.cut (some 0) = nothing := by
  simp [cut_of_le, nothing]

@[simp] theorem cut_nothing (room : Option Nat) : nothing.cut room = nothing := by
  cases room with
  | none => rfl
  | some n => simp [nothing, cut_ok]

/-- A failure before any instruction is met, unless the limit is already reached. -/
theorem cut_failed {room : Option Nat} (h : room ≠ some 0) (failure : ExpansionError) :
    cut room ⟨[], some failure⟩ = ⟨[], some failure⟩ := by
  cases room with
  | none => rfl
  | some n =>
    have hn : n ≠ 0 := fun h0 => h (h0 ▸ rfl)
    exact cut_of_lt (Nat.pos_of_ne_zero hn)

/-- An instruction takes one place of the room that is left. -/
theorem cut_emitted {room : Option Nat} (h : room ≠ some 0) (i : Instruction) (e : Expansion) :
    (andThen ⟨[i], none⟩ e).cut room = andThen ⟨[i], none⟩ (e.cut (room.map (· - 1))) := by
  cases room with
  | none => rfl
  | some n =>
    obtain ⟨m, rfl⟩ : ∃ m, n = m + 1 := Nat.exists_eq_succ_of_ne_zero fun h0 => h (h0 ▸ rfl)
    by_cases hm : m ≤ e.instructions.length <;> simp [cut, hm]

/-! ### What a stack owes -/

/-- What a stack of frames has still to give. -/
def owed (maxDepth : Int) : List Frame → Expansion
  | [] => nothing
  | f :: below => (meaning maxDepth f.unread f.context f.depth).andThen (owed maxDepth below)

/-- What a step gives, and what the stack after it owes. -/
def Step.owed (maxDepth : Int) : Step → Expansion
  | .finished => nothing
  | .failed e => ⟨[], some e⟩
  | .next emitted stack => andThen ⟨emitted.toList, none⟩ (Expansion.owed maxDepth stack)

end Expansion

open Expansion

/-- What a frame has not read means what the effect of its next character gives, and then what the
text after that character means. -/
theorem meaning_eq_of_read (maxDepth : Int) (f : Frame) (c : Char) (rest : Text) :
    meaning maxDepth (c :: rest) f.context f.depth =
      match f.read maxDepth c rest with
      | .error e => ⟨[], some e⟩
      | .ok (.skip, after) => meaning maxDepth after f.context f.depth
      | .ok (.emit i, after) => andThen ⟨[i], none⟩ (meaning maxDepth after f.context f.depth)
      | .ok (.enter g, after) =>
        (meaning maxDepth g.unread g.context g.depth).andThen
          (meaning maxDepth after f.context f.depth) := by
  rw [meaning, Frame.read]
  cases hi : Instruction.ofLetter? c with
  | some i => rfl
  | none =>
    by_cases hp : isParameterLetter c = true
    · simp only [hp, if_true]
      split
      · rename_i t own hs
        simp only [hs]
        rfl
      · rename_i hs
        cases hv : f.context.scope.get? [c] with
        | none => rfl
        | some v =>
          cases v with
          | datum v => rfl
          | fragment t own => exact (hs t own hv).elim
    · by_cases hl : isFunctionLetter c = true
      · simp only [hp, hl, if_true, Frame.call]
        by_cases hd : maxDepth < f.depth
        · simp [hd, Except.map]
        · simp only [hd]
          cases f.context.functions.get? [c] with
          | none => rfl
          | some d =>
            cases hb : d.bind (Call.arguments (Call.takeArguments rest).1) f.context with
            | error e => simp [hb, Except.map]
            | ok callee => cases callee <;> simp [hb, Except.map, Frame.start]
      · simp only [hp, hl]
        rfl

namespace Expansion

variable {maxDepth : Int}

/-- **One step.** A step gives a part of what the stack owes, and the stack after it owes the
rest. -/
theorem owed_eq_owed_step (stack : List Frame) :
    owed maxDepth stack = (step maxDepth stack).owed maxDepth := by
  cases stack with
  | nil => rfl
  | cons f below =>
    rw [owed, step]
    cases hu : f.unread with
    | nil => rw [meaning]; simp [Step.owed, nothing]
    | cons c rest =>
      simp only
      rw [meaning_eq_of_read]
      -- What the frame has left to read after this character stands first in the new `owed`.
      cases f.read maxDepth c rest with
      | error e => rfl
      | ok read =>
        obtain ⟨effect, after⟩ := read
        cases effect with
        | skip => simp [Step.owed, owed]
        | emit i => simp only [Step.owed, owed, andThen_assoc, Option.toList]
        | enter g => simp [Step.owed, owed, andThen_assoc]

/-- **Whole runs.** A run gives what it has given already, and then what the stack owes, up to the
limit. The induction is on the stack, along the successor relation. -/
theorem run_eq_cut_owed (room : Option Nat) (stack : List Frame) (given : List Instruction) :
    run maxDepth room stack given =
      andThen ⟨given.reverse, none⟩ ((owed maxDepth stack).cut room) := by
  induction stack using (wellFounded_successor maxDepth).induction generalizing room given with
  | _ stack ih =>
    by_cases hr : room = some 0
    · rw [run, if_pos hr, hr, cut_zero, andThen_nothing]
    rw [run, if_neg hr, owed_eq_owed_step]
    split
    · rename_i hs
      rw [hs, Step.owed, cut_nothing, andThen_nothing]
    · rename_i e hs
      rw [hs, Step.owed, cut_failed hr]
      simp
    · rename_i stack' hs
      rw [ih stack' ⟨_, hs⟩, hs, Step.owed]
      rfl
    · rename_i i stack' hs
      rw [ih stack' ⟨_, hs⟩, hs, Step.owed, Option.toList, cut_emitted hr]
      simp

end Expansion

/-- Expansion is the meaning of the text, cut at the limit. -/
theorem expand_eq_cut_meaning (maxDepth : Int) (limit : Option Int) (context : Context)
    (depth : Int) (text : Text) :
    expand maxDepth limit context depth text =
      (meaning maxDepth text context depth).cut (limit.map Int.toNat) := by
  rw [expand, run_eq_cut_owed, owed, owed, andThen_nothing]
  rfl

theorem expand_none_eq_meaning (maxDepth : Int) (context : Context) (depth : Int) (text : Text) :
    expand maxDepth none context depth text = meaning maxDepth text context depth :=
  expand_eq_cut_meaning maxDepth none context depth text

/-- A limit cuts the expansion of a program off, and changes nothing else. -/
theorem Program.expand_eq_cut (p : Program) (maxDepth : Int) (limit : Option Int) :
    p.expand maxDepth limit = (p.expand maxDepth none).cut (limit.map Int.toNat) := by
  rw [expand, expand, expand_none_eq_meaning, expand_eq_cut_meaning]

/-! ### Results -/

theorem Expansion.result_eq_ok_iff {e : Expansion} {w : List Instruction} :
    e.result = .ok w ↔ e = ⟨w, none⟩ := by
  obtain ⟨is, _ | failure⟩ := e <;> simp [result]

theorem Expansion.result_eq_error_iff {e : Expansion} {failure : ExpansionError} :
    e.result = .error failure ↔ ∃ w, e = ⟨w, some failure⟩ := by
  obtain ⟨is, _ | failure⟩ := e <;> simp [result]

/-- A program gives no more instructions than the limit. -/
theorem length_le_of_expandProgram {program : Text} {maxDepth limit : Int} {w : List Instruction}
    (h : expandProgram program maxDepth (some limit) = .ok w) : w.length ≤ limit.toNat := by
  have hcut := (Program.parse program).expand_eq_cut maxDepth (some limit)
  rw [Expansion.result_eq_ok_iff.1 h, Option.map_some, Expansion.cut] at hcut
  split at hcut
  · rw [Expansion.mk.injEq] at hcut
    rw [hcut.1, List.length_take]
    exact Nat.min_le_left _ _
  · rename_i hlt
    rw [← hcut] at hlt
    exact Nat.le_of_not_le hlt

/-- The result of two expansions is both results, or the first error. -/
theorem Expansion.result_andThen (a b : Expansion) :
    (a.andThen b).result = (do
      let w ← a.result
      let v ← b.result
      return w ++ v) := by
  obtain ⟨w, _ | failure⟩ := a
  · obtain ⟨v, _ | failure⟩ := b <;> rfl
  · rfl

/-- **The expander computes the meaning.** Without a limit, and from any context and depth, it
returns instructions exactly when they are the meaning of the text, and fails with an error exactly
when the meaning breaks off with that error. -/
theorem result_expand_iff_meaning (maxDepth : Int) (context : Context) (depth : Int)
    (text : Text) :
    (∀ w, (expand maxDepth none context depth text).result = .ok w ↔
        meaning maxDepth text context depth = ⟨w, none⟩) ∧
      ∀ e, (expand maxDepth none context depth text).result = .error e ↔
        ∃ w, meaning maxDepth text context depth = ⟨w, some e⟩ := by
  rw [expand_none_eq_meaning]
  exact ⟨fun w => result_eq_ok_iff, fun e => result_eq_error_iff⟩

/-! ### Argument lists

`meaning` and the frames take an argument list off the front of what is left to read. In the whole
text it is what stands between an opening parenthesis and the position that `Call.closingParen?`
gives for it. -/

/-- An argument list reaches to the parenthesis that closes it, and reading goes on after that. -/
theorem Call.takeArguments_eq_closingParen? (before inside : Text) :
    ∃ stop : Nat, closingParen? (before ++ '(' :: inside) before.length = some (stop : Int) ∧
      takeArguments ('(' :: inside) =
        (((before ++ '(' :: inside).take stop).drop (before.length + 1),
          (before ++ '(' :: inside).drop (stop + 1)) := by
  rw [closingParen?_eq List.drop_left, takeArguments]
  -- From the opening parenthesis on, positions in the text are positions in `inside`.
  have hsplit : before ++ '(' :: inside = (before ++ ['(']) ++ inside := by simp
  have hlength : (before ++ ['(']).length = before.length + 1 := by simp
  cases closingDistance 1 inside with
  | none =>
    refine ⟨(before ++ '(' :: inside).length, rfl, ?_⟩
    rw [List.take_length, List.drop_eq_nil_of_le (Nat.le_succ _), hsplit, ← hlength,
      List.drop_left]
  | some n =>
    refine ⟨before.length + n + 1, rfl, ?_⟩
    rw [hsplit, Nat.add_right_comm, ← hlength, List.take_length_add_append, List.drop_left,
      Nat.add_assoc, List.drop_length_add_append]

end RobotMaze
