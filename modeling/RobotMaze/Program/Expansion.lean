import RobotMaze.Program.Frame

/-!
# Expansion

A program expands into primitive instructions. The expander works on an explicit stack of frames, so
that deep recursion is bounded by the depth limit alone. Each step reads one character of the frame
on top, or removes that frame when it is read to its end. A limit on the number of instructions cuts
the expansion off before the next step.

## Termination

A step replaces the frame on top by one of lower rank, and puts at most one frame on top of it,
which is of lower rank too. That makes the successor relation between stacks well-founded
(`wellFounded_successor`), and the expander is defined by recursion on it.
-/

namespace RobotMaze

/-- The instructions that an expansion gave, and why it ended early if it did. -/
structure Expansion where
  instructions : List Instruction
  failure : Option ExpansionError := none
deriving DecidableEq, Repr

/-- The instructions of an expansion that did not fail. -/
def Expansion.result (e : Expansion) : Except ExpansionError (List Instruction) :=
  match e.failure with
  | none => .ok e.instructions
  | some failure => .error failure

namespace Expansion

/-- One step of the expander. -/
inductive Step where
  /-- Nothing is left to expand. -/
  | finished
  | failed (e : ExpansionError)
  /-- The stack after the step, and the instruction that it gave if it gave one. -/
  | next (emitted : Option Instruction) (stack : List Frame)

/-- Reads one character of the frame on top of the stack, or removes that frame if it is read to its
end. -/
def step (maxDepth : Int) : List Frame → Step
  | [] => .finished
  | f :: below =>
    match f.unread with
    | [] => .next none below
    | c :: rest =>
      match f.read maxDepth c rest with
      | .error e => .failed e
      | .ok (.skip, unread) => .next none ({ f with unread } :: below)
      | .ok (.emit i, unread) => .next (some i) ({ f with unread } :: below)
      | .ok (.enter g, unread) => .next none (g :: { f with unread } :: below)

/-- A step leads from the second stack to the first. -/
def Successor (maxDepth : Int) (after before : List Frame) : Prop :=
  ∃ emitted, step maxDepth before = .next emitted after

/-- Where a step leads: the frame is removed, or it has read on, below a frame of lower rank if it
entered one. -/
theorem successor_cons {maxDepth : Int} {f : Frame}
    {below after : List Frame} (h : Successor maxDepth after (f :: below)) :
    after = below ∨ ∃ f', f'.Below maxDepth f ∧
      (after = f' :: below ∨ ∃ g, g.Below maxDepth f ∧ after = g :: f' :: below) := by
  obtain ⟨emitted, h⟩ := h
  rw [step] at h
  split at h
  · cases h; exact .inl rfl
  · rename_i c rest hu
    have lower : ∀ {effect unread}, f.read maxDepth c rest = .ok (effect, unread) →
        Frame.Below maxDepth { f with unread } f := fun hr =>
      Frame.below_of_length_lt (by simpa [hu] using Nat.lt_succ_of_le (Frame.length_le_of_read hr))
    split at h
    · cases h
    · rename_i hr; cases h; exact .inr ⟨_, lower hr, .inl rfl⟩
    · rename_i hr; cases h; exact .inr ⟨_, lower hr, .inl rfl⟩
    · rename_i hr; cases h; exact .inr ⟨_, lower hr, .inr ⟨_, Frame.below_of_read hr, rfl⟩⟩

/-- A frame on top of a stack from which the expander stops is again such a stack. -/
theorem acc_cons (maxDepth : Int) (f : Frame) :
    ∀ below, Acc (Successor maxDepth) below →
      Acc (Successor maxDepth) (f :: below) := by
  induction f using (Frame.wellFounded_below maxDepth).induction with
  | _ f ih =>
    intro below hb
    refine .intro _ fun after h => ?_
    obtain rfl | ⟨f', hf', rfl | ⟨g, hg, rfl⟩⟩ := successor_cons h
    · exact hb
    · exact ih f' hf' _ hb
    · exact ih g hg _ (ih f' hf' _ hb)

/-- From every stack the expander stops. -/
theorem wellFounded_successor (maxDepth : Int) :
    WellFounded (Successor maxDepth) := by
  refine ⟨fun stack => ?_⟩
  induction stack with
  | nil => exact .intro _ fun _ ⟨_, h⟩ => by simp [step] at h
  | cons f below ih => exact acc_cons maxDepth f below ih

/-- Runs the expander from a stack. `room` is the number of instructions that may still be given, if
there is a limit, and `given` holds those given already, the last one first. -/
def run (maxDepth : Int) (room : Option Nat) (stack : List Frame)
    (given : List Instruction) : Expansion :=
  if room = some 0 then { instructions := given.reverse }
  else match _h : step maxDepth stack with
    | .finished => { instructions := given.reverse }
    | .failed e => { instructions := given.reverse, failure := some e }
    | .next none stack' => run maxDepth room stack' given
    | .next (some i) stack' => run maxDepth (room.map (· - 1)) stack' (i :: given)
termination_by (wellFounded_successor maxDepth).wrap stack
decreasing_by all_goals exact ⟨_, _h⟩

end Expansion

/-- Expands `text` in a context, from a starting depth; with a limit, stops as soon as that many
instructions have been given. -/
def expand (maxDepth : Int) (limit : Option Int) (context : Context) (depth : Int) (text : Text) :
    Expansion :=
  Expansion.run maxDepth (limit.map Int.toNat) [.start text context depth .entry] []

/-- Expands a program. -/
def Program.expand (p : Program) (maxDepth : Int) (limit : Option Int) : Expansion :=
  RobotMaze.expand maxDepth limit ⟨p.functions, .empty⟩ 0 p.main

/-- Reads a program text and expands it. A failure is given as it is found, not as it is raised. -/
def expandProgram (text : Text) (maxDepth : Int) (limit : Option Int) :
    Except ExpansionError (List Instruction) :=
  ((Program.parse text).expand maxDepth limit).result

/-- What reading and expanding a program text to the result given leaves in the log. -/
def expandRecords (text : Text) (result : Except ExpansionError (List Instruction)) :
    List Record :=
  Program.parseRecords text ++
    match result with
    | .ok instructions =>
      [⟨.debug, "expander", s!"expanded {text.length} byte(s) of program " ++
        s!"into {instructions.length} instruction(s)"⟩]
    | .error _ => []

end RobotMaze
