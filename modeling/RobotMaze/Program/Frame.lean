import RobotMaze.Instruction
import RobotMaze.Program.Binding
import RobotMaze.Program.Call

/-!
# Frames

A frame is a text that is being expanded: how much of it is left to read, the context that it is
read in, and how many calls it is nested in. Reading a character has one of these effects:

* a primitive letter gives an instruction;
* an upper-case letter bound to a fragment enters a frame for the text of the fragment, in the
  context of the fragment and at the depth of the frame that refers to it;
* any other lower-case letter is a call. It fails if the frame is deeper than the limit; it has no
  effect if the letter has no definition or the call is dropped; otherwise it enters a frame for the
  body, one deeper;
* everything else is skipped.

A failure is found here, and raised where a run is started. Only then is the error worded, which can
fail in turn (`ExpansionError.raised`).

Every frame has a rank: the number of calls that may still nest inside it, the height of its scope,
and the number of characters not yet read, compared in this order. Reading a character lowers the
rank of a frame, and enters only frames of lower rank.
-/

namespace RobotMaze

/-- A call from a frame that is deeper than the limit. -/
structure DepthExceeded where
  function : Name
  depth : Int
  maxDepth : Int
deriving DecidableEq, Repr

/-- The wording of the error, which names the limit. -/
def DepthExceeded.message (e : DepthExceeded) : String :=
  let name := String.ofList e.function
  s!"Maximum recursion depth ({e.maxDepth}) exceeded while calling '{name}'."

/-- Why an expansion fails. -/
inductive ExpansionError where
  | depth (e : DepthExceeded)
  | literal (e : Numeral.TooLong)
deriving DecidableEq, Repr

namespace ExpansionError

/-- The error that is raised when an expansion fails. A depth error has its wording from the start,
and a limit that cannot be written out keeps it from getting one; it is raised as a numeral error
then. -/
def raised : ExpansionError → ExpansionError
  | .depth e => if Numeral.Writable e.maxDepth then .depth e else .literal .writing
  | .literal e => .literal e

theorem raised_eq_depth_iff {failure : ExpansionError} {e : DepthExceeded} :
    failure.raised = .depth e ↔ failure = .depth e ∧ Numeral.Writable e.maxDepth := by
  cases failure with
  | literal _ => simp [raised]
  | depth d =>
    rw [raised]
    split
    · rename_i hd
      constructor
      · rintro ⟨⟩
        exact ⟨rfl, hd⟩
      · exact And.left
    · rename_i hd
      constructor
      · intro h
        cases h
      · rintro ⟨⟨⟩, he⟩
        exact absurd he hd

end ExpansionError

/-- Why a frame is on the stack. -/
inductive Origin where
  /-- It holds the text that the expansion started with. -/
  | entry
  /-- It holds the body of a called function. -/
  | call
  /-- It holds the text of a fragment. -/
  | reference
deriving DecidableEq, Repr

/-- A text that is being expanded. -/
structure Frame where
  /-- The whole text of the frame. -/
  text : Text
  /-- What is left to read of it. -/
  unread : Text
  /-- The functions and the bindings in force. -/
  context : Context
  /-- How many calls the frame is nested in. -/
  depth : Int
  origin : Origin
deriving DecidableEq, Repr

/-- What reading a character leads to, besides moving on in the frame. -/
inductive Effect where
  | skip
  | emit (instruction : Instruction)
  | enter (frame : Frame)

namespace Frame

/-- A frame at the start of its text. -/
def start (text : Text) (context : Context) (depth : Int) (origin : Origin) : Frame :=
  ⟨text, text, context, depth, origin⟩

/-- A call of the function `name` from frame `f`. -/
def call (maxDepth : Int) (f : Frame) (name : Name) (args : List Text) :
    Except ExpansionError Effect :=
  if maxDepth < f.depth then .error (.depth ⟨name, f.depth, maxDepth⟩)
  else match f.context.functions.get? name with
    | none => .ok .skip
    | some d =>
      match d.bind args f.context with
      | .error e => .error (.literal e)
      | .ok none => .ok .skip
      | .ok (some callee) => .ok (.enter (start d.body callee (f.depth + 1) .call))

/-- Reads the character `c` of frame `f`, after which `rest` is left: the effect, and what is left
to read after it. -/
def read (maxDepth : Int) (f : Frame) (c : Char) (rest : Text) :
    Except ExpansionError (Effect × Text) :=
  match Instruction.ofLetter? c with
  | some i => .ok (.emit i, rest)
  | none =>
    if isParameterLetter c then
      match f.context.scope.get? [c] with
      | some (.fragment text context) => .ok (.enter (start text context f.depth .reference), rest)
      | _ => .ok (.skip, rest)
    else if isFunctionLetter c then
      let (args, after) := Call.takeArguments rest
      (f.call maxDepth [c] (Call.arguments args)).map (·, after)
    else .ok (.skip, rest)

/-- The rank of a frame: calls that may nest inside it, height of its scope, unread characters. -/
def rank (maxDepth : Int) (f : Frame) : Nat × Nat × Nat :=
  ((maxDepth + 1 - f.depth).toNat, f.context.scope.height, f.unread.length)

/-- One frame ranks below another. -/
def Below (maxDepth : Int) (f g : Frame) : Prop :=
  Prod.Lex (· < ·) (Prod.Lex (· < ·) (· < ·)) (f.rank maxDepth) (g.rank maxDepth)

theorem wellFounded_below (maxDepth : Int) : WellFounded (Below maxDepth) :=
  InvImage.wf (rank maxDepth)
    (Prod.lex ⟨_, Nat.lt_wfRel.wf⟩ (Prod.lex ⟨_, Nat.lt_wfRel.wf⟩ ⟨_, Nat.lt_wfRel.wf⟩)).wf

/-- A frame that has read on ranks below what it was. -/
theorem below_of_length_lt {maxDepth : Int} {f : Frame} {unread : Text}
    (h : unread.length < f.unread.length) : Below maxDepth { f with unread } f :=
  .right _ (.right _ h)

theorem below_of_call {maxDepth : Int} {f g : Frame} {name : Name} {args : List Text}
    (h : f.call maxDepth name args = .ok (.enter g)) :
    Below maxDepth g f := by
  unfold call at h
  split at h
  · simp at h
  · rename_i hd
    split at h
    · simp at h
    · split at h <;> try simp at h
      subst h
      refine .left _ _ ?_
      simp only [start]
      omega

/-- Reading a character leaves less to read. -/
theorem length_le_of_read {maxDepth : Int} {f : Frame} {c : Char} {rest after : Text}
    {effect : Effect} (h : f.read maxDepth c rest = .ok (effect, after)) :
    after.length ≤ rest.length := by
  unfold read at h
  split at h
  · cases h; exact Nat.le_refl _
  · split at h
    · split at h <;> cases h <;> exact Nat.le_refl _
    · split at h
      · cases hc : f.call maxDepth [c] (Call.arguments (Call.takeArguments rest).1) with
        | error e => simp [hc, Except.map] at h
        | ok effect' =>
          simp only [hc, Except.map, Except.ok.injEq, Prod.mk.injEq] at h
          exact h.2 ▸ Call.length_takeArguments_snd_le rest
      · cases h; exact Nat.le_refl _

/-- A frame that is entered ranks below the frame that enters it. -/
theorem below_of_read {maxDepth : Int} {f g : Frame} {c : Char} {rest after : Text}
    (h : f.read maxDepth c rest = .ok (.enter g, after)) : Below maxDepth g f := by
  unfold read at h
  split at h
  · cases h
  · split at h
    · split at h
      · rename_i hs
        cases h
        exact .right _ (.left _ _ (Scope.height_lt_of_get? hs))
      · cases h
    · split at h
      · cases hc : f.call maxDepth [c] (Call.arguments (Call.takeArguments rest).1) with
        | error e => simp [hc, Except.map] at h
        | ok effect' =>
          simp only [hc, Except.map, Except.ok.injEq, Prod.mk.injEq] at h
          exact below_of_call (h.1 ▸ hc)
      · cases h

end Frame

end RobotMaze
