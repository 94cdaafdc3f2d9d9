import RobotMaze.Proofs.Expansion.Moments

/-!
# What a text means, character by character

`meaning` looks at the first character of a text and goes on with the rest. This file has one
equation for each kind of character: the letter of an instruction, a parameter letter that is bound
to a fragment or is not, a call letter, and everything else. A proof about what a text means follows
the characters of the text with these equations and does not unfold `meaning`.

What a call contributes is put in one place, `contribution`. A call of no function and a call that
is dropped contribute nothing, and reading goes on after the argument list in all cases.
-/

namespace RobotMaze

open Expansion

variable {maxDepth depth : Int} {context : Context} {c : Char} {rest : Text}

@[simp] theorem meaning_nil : meaning maxDepth [] context depth = nothing := by rw [meaning]

/-- An instruction gives itself. -/
theorem meaning_letter (i : Instruction) (rest : Text) :
    meaning maxDepth (i.letter :: rest) context depth =
      andThen ⟨[i], none⟩ (meaning maxDepth rest context depth) := by
  rw [meaning]
  simp only [Instruction.ofLetter?_letter]

/-- Instructions give themselves, in whatever context they stand. -/
theorem meaning_write_append (w : List Instruction) (rest : Text) :
    meaning maxDepth (Instruction.write w ++ rest) context depth =
      andThen ⟨w, none⟩ (meaning maxDepth rest context depth) := by
  induction w with
  | nil => rfl
  | cons i w ih =>
    show meaning maxDepth (i.letter :: (Instruction.write w ++ rest)) context depth = _
    rw [meaning_letter, ih, ← andThen_assoc]
    rfl

theorem meaning_write (w : List Instruction) :
    meaning maxDepth (Instruction.write w) context depth = ⟨w, none⟩ := by
  have h : meaning maxDepth (Instruction.write w ++ []) context depth =
      andThen ⟨w, none⟩ (meaning maxDepth [] context depth) := meaning_write_append w []
  rwa [List.append_nil, meaning_nil, andThen_nothing] at h

/-- A parameter letter that is bound to a fragment gives what the fragment means in its own
context. -/
theorem meaning_fragment {t : Text} {own : Context} (hc : isParameterLetter c = true)
    (h : context.scope.get? [c] = some (.fragment t own)) :
    meaning maxDepth (c :: rest) context depth =
      (meaning maxDepth t own depth).andThen (meaning maxDepth rest context depth) := by
  rw [meaning]
  simp only [ofLetter?_of_isParameterLetter hc, hc, if_true]
  split
  · rename_i hv
    cases h.symm.trans hv
    rfl
  · rename_i hv
    exact absurd h (hv t own)

/-- A parameter letter that is bound to no fragment gives nothing. -/
theorem meaning_unbound (hc : isParameterLetter c = true)
    (h : ∀ t own, context.scope.get? [c] ≠ some (.fragment t own)) :
    meaning maxDepth (c :: rest) context depth = meaning maxDepth rest context depth := by
  rw [meaning]
  simp only [ofLetter?_of_isParameterLetter hc, hc, if_true]

/-- A character that is no letter of a program is skipped. -/
theorem meaning_skip (hi : Instruction.ofLetter? c = none) (hp : isParameterLetter c = false)
    (hf : isFunctionLetter c = false) :
    meaning maxDepth (c :: rest) context depth = meaning maxDepth rest context depth := by
  rw [meaning]
  simp only [hi, hp, hf]
  rfl

/-- What a call contributes that is not too deep. -/
def contribution (maxDepth : Int) (context : Context) (depth : Int) (name : Name)
    (args : List Text) : Expansion :=
  match context.functions.get? name with
  | none => nothing
  | some d =>
    match d.bind args context with
    | .error e => ⟨[], some (.literal e)⟩
    | .ok none => nothing
    | .ok (some callee) => meaning maxDepth d.body callee (depth + 1)

/-- A call that is too deep fails, whatever it calls. -/
theorem meaning_call_of_lt (hc : IsCallLetter c) (h : maxDepth < depth) :
    meaning maxDepth (c :: rest) context depth =
      ⟨[], some (.depth ⟨[c], depth, maxDepth⟩)⟩ := by
  rw [meaning]
  simp only [hc.2, hc.not_isParameterLetter, hc.1, h]
  rfl

/-- Under a limit below zero the first call is too deep. -/
theorem expandProgram_call_of_neg {program rest : Text} {c : Char} {maxDepth : Int}
    {limit : Option Int} (hmain : (Program.parse program).main = c :: rest) (hc : IsCallLetter c)
    (hneg : maxDepth < 0) (hlimit : limit.map Int.toNat ≠ some 0) :
    expandProgram program maxDepth limit = .error (.depth ⟨[c], 0, maxDepth⟩) := by
  rw [expandProgram, Program.expand, expand_eq_cut_meaning, hmain, meaning_call_of_lt hc hneg,
    cut_failed hlimit]
  rfl

/-- Any other call gives its contribution, and reading goes on after the arguments. -/
theorem meaning_call_of_le (hc : IsCallLetter c) (h : depth ≤ maxDepth) :
    meaning maxDepth (c :: rest) context depth =
      (contribution maxDepth context depth [c]
        (Call.arguments (Call.takeArguments rest).1)).andThen
          (meaning maxDepth (Call.takeArguments rest).2 context depth) := by
  rw [meaning, contribution]
  simp only [hc.2, hc.not_isParameterLetter, hc.1, Int.not_lt.2 h, Bool.false_eq_true, if_false,
    if_true, dite_false]
  cases context.functions.get? [c] with
  | none => rfl
  | some d =>
    simp only
    cases d.bind (Call.arguments (Call.takeArguments rest).1) context with
    | error e => rfl
    | ok callee => cases callee <;> rfl

/-- What a call of a function contributes depends on what becomes of its arguments. -/
theorem contribution_of_dropped {name : Name} {args : List Text} {d : Definition}
    (hget : context.functions.get? name = some d) (hbind : d.bind args context = .ok none) :
    contribution maxDepth context depth name args = nothing := by
  simp only [contribution, hget, hbind]

theorem contribution_of_bound {name : Name} {args : List Text} {d : Definition} {callee : Context}
    (hget : context.functions.get? name = some d)
    (hbind : d.bind args context = .ok (some callee)) :
    contribution maxDepth context depth name args =
      meaning maxDepth d.body callee (depth + 1) := by
  simp only [contribution, hget, hbind]

/-- **Induction along the meaning of a text**, with one case for each equation. A call that is not
too deep is one case, in which the body is at hand if the call leads to one. -/
@[elab_as_elim]
theorem meaning_induction (maxDepth : Int) {P : Text → Context → Int → Prop}
    (nil : ∀ context depth, P [] context depth)
    (letter : ∀ context depth (i : Instruction) rest, P rest context depth →
      P (i.letter :: rest) context depth)
    (fragment : ∀ context depth c rest t own, isParameterLetter c = true →
      context.scope.get? [c] = some (.fragment t own) → P t own depth → P rest context depth →
      P (c :: rest) context depth)
    (unbound : ∀ context depth c rest, isParameterLetter c = true →
      (∀ t own, context.scope.get? [c] ≠ some (.fragment t own)) → P rest context depth →
      P (c :: rest) context depth)
    (tooDeep : ∀ context depth c rest, IsCallLetter c → maxDepth < depth →
      P (c :: rest) context depth)
    (call : ∀ context depth c rest, IsCallLetter c → depth ≤ maxDepth →
      (∀ d callee, context.functions.get? [c] = some d →
        d.bind (Call.arguments (Call.takeArguments rest).1) context = .ok (some callee) →
        P d.body callee (depth + 1)) →
      P (Call.takeArguments rest).2 context depth → P (c :: rest) context depth)
    (skip : ∀ context depth c rest, Instruction.ofLetter? c = none → isParameterLetter c = false →
      isFunctionLetter c = false → P rest context depth → P (c :: rest) context depth)
    (text : Text) (context : Context) (depth : Int) : P text context depth := by
  suffices h : ∀ f : Frame, P f.unread f.context f.depth from
    h (.start text context depth .entry)
  intro f
  induction f using (Frame.wellFounded_below maxDepth).induction with
  | _ f ih =>
    obtain ⟨whole, unread, context, depth, origin⟩ := f
    show P unread context depth
    have readOn : ∀ after : Text, after.length < unread.length → P after context depth :=
      fun after hlt => ih ⟨whole, after, context, depth, origin⟩ (.right _ (.right _ hlt))
    cases unread with
    | nil => exact nil context depth
    | cons c rest =>
      have hrest := readOn rest (Nat.lt_succ_self _)
      cases hi : Instruction.ofLetter? c with
      | some i => exact Instruction.letter_of_ofLetter? hi ▸ letter context depth i rest hrest
      | none =>
        cases hp : isParameterLetter c with
        | true =>
          by_cases hs : ∃ t own, context.scope.get? [c] = some (.fragment t own)
          · obtain ⟨t, own, hs⟩ := hs
            refine fragment context depth c rest t own hp hs ?_ hrest
            exact ih (.start t own depth .reference)
              (.right _ (.left _ _ (Scope.height_lt_of_get? hs)))
          · exact unbound context depth c rest hp (fun t own h => hs ⟨t, own, h⟩) hrest
        | false =>
          cases hf : isFunctionLetter c with
          | false => exact skip context depth c rest hi hp hf hrest
          | true =>
            rcases Int.lt_or_le maxDepth depth with hd | hd
            · exact tooDeep context depth c rest ⟨hf, hi⟩ hd
            · refine call context depth c rest ⟨hf, hi⟩ hd (fun d callee _ _ => ?_)
                (readOn _ (Nat.lt_succ_of_le (Call.length_takeArguments_snd_le rest)))
              refine ih (.start d.body callee (depth + 1) .call) (.left _ _ ?_)
              simp only [Frame.start]
              omega

end RobotMaze
