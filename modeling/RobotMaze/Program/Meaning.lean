import RobotMaze.Program.Expansion

/-!
# The meaning of program text

`meaning` says what a text expands to by recursion over the text, with no stack: each character
contributes instructions, contributions follow one another, and the first failure ends them. It is
the plain reading of the language, beside the machine that `Expansion.run` is.

The recursion ends for the same reason as the machine: a call uses up one level of depth, a fragment
lowers the height of the scope, and reading on shortens the text.
-/

namespace RobotMaze

namespace Expansion

/-- Two expansions one after the other; the second counts only if the first does not fail. -/
def andThen (a b : Expansion) : Expansion :=
  match a.failure with
  | none => ⟨a.instructions ++ b.instructions, b.failure⟩
  | some _ => a

/-- The expansion that gives nothing. -/
def nothing : Expansion := ⟨[], none⟩

@[simp] theorem nothing_andThen (a : Expansion) : nothing.andThen a = a := rfl

@[simp] theorem andThen_nothing (a : Expansion) : a.andThen nothing = a := by
  obtain ⟨is, _ | e⟩ := a
  · simp [andThen, nothing]
  · rfl

theorem andThen_assoc (a b c : Expansion) : (a.andThen b).andThen c = a.andThen (b.andThen c) := by
  obtain ⟨is, _ | e⟩ := a
  · obtain ⟨js, _ | f⟩ := b
    · simp [andThen, List.append_assoc]
    · rfl
  · rfl

end Expansion

/-- What a text expands to in a context, nested in `depth` calls. -/
def meaning (maxDepth : Int) (text : Text) (context : Context) (depth : Int) : Expansion :=
  match text with
  | [] => .nothing
  | c :: rest =>
    match Instruction.ofLetter? c with
    | some i => Expansion.andThen ⟨[i], none⟩ (meaning maxDepth rest context depth)
    | none =>
      if isParameterLetter c then
        match _hs : context.scope.get? [c] with
        | some (.fragment t own) =>
          (meaning maxDepth t own depth).andThen (meaning maxDepth rest context depth)
        | _ => meaning maxDepth rest context depth
      else if isFunctionLetter c then
        let args := Call.arguments (Call.takeArguments rest).1
        let after := (Call.takeArguments rest).2
        if _hd : maxDepth < depth then ⟨[], some (.depth ⟨[c], depth, maxDepth⟩)⟩
        else match context.functions.get? [c] with
          | none => meaning maxDepth after context depth
          | some d =>
            match d.bind args context with
            | .error e => ⟨[], some (.literal e)⟩
            | .ok none => meaning maxDepth after context depth
            | .ok (some callee) =>
              (meaning maxDepth d.body callee (depth + 1)).andThen
                (meaning maxDepth after context depth)
      else meaning maxDepth rest context depth
termination_by ((maxDepth + 1 - depth).toNat, context.scope.height, text.length)
decreasing_by
  · exact .right _ (.right _ (Nat.lt_succ_self _))
  · exact .right _ (.left _ _ (Scope.height_lt_of_get? _hs))
  · exact .right _ (.right _ (Nat.lt_succ_self _))
  · exact .right _ (.right _ (Nat.lt_succ_self _))
  · exact .right _ (.right _ (Nat.lt_succ_of_le (Call.length_takeArguments_snd_le _)))
  · exact .right _ (.right _ (Nat.lt_succ_of_le (Call.length_takeArguments_snd_le _)))
  · exact .left _ _ (by omega)
  · exact .right _ (.right _ (Nat.lt_succ_of_le (Call.length_takeArguments_snd_le _)))
  · exact .right _ (.right _ (Nat.lt_succ_self _))

end RobotMaze
