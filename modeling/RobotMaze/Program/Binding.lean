import RobotMaze.Expression

/-!
# Binding arguments

A call binds the arguments to the parameters by position, on top of the caller's bindings. A numeric
argument is evaluated in the caller's scope, and the call is dropped if it is zero or negative: this
is how recursion stops. Any other argument is bound as a fragment with the caller's context.
Extra arguments are ignored, and parameters without an argument keep what the caller bound them to.
The body sees the same functions as the caller.
-/

namespace RobotMaze

namespace Definition

/-- Binds pairs of a parameter and an argument one after the other, on top of `callee`. -/
def bindPairs (caller : Context) :
    List (Name × Text) → Scope → Except Numeral.TooLong (Option Context)
  | [], callee => .ok (some ⟨caller.functions, callee⟩)
  | (param, arg) :: pairs, callee =>
    if Expression.isNumeric arg then
      match Expression.evaluate caller.scope arg with
      | .error e => .error e
      | .ok n =>
        if n ≤ 0 then .ok none
        else bindPairs caller pairs (callee.insert param (.datum (.number n)))
    else bindPairs caller pairs (callee.insert param (.fragment arg caller))

/-- The context of the body of a call, or `none` if the call is dropped. -/
def bind (d : Definition) (args : List Text) (caller : Context) :
    Except Numeral.TooLong (Option Context) :=
  bindPairs caller (d.params.zip args) caller.scope

theorem height_bindPairs_le {caller : Context} {pairs : List (Name × Text)} {callee : Scope}
    {context : Context} (h : bindPairs caller pairs callee = .ok (some context))
    (hc : callee.height ≤ caller.scope.height + 1) :
    context.scope.height ≤ caller.scope.height + 1 := by
  induction pairs generalizing callee with
  | nil => simp [bindPairs] at h; exact h ▸ hc
  | cons pair pairs ih =>
    obtain ⟨param, arg⟩ := pair
    rw [bindPairs] at h
    split at h
    · split at h
      · simp at h
      · split at h
        · simp at h
        · exact ih h (Nat.le_trans (Scope.height_insert_datum_le _ _ _) hc)
    · have := Scope.height_insert_fragment_le callee param arg caller
      exact ih h (by omega)

/-- A call makes fragments nest one level deeper at most. -/
theorem height_bind_le {d : Definition} {args : List Text} {caller context : Context}
    (h : d.bind args caller = .ok (some context)) :
    context.scope.height ≤ caller.scope.height + 1 :=
  height_bindPairs_le h (Nat.le_succ _)

end Definition

end RobotMaze
