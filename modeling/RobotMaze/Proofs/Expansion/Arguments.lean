import RobotMaze.Proofs.Expansion.Bindings

/-!
# How a call comes out

`Definition.bind` walks through the pairs of a parameter and an argument, and may leave off at any
of them. This file says how it comes out without the walk. Two pairs matter. The first one whose
argument stops the call decides between failing and dropping the call. If there is none the call is
made, and then for each name the last pair that has it decides what the name is bound to.

Every argument is looked at in the scope of the caller, and never in the scope that is being built:
in `f(A-1,A)` both arguments are about the same `A`, also if the first parameter is `A`. That is why
an argument can be judged by itself, by `Definition.stops` and `Definition.Binds`, before anything
is known of the pairs around it.

Nothing here asks that the parameters are distinct.
-/

namespace RobotMaze

namespace Definition

variable {caller : Context} {pairs : List (Name × Text)} {scope : Scope} {param name : Name}
  {arg : Text} {v : Value}

/-- Whether an argument keeps a call from being made: it is numeric, and its value cannot be worked
out or is not positive. -/
def stops (caller : Context) (arg : Text) : Bool :=
  Expression.isNumeric arg &&
    match Expression.evaluate caller.scope arg with
    | .error _ => true
    | .ok n => n ≤ 0

/-- An argument that does not stop the call stands for a value. -/
theorem exists_binds (h : stops caller arg = false) : ∃ v, Binds caller arg v := by
  cases ha : Expression.isNumeric arg with
  | false => exact ⟨_, .fragment ha⟩
  | true =>
    cases hn : Expression.evaluate caller.scope arg with
    | error e => simp [stops, ha, hn] at h
    | ok n => exact ⟨_, .number ha hn (by simpa [stops, ha, hn] using h)⟩

theorem bindPairs_cons_of_stops (h : stops caller arg = true) :
    bindPairs caller ((param, arg) :: pairs) scope =
      (Expression.evaluate caller.scope arg).map fun _ => none := by
  obtain ⟨ha, hstop⟩ := Bool.and_eq_true_iff.1 h
  rw [bindPairs, if_pos ha]
  cases hn : Expression.evaluate caller.scope arg with
  | error e => rfl
  | ok n =>
    rw [hn] at hstop
    exact if_pos (of_decide_eq_true hstop)

theorem bindPairs_cons_of_binds (h : Binds caller arg v) :
    bindPairs caller ((param, arg) :: pairs) scope =
      bindPairs caller pairs (scope.insert param v) := by
  cases h with
  | number ha hn hpos =>
    rw [bindPairs, if_pos ha, hn]
    exact if_neg (Int.not_le.2 hpos)
  | fragment ha => rw [bindPairs, if_neg (by simp [ha])]

/-- **The first argument that stops a call** decides how the call comes out. -/
theorem bindPairs_of_find?
    (h : pairs.find? (fun pair => stops caller pair.2) = some (param, arg)) (scope : Scope) :
    bindPairs caller pairs scope = (Expression.evaluate caller.scope arg).map fun _ => none := by
  induction pairs generalizing scope with
  | nil => cases h
  | cons pair pairs ih =>
    obtain ⟨p, a⟩ := pair
    cases hs : stops caller a with
    | true =>
      obtain ⟨rfl, rfl⟩ : p = param ∧ a = arg := by simpa [List.find?_cons, hs] using h
      exact bindPairs_cons_of_stops hs
    | false =>
      obtain ⟨w, hw⟩ := exists_binds hs
      have hrest : pairs.find? (fun pair => stops caller pair.2) = some (param, arg) := by
        simpa [List.find?_cons, hs] using h
      rw [bindPairs_cons_of_binds hw]
      exact ih hrest _

/-- **The last argument for a name** decides what the name is bound to, if no argument stops the
call. -/
theorem exists_bindPairs (h : pairs.find? (fun pair => stops caller pair.2) = none)
    (scope : Scope) :
    ∃ callee, bindPairs caller pairs scope = .ok (some ⟨caller.functions, callee⟩) ∧
      ∀ name, match pairs.findRev? (·.1 = name) with
        | some (_, arg) => ∃ v, Binds caller arg v ∧ callee.get? name = some v
        | none => callee.get? name = scope.get? name := by
  induction pairs generalizing scope with
  | nil => exact ⟨scope, rfl, fun _ => rfl⟩
  | cons pair pairs ih =>
    obtain ⟨p, a⟩ := pair
    obtain ⟨hs, hrest⟩ := List.forall_mem_cons.1 (List.find?_eq_none.1 h)
    obtain ⟨w, hw⟩ := exists_binds (by simpa using hs)
    obtain ⟨callee, hbind, hget⟩ := ih (List.find?_eq_none.2 hrest) (scope.insert p w)
    refine ⟨callee, (bindPairs_cons_of_binds hw).trans hbind, fun name => ?_⟩
    have hname := hget name
    rw [List.findRev?]
    split at hname
    · rename_i heq
      rw [heq]
      exact hname
    · rename_i heq
      rw [heq, hname, Scope.get?_insert]
      by_cases hp : p = name
      · simp [hp, hw]
      · simp [hp]

/-- **Binding by position.** Walk through the pairs of a parameter and an argument. If an argument
stops the call, the first one that does so decides: its failure is the failure of the call, and
otherwise its value is not positive and the call is dropped. If there is none, the body of the
function is entered with the functions of the caller; a name that is bound by some pair has the
value of the last such pair, and every other name is as in the scope of the caller. -/
theorem bind_by_position (d : Definition) (args : List Text) (caller : Context) :
    let pairs := d.params.zip args
    match pairs.find? fun pair => stops caller pair.2 with
    | some (_, arg) =>
      match Expression.evaluate caller.scope arg with
      | .error e => d.bind args caller = .error e
      | .ok _ => d.bind args caller = .ok none
    | none =>
      ∃ callee, d.bind args caller = .ok (some ⟨caller.functions, callee⟩) ∧
        ∀ name, match pairs.findRev? (·.1 = name) with
          | some (_, arg) => ∃ v, Binds caller arg v ∧ callee.get? name = some v
          | none => callee.get? name = caller.scope.get? name := by
  intro pairs
  split
  · rename_i hfind
    have hbind := bindPairs_of_find? hfind caller.scope
    split
    · rename_i hn
      rw [hn] at hbind
      exact hbind
    · rename_i hn
      rw [hn] at hbind
      exact hbind
  · rename_i hfind
    exact exists_bindPairs hfind caller.scope

/-- Both arguments of `f(A-1,A)` are about the `A` of the caller. -/
example :
    let caller : Context := ⟨[], .datum ['A'] (.number 3) .empty⟩
    bind ⟨['f'], [['A'], ['B']], [], 0, 1⟩ ["A-1".toList, "A".toList] caller =
      .ok (some ⟨[], .datum ['B'] (.number 3) (.datum ['A'] (.number 2) .empty)⟩) := by
  cbv

end Definition

end RobotMaze
