import Mathlib.Logic.Equiv.Basic
import RobotMaze.Proofs.Expansion.Run
import RobotMaze.Proofs.Program.Expression
import RobotMaze.Proofs.Renaming.Program

/-!
# Renaming letters does not change what a program does

A program and the same program with its letters renamed expand into the same instructions. No name
means anything but what the program makes of it, except the letters of the three instructions, which
a renaming keeps.

The two expansions run in step. Renaming a context renames the names that are bound, the fragments
and the functions, and leaves the numbers alone. A renamed frame reads the renamed character with
the renamed effect (`Frame.read_rename`), so each step leads to the renamed stack, and `run_map`
carries this along the run. Only the error of a call that is too deep shows the difference: it has
the new name of the function.

## Main results

* `Expression.evaluate_rename` — numbers do not depend on letters
* `Definition.bind_rename` — binding arguments commutes with renaming
* `Expansion.step_rename` — one step
* `expandProgram_text` — whole programs
-/

namespace RobotMaze

open Text Renaming

variable (ρ : Renaming)

/-! ### Scopes and contexts -/

/-- Bindings with their letters renamed. -/
def Scope.rename : Scope → Scope
  | .empty => .empty
  | .datum name value rest => .datum (ρ.text name) value (rest.rename)
  | .fragment name text functions origin rest =>
    .fragment (ρ.text name) (ρ.text text) (functions.rename ρ) (origin.rename) (rest.rename)

/-- A context with its letters renamed. -/
def Context.rename (c : Context) : Context := ⟨c.functions.rename ρ, c.scope.rename ρ⟩

/-- A value with its letters renamed. -/
def Value.rename : Value → Value
  | .datum value => .datum value
  | .fragment text context => .fragment (ρ.text text) (context.rename ρ)

namespace Scope

/-- A renamed name is bound to the renamed value. -/
theorem get?_rename (s : Scope) (name : Name) :
    (s.rename ρ).get? (ρ.text name) = (s.get? name).map (Value.rename ρ) := by
  induction s with
  | empty => rfl
  | datum n v rest ih =>
    simp only [rename, get?, text_inj, ih]
    split <;> rfl
  | fragment n t fs o rest _ ih =>
    simp only [rename, get?, text_inj, ih]
    split <;> rfl

theorem erase_rename (s : Scope) (name : Name) :
    (s.rename ρ).erase (ρ.text name) = (s.erase name).rename ρ := by
  induction s with
  | empty => rfl
  | datum n v rest ih =>
    simp only [rename, erase, text_inj, ih]
    split <;> rfl
  | fragment n t fs o rest _ ih =>
    simp only [rename, erase, text_inj, ih]
    split <;> rfl

theorem insert_rename (s : Scope) (name : Name) (v : Value) :
    (s.rename ρ).insert (ρ.text name) (v.rename ρ) = (s.insert name v).rename ρ := by
  cases v <;> simp only [insert, Value.rename, Context.rename, erase_rename, rename]

/-- A letter is bound to the same number. -/
theorem number_rename (s : Scope) (name : Name) :
    (s.rename ρ).number (ρ.text name) = s.number name := by
  rw [number, number, get?_rename]
  cases s.get? name with
  | none => rfl
  | some v => cases v <;> rfl

end Scope

/-! ### Numbers -/

namespace Expression

/-- A renamed text has two pieces only if the text has. -/
theorem splitOn_text_ne {separator : Char} (h : IsMark separator) {t : Text}
    (ht : ∀ a b, List.splitOn separator t ≠ [a, b]) (a b : Text) :
    List.splitOn separator (ρ.text t) ≠ [a, b] := by
  rw [splitOn_text ρ h]
  intro hpieces
  obtain ⟨a', others, hfirst, -, hothers⟩ := List.map_eq_cons_iff.1 hpieces
  obtain ⟨b', rest, hsecond, -, hrest⟩ := List.map_eq_cons_iff.1 hothers
  rw [hsecond, List.map_eq_nil_iff.1 hrest] at hfirst
  exact ht a' b' hfirst

/-- **Numbers do not depend on letters.** A renamed expression has the same value in the renamed
scope, or the same numeral in it is too long. -/
theorem evaluate_rename (scope : Scope) (expr : Text) :
    evaluate (scope.rename ρ) (ρ.text expr) = evaluate scope expr := by
  have hsigned : ∀ x, Numeral.signed? (trim x) = none →
      Numeral.signed? (trim (ρ.text x)) = none := fun x h => by rw [trim_text, signed?_text, h]
  have hletter : ∀ x, letter? (trim x) = none → letter? (trim (ρ.text x)) = none :=
    fun x h => by rw [trim_text, letter?_text, h]; rfl
  have hmark : ∀ x, '+' ∈ trim (ρ.text x) ↔ '+' ∈ trim x := fun x => by
    rw [trim_text, mem_text_iff ρ (by decide)]
  -- The cases are the forms that are tried in turn, and the renamed text has the same form.
  induction expr using evaluate.induct with
  | case1 x e negative digits h =>
    rw [evaluate_of_signed? h, evaluate_of_signed? (by rw [trim_text, signed?_text]; exact h)]
  | case2 x e hs c hc =>
    have hc' : letter? (trim (ρ.text x)) = some (ρ.char c) := by
      rw [trim_text, letter?_text, hc]
      rfl
    rw [evaluate_of_letter? hs hc, evaluate_of_letter? (hsigned x hs) hc']
    exact congrArg Except.ok (scope.number_rename ρ [c])
  | case3 x e hs hl hplus ih =>
    have hterms : (List.splitOn '+' (trim (ρ.text x))).mapM (evaluate (scope.rename ρ)) =
        (List.splitOn '+' (trim x)).mapM (evaluate scope) := by
      rw [trim_text, splitOn_text ρ (by decide), List.mapM_map]
      exact mapM_congr ih
    rw [evaluate_of_plus hs hl hplus,
      evaluate_of_plus (hsigned x hs) (hletter x hl) ((hmark x).2 hplus), hterms]
  | case4 x e hs hl hplus hminus a b hpieces iha ihb =>
    have hpieces' : List.splitOn '-' (trim (ρ.text x)) = [ρ.text a, ρ.text b] := by
      rw [trim_text, splitOn_text ρ (by decide), hpieces]
      rfl
    rw [evaluate_of_minus hs hl hplus hpieces, evaluate_of_minus (hsigned x hs) (hletter x hl)
      (mt (hmark x).1 hplus) hpieces', iha, ihb]
  | case5 x e hs hl hplus hminus hpieces =>
    have hpieces' := splitOn_text_ne ρ (by decide) (t := trim x) hpieces
    rw [evaluate_of_other hs hl hplus hpieces, evaluate_of_other (hsigned x hs) (hletter x hl)
      (mt (hmark x).1 hplus) (by rwa [trim_text])]
  | case6 x e hs hl hplus hminus =>
    have hone : List.splitOn '-' (trim x) = [trim x] := List.splitOn_eq_singleton hminus
    have hpieces : ∀ a b, List.splitOn '-' (trim x) ≠ [a, b] := by simp [hone]
    have hpieces' := splitOn_text_ne ρ (by decide) hpieces
    rw [evaluate_of_other hs hl hplus hpieces, evaluate_of_other (hsigned x hs) (hletter x hl)
      (mt (hmark x).1 hplus) (by rwa [trim_text])]

end Expression

/-! ### Binding -/

namespace Definition

theorem bindPairs_rename (caller : Context) (pairs : List (Name × Text)) (s : Scope) :
    bindPairs (caller.rename ρ) (pairs.map (Prod.map ρ.text ρ.text)) (s.rename ρ) =
      (bindPairs caller pairs s).map (Option.map (Context.rename ρ)) := by
  induction pairs generalizing s with
  | nil => rfl
  | cons pair pairs ih =>
    obtain ⟨param, arg⟩ := pair
    have hnumber : ∀ n, (s.rename ρ).insert (ρ.text param) (.datum n) =
        (s.insert param (.datum n)).rename ρ := fun n => s.insert_rename ρ param (.datum n)
    have hfragment : (s.rename ρ).insert (ρ.text param) (.fragment (ρ.text arg) (caller.rename ρ)) =
        (s.insert param (.fragment arg caller)).rename ρ :=
      s.insert_rename ρ param (.fragment arg caller)
    have hvalue : Expression.evaluate (caller.rename ρ).scope (ρ.text arg) =
        Expression.evaluate caller.scope arg := Expression.evaluate_rename ρ caller.scope arg
    simp only [List.map_cons, Prod.map_apply, bindPairs, isNumeric_text, hvalue, hnumber, hfragment,
      ih]
    split
    · split
      · rfl
      · split <;> rfl
    · rfl

/-- **Binding commutes with renaming.** A renamed call is dropped if the call is, and otherwise its
body has the renamed context. -/
theorem bind_rename (d : Definition) (args : List Text) (caller : Context) :
    (d.rename ρ).bind (args.map ρ.text) (caller.rename ρ) =
      (d.bind args caller).map (Option.map (Context.rename ρ)) := by
  rw [bind, bind, ← bindPairs_rename, ← List.zip_map]
  rfl

end Definition

/-! ### Frames and steps -/

/-- A frame with its letters renamed. -/
def Frame.rename (f : Frame) : Frame :=
  { f with text := ρ.text f.text, unread := ρ.text f.unread, context := f.context.rename ρ }

/-- An effect with the letters of a frame renamed that it enters. -/
def Effect.rename : Effect → Effect
  | .skip => .skip
  | .emit i => .emit i
  | .enter g => .enter (g.rename ρ)

/-- An error with the new name of the function. -/
def ExpansionError.rename : ExpansionError → ExpansionError
  | .depth e => .depth { e with function := ρ.text e.function }
  | .literal e => .literal e

namespace Frame

variable (maxDepth : Int)

theorem call_rename (f : Frame) (name : Name) (args : List Text) :
    (f.rename ρ).call maxDepth (ρ.text name) (args.map ρ.text) =
      ((f.call maxDepth name args).map (Effect.rename ρ)).mapError (ExpansionError.rename ρ) := by
  simp only [call, rename, Context.rename, FunctionTable.get?_rename]
  split
  · rfl
  · cases f.context.functions.get? name with
    | none => rfl
    | some d =>
      have hbind := d.bind_rename ρ args f.context
      simp only [Context.rename] at hbind
      simp only [Option.map_some, hbind]
      cases d.bind args f.context with
      | error e => rfl
      | ok callee => cases callee <;> rfl

/-- A renamed frame reads the renamed character with the renamed effect. -/
theorem read_rename (f : Frame) (c : Char) (rest : Text) :
    (f.rename ρ).read maxDepth (ρ.char c) (ρ.text rest) =
      ((f.read maxDepth c rest).map fun read => (read.1.rename ρ, ρ.text read.2)).mapError
        (ExpansionError.rename ρ) := by
  simp only [read, ofLetter?_char, isParameterLetter_char, isFunctionLetter_char,
    takeArguments_text, arguments_text]
  cases Instruction.ofLetter? c with
  | some i => rfl
  | none =>
    simp only
    split
    · have hget : (f.rename ρ).context.scope.get? [ρ.char c] =
          (f.context.scope.get? [c]).map (Value.rename ρ) := f.context.scope.get?_rename ρ [c]
      rw [hget]
      cases f.context.scope.get? [c] with
      | none => rfl
      | some v => cases v <;> rfl
    · split
      · have hcall := f.call_rename ρ maxDepth [c] (Call.arguments (Call.takeArguments rest).1)
        simp only [text_cons, text_nil] at hcall
        rw [hcall]
        cases f.call maxDepth [c] (Call.arguments (Call.takeArguments rest).1) <;> rfl
      · rfl

end Frame

namespace Expansion

/-- **One step.** A step from the renamed stack leads to the renamed stack, or fails with the
renamed error. -/
theorem step_rename (maxDepth : Int) (stack : List Frame) :
    step maxDepth (stack.map (Frame.rename ρ)) =
      (step maxDepth stack).map (Frame.rename ρ) (ExpansionError.rename ρ) := by
  cases stack with
  | nil => rfl
  | cons f below =>
    have hunread : (f.rename ρ).unread = ρ.text f.unread := rfl
    rw [List.map_cons, step, step, hunread]
    cases f.unread with
    | nil => rfl
    | cons c rest =>
      simp only [text_cons, Frame.read_rename]
      cases f.read maxDepth c rest with
      | error e => rfl
      | ok read =>
        obtain ⟨effect, after⟩ := read
        cases effect <;> rfl

theorem result_mapFailure (onError : ExpansionError → ExpansionError) (e : Expansion) :
    (e.mapFailure onError).result = e.result.mapError onError := by
  obtain ⟨is, _ | failure⟩ := e <;> rfl

end Expansion

open Expansion

/-- The expansion of a renamed program is that of the program, with the renamed error. -/
theorem Program.expand_rename (p : Program) (maxDepth : Int) (limit : Option Int) :
    (p.rename ρ).expand maxDepth limit =
      (p.expand maxDepth limit).mapFailure (ExpansionError.rename ρ) := by
  rw [expand, expand, RobotMaze.expand, RobotMaze.expand, main_rename]
  exact run_map (step_rename ρ maxDepth) _ [.start p.main ⟨p.functions, .empty⟩ 0 .entry] []

/-- **Renaming.** Let the letters of functions be permuted, but not those of instructions, and the
letters of parameters, in every place of a program text. Then the program expands to the same
instructions, or fails on the same numeral, or fails for the same depth and depth limit at a call of
the renamed function. -/
theorem expandProgram_text (text : Text) (maxDepth : Int) (limit : Option Int) :
    expandProgram (ρ.text text) maxDepth limit =
      (expandProgram text maxDepth limit).mapError (ExpansionError.rename ρ) := by
  rw [expandProgram, Program.parse_text, Program.expand_rename, result_mapFailure]
  rfl

/-- There are renamings: two letters can change places. -/
example : ∃ ρ : Renaming, ρ.text "f(A):sf(A-1)".toList = "g(B):sg(B-1)".toList := by
  have hfixes : ∀ c : { c : Char // isFunctionLetter c = true }, Instruction.isLetter c.1 = true →
      Equiv.swap ⟨'f', rfl⟩ ⟨'g', rfl⟩ c = c := by
    intro c hc
    refine Equiv.swap_apply_of_ne_of_ne ?_ ?_ <;> rintro rfl <;> cases hc
  exact ⟨⟨Equiv.swap ⟨'f', rfl⟩ ⟨'g', rfl⟩, Equiv.swap ⟨'A', rfl⟩ ⟨'B', rfl⟩, hfixes⟩, rfl⟩

end RobotMaze
