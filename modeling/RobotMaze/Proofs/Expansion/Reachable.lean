import Mathlib.Data.Bool.AllAny
import RobotMaze.Proofs.Expansion.Coincidence
import RobotMaze.Proofs.Expansion.Termination

/-!
# Functions that a program can reach

A table may define functions that a main program never gets to. This file says which functions can
matter: those with a letter in the main text, and those with a letter in the body of a function that
matters. Everything else in a table may be changed, added or left out.

`FunctionTable.Reachable` asks for letters and not for calls. A letter of an argument is not called
where it stands, and a comma can cut an argument out of the middle of parentheses, so that a letter
comes to be called which no call of the text has for its name. The letters of a text are what no
cutting can add to, and that makes the set of them good for every frame that an expansion enters
(`CallsWithin`).

## Main results

* `FunctionTable.Reachable.least` — no smaller set of letters is closed in this way
* `FunctionTable.reachable_iff_of_code_eq` — tables that agree on what one reaches reach the same
* `expand_eq_of_reachable` — what is not reachable makes no difference
-/

namespace RobotMaze

namespace FunctionTable

/-- The letters that expanding a main text can call. -/
inductive Reachable (table : FunctionTable) (main : Text) : Char → Prop
  /-- A letter of the main text. -/
  | main {c : Char} (hc : IsCallLetter c) (h : c ∈ main) : Reachable table main c
  /-- A letter in the body of a function that is reachable itself. -/
  | body {g c : Char} {d : Definition} (hg : Reachable table main g) (hd : table.get? [g] = some d)
      (hc : IsCallLetter c) (h : c ∈ d.body) : Reachable table main c

variable {table F G : FunctionTable} {main : Text} {c : Char}

namespace Reachable

/-- **The least set.** A set of letters that holds those of the main text, and with each function
those of its body, holds all that is reachable. -/
theorem least {R : Char → Prop} (hmain : CallsWithin R main)
    (hbody : ∀ g d, R g → table.get? [g] = some d → CallsWithin R d.body)
    (h : table.Reachable main c) : R c := by
  induction h with
  | main hc hmem => exact hmain _ hmem hc
  | body hg hd hc hmem ih => exact hbody _ _ ih hd _ hmem hc

theorem callsWithin_main : CallsWithin (table.Reachable main) main := fun _ hmem hc => .main hc hmem

theorem callsWithin_body {d : Definition} (h : table.Reachable main c)
    (hd : table.get? [c] = some d) : CallsWithin (table.Reachable main) d.body :=
  fun _ hmem hc => .body h hd hc hmem

end Reachable

variable (h : ∀ c, F.Reachable main c →
  (F.get? [c]).map Definition.code = (G.get? [c]).map Definition.code)
include h

/-- Tables with the same code for all that is reachable agree on it: by definition, the bodies of
reachable functions call nothing else. -/
theorem agreeOn_of_code_eq : FunctionTable.AgreeOn (F.Reachable main) F G :=
  ⟨h, fun _ _ hc hd => hc.callsWithin_body hd⟩

/-- Which of the two tables the reachable letters are taken from does not matter. -/
theorem reachable_iff_of_code_eq : F.Reachable main c ↔ G.Reachable main c := by
  constructor
  · intro hc
    induction hc with
    | main hc hmem => exact .main hc hmem
    | body hg hd hc hmem ih =>
      have hcode := h _ hg
      rw [hd, Option.map_some, eq_comm, Option.map_eq_some_iff] at hcode
      obtain ⟨e, he, hcode⟩ := hcode
      have hbody : e.body = _ := congrArg Prod.snd hcode
      exact .body ih he hc (hbody ▸ hmem)
  · refine Reachable.least Reachable.callsWithin_main fun g e hg he => ?_
    have hcode := h g hg
    rw [he, Option.map_some, Option.map_eq_some_iff] at hcode
    obtain ⟨d, hd, hcode⟩ := hcode
    have hbody : d.body = e.body := congrArg Prod.snd hcode
    exact hbody ▸ hg.callsWithin_body hd

end FunctionTable

/-- **Unreachable definitions are irrelevant.** Let two tables define the same of the letters that
the first can reach from a main text, with the same parameters and bodies. Then the second reaches
the same letters, and under every limit the main text expands to the same instructions or fails with
the same error. -/
theorem expand_eq_of_reachable {F G : FunctionTable} {main : Text}
    (h : ∀ c, F.Reachable main c →
      (F.get? [c]).map Definition.code = (G.get? [c]).map Definition.code)
    (maxDepth : Int) (limit : Option Int) :
    (∀ c, F.Reachable main c ↔ G.Reachable main c) ∧
      expand maxDepth limit ⟨F, .empty⟩ 0 main = expand maxDepth limit ⟨G, .empty⟩ 0 main := by
  have hagree : Context.AgreeOn (F.Reachable main) ⟨F, .empty⟩ ⟨G, .empty⟩ :=
    ⟨FunctionTable.agreeOn_of_code_eq h, .empty⟩
  exact ⟨fun c => FunctionTable.reachable_iff_of_code_eq h,
    expand_eq_of_agreeOn maxDepth limit hagree FunctionTable.Reachable.callsWithin_main 0⟩

/-- The comma cuts the call of `g` in two, so `f` is given `g(h` and `l)`. The first of them calls
`g` with an argument that calls `h`. The second table has the three in another order and on other
lines, and it has another `k`, which nothing reaches. -/
theorem expand_eq_of_reachable_cut :
    let F := FunctionTable.ofList
      [⟨['f'], [['A'], ['B']], "BA".toList, 1, 1⟩, ⟨['g'], [['C']], "Cr".toList, 2, 1⟩,
        ⟨['h'], [], ['s'], 3, 1⟩, ⟨['k'], [], ['l'], 4, 1⟩]
    let G := FunctionTable.ofList
      [⟨['h'], [], ['s'], 7, 5⟩, ⟨['k'], [['A']], "f(k)".toList, 2, 1⟩,
        ⟨['g'], [['C']], "Cr".toList, 3, 1⟩, ⟨['f'], [['A'], ['B']], "BA".toList, 9, 2⟩]
    let main := "f(g(h,l))".toList
    (F.Reachable main 'h' ∧ ¬F.Reachable main 'k') ∧
      (F.get? ['k']).map Definition.code ≠ (G.get? ['k']).map Definition.code ∧
      expand 3 none ⟨F, .empty⟩ 0 main = ⟨[.left, .step, .right], none⟩ ∧
      expand 3 none ⟨G, .empty⟩ 0 main = ⟨[.left, .step, .right], none⟩ := by
  intro F G main
  let calls (t : Text) : Bool := t.all fun c => decide (IsCallLetter c → c ∈ "fgh".toList)
  have hcalls : ∀ t, calls t = true → CallsWithin (· ∈ "fgh".toList) t :=
    fun t => List.all_iff_forall_prop.1
  have hreach : ∀ c, F.Reachable main c → c ∈ "fgh".toList := by
    intro c
    have hbodies : ∀ g ∈ "fgh".toList, ∀ d ∈ F.get? [g], calls d.body = true :=
      List.all_iff_forall_prop.1 (by decide)
    exact FunctionTable.Reachable.least (hcalls main (by decide))
      fun g d hg hd => hcalls d.body (hbodies g hg d hd)
  have hcode : ∀ c ∈ "fgh".toList,
      (F.get? [c]).map Definition.code = (G.get? [c]).map Definition.code :=
    List.all_iff_forall_prop.1 (by decide)
  have hfirst : expand 3 none ⟨F, .empty⟩ 0 main = ⟨[.left, .step, .right], none⟩ :=
    expand_eq_of_runWithin 40 (by decide)
  have hsame := (expand_eq_of_reachable (fun c hc => hcode c (hreach c hc)) 3 none).2
  refine ⟨⟨.main (by decide) (by decide), fun hk => ?_⟩, by decide, hfirst, hsame.symm.trans hfirst⟩
  exact absurd (hreach 'k' hk) (by decide)

end RobotMaze
