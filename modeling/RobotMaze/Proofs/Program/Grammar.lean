import Mathlib.Data.List.Nodup
import RobotMaze.Proofs.Program.Written

/-!
# The grammar of definitions

`Definition.parse?` reads a line from left to right. This file says which lines it accepts without
reading them: a trimmed line is a definition if it is the text of some `Definition.Parts`. These are
a lower-case letter, pairwise distinct upper-case letters, and a body that may be anything but a
line feed. The parts are found again from the text, so a line is a definition in one way at most:
the colon that ends the heading is the first one, and other colons and parentheses belong to the
body.

## White space

A body may start with white space, but trimming the line takes white space off its end. So the text
of a definition is read back as it was if its body has nothing to trim there. White space in front
of a definition only moves the column.

## Main results

* `Parts.readRest_eq`, `exists_parts_of_parse?` — what is written is read, and what is read was
  written
* `Parts.text_injective` — two definitions have two texts
* `parse?_iff_text` — the lines that are definitions, and printing undone by reading
-/

namespace RobotMaze

open Text

namespace Definition

/-- A definition as it can stand on a line. -/
structure Parts where
  name : Char
  params : List Char
  body : Text
  isFunctionLetter_name : isFunctionLetter name = true
  isParameterLetter_params : ∀ p ∈ params, isParameterLetter p = true
  nodup_params : params.Nodup
  notMem_body : '\n' ∉ body

namespace Parts

variable (p : Parts)

/-- The text of a definition. -/
def text : Text := p.name :: afterName p.params p.body

/-- The definition that stands at a place. -/
def definition (line col : Int) : Definition :=
  ⟨[p.name], p.params.map fun c => [c], p.body, line, col⟩

theorem readRest_eq : readRest (afterName p.params p.body) =
    some (p.params.map fun c => [c], p.body) :=
  readRest_afterName p.isParameterLetter_params p.body

theorem isBlank_name : isBlank p.name = false := by
  have halnum : p.name.isAlphanum = true :=
    isAlphanum_iff.2 (.inl (.inr (by simpa [isFunctionLetter] using p.isFunctionLetter_name)))
  have hplain : IsPlain [p.name] := by simpa using plain_of_isAlphanum halnum
  exact hplain.isBlank p.name List.mem_cons_self

/-- **A line with the text of a definition is read as that definition**, with whatever white space
around it. -/
theorem parse?_of_trim_eq {line : Text} (h : trim line = p.text) (lineNumber : Int) :
    parse? line lineNumber = some (p.definition lineNumber (indent line + 1)) := by
  have hnodup : (p.params.map fun c => [c]).Nodup :=
    p.nodup_params.map fun _ _ => List.singleton_inj.1
  have hbreak : p.body.contains '\n' = false :=
    Bool.eq_false_iff.2 fun hmem => p.notMem_body (List.contains_iff_mem.1 hmem)
  rw [parse?, h, text]
  simp only [p.readRest_eq, p.isFunctionLetter_name, hnodup, hbreak]
  rfl

/-- **Two definitions have two texts.** -/
theorem text_injective : Function.Injective text := by
  intro p q h
  obtain ⟨hname, hafter⟩ := List.cons.inj h
  have hread := p.readRest_eq
  rw [hafter, q.readRest_eq, Option.some.injEq, Prod.mk.injEq] at hread
  have hparams : q.params = p.params :=
    List.map_injective_iff.2 (fun _ _ => List.singleton_inj.1) hread.1
  obtain ⟨name, params, body⟩ := p
  cases q
  cases hname
  cases hparams
  cases hread.2
  rfl

/-- A text whose body ends without white space has nothing to trim. -/
theorem trim_text (h : trimEnd p.body = p.body) : trim p.text = p.text := by
  have hstart : trimStart p.text = p.text := trimStart_of_head? (by simp [text, p.isBlank_name])
  obtain ⟨before, hbefore⟩ := exists_afterName_eq p.params p.body
  have hsplit : p.text = (p.name :: before) ++ ':' :: p.body := by rw [text, hbefore]; rfl
  have hcolon : trimEnd (':' :: p.body) = ':' :: p.body := by rw [trimEnd_cons (by decide), h]
  rw [trim, hstart, hsplit, trimEnd_append, hcolon, if_neg (List.cons_ne_nil _ _)]

theorem indent_text : indent p.text = 0 := by
  rw [indent, text, List.takeWhile_cons_of_neg (by simp [p.isBlank_name])]
  rfl

end Parts

variable {line : Text} {lineNumber : Int}

/-- **What is read as a definition is the text of one.** -/
theorem exists_parts_of_parse? {d : Definition} (h : parse? line lineNumber = some d) :
    ∃ p : Parts, trim line = p.text ∧ d = p.definition lineNumber (indent line + 1) := by
  unfold parse? at h
  split at h
  · cases h
  · rename_i name rest htrim
    split at h
    · cases h
    · rename_i params body hrest
      split at h
      · rename_i hvalid
        cases h
        obtain ⟨letters, hletters, rfl, rfl⟩ := exists_of_readRest hrest
        simp only [Bool.and_eq_true, decide_eq_true_eq, Bool.not_eq_true', List.contains_eq_mem,
          decide_eq_false_iff_not] at hvalid
        obtain ⟨⟨hname, hnodup⟩, hbreak⟩ := hvalid
        exact ⟨⟨name, letters, body, hname, hletters, hnodup.of_map _, hbreak⟩, htrim, rfl⟩
      · cases h

/-- **The grammar of definitions.** A line is read as a definition exactly if, trimmed, it is the
text of one, which is then the only one. The definition has the number of the line, and stands in
the column after the white space. All other lines are no definitions. So a definition that is
printed is read back, if its body does not end in white space. -/
theorem parse?_iff_text (line : Text) (lineNumber : Int) :
    (∀ d, parse? line lineNumber = some d ↔
        ∃ p : Parts, trim line = p.text ∧ d = p.definition lineNumber (indent line + 1)) ∧
      (parse? line lineNumber = none ↔ ∀ p : Parts, trim line ≠ p.text) ∧
      (∀ p q : Parts, trim line = p.text → trim line = q.text → p = q) ∧
      ∀ p : Parts, trimEnd p.body = p.body →
        parse? p.text lineNumber = some (p.definition lineNumber 1) := by
  refine ⟨fun d => ⟨exists_parts_of_parse?, ?_⟩, ⟨fun h p hp => ?_, fun h => ?_⟩,
    fun p q hp hq => ?_, fun p hp => ?_⟩
  · rintro ⟨p, hp, rfl⟩
    exact p.parse?_of_trim_eq hp lineNumber
  · rw [p.parse?_of_trim_eq hp] at h
    cases h
  · refine Option.eq_none_iff_forall_ne_some.2 fun d hd => ?_
    obtain ⟨p, hp, -⟩ := exists_parts_of_parse? hd
    exact h p hp
  · exact Parts.text_injective (hp.symm.trans hq)
  · rw [p.parse?_of_trim_eq (p.trim_text hp), p.indent_text]
    rfl

/-- A definition with white space around it and within, and a body in which a colon, a comma and
parentheses stand as in a heading; printed again, it stands in the first column. A parameter that is
named twice makes no definition. -/
theorem parse?_iff_text_spaces :
    parse? "\t f(B,A): g(A):B\u2003".toList 7 =
        some ⟨['f'], [['B'], ['A']], " g(A):B".toList, 7, 3⟩ ∧
      parse? "f(B,A): g(A):B".toList 7 = some ⟨['f'], [['B'], ['A']], " g(A):B".toList, 7, 1⟩ ∧
      ∀ p : Parts, trim "f(A,A):s".toList ≠ p.text := by
  let p : Parts := ⟨'f', ['B', 'A'], " g(A):B".toList, by decide, List.all_eq_true.1 (by decide),
    by decide, by decide⟩
  have htrim : trim "\t f(B,A): g(A):B\u2003".toList = p.text := by decide
  refine ⟨((parse?_iff_text _ 7).1 _).2 ⟨p, htrim, by decide⟩, ?_, ?_⟩
  · exact (parse?_iff_text [] 7).2.2.2 p (by decide)
  · exact ((parse?_iff_text _ 7).2.1).1 (by decide)

end Definition

end RobotMaze
