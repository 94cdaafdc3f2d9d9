import RobotMaze.Proofs.Program.Table
import RobotMaze.Proofs.Renaming.Text

/-!
# Renaming letters in a program

Reading a renamed text gives the renamed program: the same lines are definitions, with renamed
names, parameters and bodies at the same places, and the same lines make up the main program. Two
things depend on names being told apart and not only on what they are. Parameters have to be
pairwise distinct, and a later definition takes the place of an earlier one of its name. Both are
kept because a renaming makes no two names equal.
-/

namespace RobotMaze

open Text Renaming

variable (ρ : Renaming)

/-! ### Definitions -/

namespace Definition

/-- A definition with its letters renamed. -/
def rename (d : Definition) : Definition :=
  { d with name := ρ.text d.name, params := d.params.map ρ.text, body := ρ.text d.body }

/-- Parameters and the text after them, with their letters renamed. -/
def renameRead (read : List Name × Text) : List Name × Text :=
  (read.1.map ρ.text, ρ.text read.2)

theorem readParams_text (t : Text) :
    readParams (ρ.text t) = (readParams t).map (renameRead ρ) := by
  have hclose : ρ.char ')' = ')' := char_of_isMark ρ (by decide)
  have hcomma : ρ.char ',' = ',' := char_of_isMark ρ (by decide)
  fun_induction readParams t with
  | case1 p rest hp =>
    rw [text_cons, text_cons, hclose, readParams, isParameterLetter_char,
      if_pos hp]
    rfl
  | case2 p rest hp =>
    rw [text_cons, text_cons, hclose, readParams, isParameterLetter_char,
      if_neg hp]
    rfl
  | case3 p rest hp ih =>
    rw [text_cons, text_cons, hcomma, readParams, isParameterLetter_char,
      if_pos hp, ih]
    cases readParams rest <;> rfl
  | case4 p rest hp =>
    rw [text_cons, text_cons, hcomma, readParams, isParameterLetter_char,
      if_neg hp]
    rfl
  | case5 t hnoclose hnocomma =>
    rw [readParams]
    · rfl
    · intro p rest ht
      obtain ⟨p', t', rfl, -, ht'⟩ := List.map_eq_cons_iff.1 ht
      obtain ⟨c, rest', rfl, hc, -⟩ := List.map_eq_cons_iff.1 ht'
      rw [char_eq_iff ρ (by decide)] at hc
      exact hnoclose p' rest' (by rw [hc])
    · intro p rest ht
      obtain ⟨p', t', rfl, -, ht'⟩ := List.map_eq_cons_iff.1 ht
      obtain ⟨c, rest', rfl, hc, -⟩ := List.map_eq_cons_iff.1 ht'
      rw [char_eq_iff ρ (by decide)] at hc
      exact hnocomma p' rest' (by rw [hc])

/-- What follows the name of a function starts with a colon or with a parenthesis. -/
theorem readRest_cons (c : Char) (rest : Text) :
    readRest (c :: rest) =
      if c = ':' then some ([], rest)
      else if c = '(' then
        (readParams rest).bind fun read =>
          if read.2.head? = some ':' then some (read.1, read.2.tail) else none
      else none := by
  by_cases hcolon : c = ':'
  · rw [hcolon]
    rfl
  by_cases hopen : c = '('
  · rw [if_neg hcolon, if_pos hopen, hopen, readRest]
    cases readParams rest with
    | none => rfl
    | some read =>
      obtain ⟨params, after⟩ := read
      cases after with
      | nil => rfl
      | cons d after =>
        by_cases hd : d = ':'
        · rw [hd]
          rfl
        · simp [hd]
  · rw [if_neg hcolon, if_neg hopen, readRest]
    · rintro body ⟨⟩
      exact hcolon rfl
    · rintro rest ⟨⟩
      exact hopen rfl

theorem readRest_text (t : Text) : readRest (ρ.text t) = (readRest t).map (renameRead ρ) := by
  cases t with
  | nil => rfl
  | cons c rest =>
    simp (disch := decide) only [text_cons, readRest_cons, char_eq_iff, readParams_text]
    split
    · rfl
    · split
      · cases readParams rest with
        | none => rfl
        | some read =>
          obtain ⟨params, after⟩ := read
          cases after with
          | nil => rfl
          | cons d after =>
            by_cases hd : d = ':'
            · simp [renameRead, hd, char_of_isMark ρ (c := ':') (by decide)]
            · simp [renameRead, hd, char_eq_iff ρ (d := ':') (by decide)]
      · rfl

/-- **Definitions.** A renamed line is a definition if the line is one, and then the renamed one. -/
theorem parse?_text (line : Text) (lineNumber : Int) :
    parse? (ρ.text line) lineNumber = (parse? line lineNumber).map (rename ρ) := by
  have hnodup : ∀ params : List Name, (params.map ρ.text).Nodup ↔ params.Nodup := fun params =>
    List.nodup_map_iff fun _ _ => (text_inj ρ).1
  have hbody : ∀ body : Text, (ρ.text body).contains '\n' = body.contains '\n' := fun body => by
    rw [Bool.eq_iff_iff, List.contains_iff_mem, List.contains_iff_mem,
      mem_text_iff ρ (by decide)]
  unfold parse?
  rw [trim_text]
  cases trim line with
  | nil => rfl
  | cons name rest =>
    simp only [text_cons, readRest_text]
    cases readRest rest with
    | none => rfl
    | some read =>
      simp only [Option.map_some, renameRead, isFunctionLetter_char, hnodup, hbody, indent_text]
      split <;> rfl

end Definition

/-! ### Tables -/

namespace FunctionTable

/-- A table with the letters of its definitions renamed. -/
def rename (table : FunctionTable) : FunctionTable := List.map (Definition.rename ρ) table

/-- A renamed name stands for the renamed definition. -/
theorem get?_rename (table : FunctionTable) (name : Name) :
    (table.rename ρ).get? (ρ.text name) = (table.get? name).map (Definition.rename ρ) := by
  simp only [get?, rename, List.find?_map, Function.comp_def, Definition.rename, text_inj]

theorem insert_rename (table : FunctionTable) (d : Definition) :
    (table.rename ρ).insert (d.rename ρ) = (table.insert d).rename ρ := by
  simp only [insert, rename, List.filter_map, List.map_cons, Function.comp_def]
  simp only [Definition.rename, ne_eq, text_inj]

theorem ofList_rename (definitions : List Definition) :
    ofList (definitions.map (Definition.rename ρ)) = (ofList definitions).rename ρ := by
  have hfold : ∀ table : FunctionTable,
      (definitions.map (Definition.rename ρ)).foldl insert (table.rename ρ) =
        (definitions.foldl insert table).rename ρ := by
    induction definitions with
    | nil => exact fun table => rfl
    | cons d definitions ih =>
      intro table
      rw [List.map_cons, List.foldl_cons, List.foldl_cons, insert_rename, ih]
  exact hfold []

end FunctionTable

/-! ### Programs -/

/-- A part of the main program with its letters renamed. -/
def MainLine.rename (m : MainLine) : MainLine := { m with text := ρ.text m.text }

/-- What a line is, with its letters renamed. -/
def ProgramLine.rename : ProgramLine → ProgramLine
  | .definition d => .definition (d.rename ρ)
  | .main m => .main (m.rename ρ)
  | .blank => .blank

theorem ProgramLine.read_text (lineNumber : Int) (raw : Text) :
    read lineNumber (ρ.text raw) = (read lineNumber raw).rename ρ := by
  unfold read
  rw [Definition.parse?_text]
  cases Definition.parse? raw lineNumber with
  | some d => rfl
  | none =>
    simp only [Option.map_none, trim_text, isEmpty_text, indent_text]
    split <;> rfl

theorem programLines_text (text : Text) :
    programLines (ρ.text text) = (programLines text).map (ProgramLine.rename ρ) := by
  rw [programLines, splitLines_text, List.zipIdx_map, List.map_map, programLines, List.map_map]
  refine List.map_congr_left fun line _ => ?_
  exact ProgramLine.read_text ρ line.2 line.1

namespace Program

/-- A program with its letters renamed. -/
def rename (p : Program) : Program :=
  { functions := p.functions.rename ρ, mainLines := p.mainLines.map (MainLine.rename ρ) }

theorem main_rename (p : Program) : (p.rename ρ).main = ρ.text p.main := by
  rw [main, rename, List.flatMap_map, main, text, List.map_flatMap]
  rfl

/-- **Programs.** Reading a renamed text gives the renamed program. -/
theorem parse_text (text : Text) : parse (ρ.text text) = (parse text).rename ρ := by
  have hdefinition : ∀ line : ProgramLine,
      (line.rename ρ).definition? = line.definition?.map (Definition.rename ρ) := by
    intro line
    cases line <;> rfl
  have hmain : ∀ line : ProgramLine,
      (line.rename ρ).main? = line.main?.map (MainLine.rename ρ) := by
    intro line
    cases line <;> rfl
  simp only [parse, programLines_text, List.filterMap_map, Function.comp_def, hdefinition, hmain,
    ← List.map_filterMap, FunctionTable.ofList_rename, rename]

end Program

end RobotMaze
