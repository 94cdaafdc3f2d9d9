import RobotMaze.Program.Definition
import RobotMaze.Proofs.Text.Places

/-!
# The functions of a program

The table of a program holds definitions that stand on its lines. This file leads from an entry of
the table back to its line, and says what every definition that is read from a line has: parameters
that are single upper-case letters, a name that the trimmed line starts with, and a body that it
ends with. All of it comes from one fact: what is read after the name can only have been written in
one way (`exists_of_readRest`).
-/

namespace RobotMaze

open Text

namespace FunctionTable

/-- What a name stands for is in the table, under that name. -/
theorem mem_of_get? {table : FunctionTable} {name : Name} {d : Definition}
    (h : table.get? name = some d) : d ∈ table ∧ d.name = name :=
  ⟨List.mem_of_find?_eq_some h, by simpa using List.find?_some h⟩

theorem mem_of_mem_insert {table : FunctionTable} {d e : Definition} (h : e ∈ table.insert d) :
    e = d ∨ e ∈ table := by
  rcases List.mem_cons.1 h with rfl | h
  · exact .inl rfl
  · exact .inr (List.mem_filter.1 h).1

theorem mem_of_mem_foldl_insert {definitions : List Definition} {table : FunctionTable}
    {e : Definition} (h : e ∈ definitions.foldl insert table) : e ∈ table ∨ e ∈ definitions := by
  induction definitions generalizing table with
  | nil => exact .inl h
  | cons d definitions ih =>
    rcases ih h with h | h
    · rcases mem_of_mem_insert h with rfl | h
      · exact .inr List.mem_cons_self
      · exact .inl h
    · exact .inr (List.mem_cons_of_mem d h)

/-- The table of some definitions holds none but these. -/
theorem mem_of_mem_ofList {definitions : List Definition} {e : Definition}
    (h : e ∈ ofList definitions) : e ∈ definitions :=
  (mem_of_mem_foldl_insert h).resolve_left List.not_mem_nil

theorem get?_foldl_insert (definitions : List Definition) (table : FunctionTable) (name : Name) :
    get? (definitions.foldl insert table) name =
      (definitions.reverse.find? (·.name = name)).or (get? table name) := by
  induction definitions generalizing table with
  | nil => rfl
  | cons d definitions ih =>
    rw [List.foldl_cons, ih, get?_insert, List.reverse_cons, List.find?_append, Option.or_assoc]
    by_cases h : d.name = name <;> simp [h]

/-- A name stands for the last definition of it. -/
theorem get?_ofList (definitions : List Definition) (name : Name) :
    get? (ofList definitions) name = definitions.reverse.find? (·.name = name) := by
  rw [ofList, get?_foldl_insert]
  exact Option.or_none

end FunctionTable

namespace Definition

/-- What stands after the name on the line of a definition: parameters in parentheses, if there are
any, then a colon and the body. -/
def afterName (params : List Char) (body : Text) : Text :=
  if params = [] then ':' :: body
  else '(' :: (List.intercalate [','] (params.map fun p => [p]) ++ ')' :: ':' :: body)

/-- The body stands at the end, after a colon. -/
theorem exists_afterName_eq (params : List Char) (body : Text) :
    ∃ before, afterName params body = before ++ ':' :: body := by
  rw [afterName]
  split
  · exact ⟨[], rfl⟩
  · exact ⟨'(' :: (List.intercalate [','] (params.map fun p => [p]) ++ [')']), by simp⟩

/-- Parameters that are read are letters with commas between them. -/
theorem exists_of_readParams {t after : Text} {params : List Name}
    (h : readParams t = some (params, after)) :
    ∃ letters : List Char, letters ≠ [] ∧ (∀ p ∈ letters, isParameterLetter p = true) ∧
      params = letters.map (fun p => [p]) ∧
      t = List.intercalate [','] (letters.map fun p => [p]) ++ ')' :: after := by
  fun_induction readParams t generalizing params with
  | case1 p rest hp =>
    cases h
    exact ⟨[p], by simp, by simpa using hp, rfl, rfl⟩
  | case2 => cases h
  | case3 p rest hp ih =>
    obtain ⟨⟨ps, after'⟩, hps, hcons⟩ := Option.map_eq_some_iff.1 h
    cases hcons
    obtain ⟨letters, hne, hletters, rfl, rfl⟩ := ih hps
    obtain ⟨q, letters, rfl⟩ := List.exists_cons_of_ne_nil hne
    refine ⟨p :: q :: letters, by simp, List.forall_mem_cons.2 ⟨hp, hletters⟩, rfl, ?_⟩
    simp only [List.map_cons, List.intercalate_cons_cons]
    rfl
  | case4 => cases h
  | case5 => cases h

/-- What is read after the name is what a definition has there. -/
theorem exists_of_readRest {t body : Text} {params : List Name}
    (h : readRest t = some (params, body)) :
    ∃ letters : List Char, (∀ p ∈ letters, isParameterLetter p = true) ∧
      params = letters.map (fun p => [p]) ∧ t = afterName letters body := by
  unfold readRest at h
  split at h
  · cases h
    exact ⟨[], by simp, rfl, rfl⟩
  · split at h
    · rename_i hparams
      cases h
      obtain ⟨letters, hne, hletters, rfl, rfl⟩ := exists_of_readParams hparams
      exact ⟨letters, hletters, rfl, (if_neg hne).symm⟩
    · cases h
  · cases h

/-- The parameters of a definition that is read from a line are upper-case letters. -/
theorem letter_of_parse? {line : Text} {lineNumber : Int} {d : Definition}
    (h : parse? line lineNumber = some d) :
    ∀ name ∈ d.params, ∃ c, name = [c] ∧ isParameterLetter c = true := by
  unfold parse? at h
  split at h
  · cases h
  · split at h
    · cases h
    · rename_i hrest
      split at h
      · cases h
        obtain ⟨letters, hletters, rfl, -⟩ := exists_of_readRest hrest
        intro name hname
        obtain ⟨c, hc, rfl⟩ := List.mem_map.1 hname
        exact ⟨c, rfl, hletters c hc⟩
      · cases h

/-- The place of a definition on its line: the name is the first character of the trimmed line, and
the body is at its end. -/
theorem place_of_parse? {line : Text} {lineNumber : Int} {d : Definition}
    (h : parse? line lineNumber = some d) :
    d.line = lineNumber ∧ d.col = indent line + 1 ∧
      ∃ c rest, trim line = c :: rest ∧ d.name = [c] ∧ d.body <:+ rest := by
  unfold parse? at h
  split at h
  · cases h
  · rename_i c rest htrim
    split at h
    · cases h
    · rename_i hrest
      split at h
      · cases h
        obtain ⟨letters, -, -, rfl⟩ := exists_of_readRest hrest
        obtain ⟨before, hbefore⟩ := exists_afterName_eq letters _
        refine ⟨rfl, rfl, c, _, htrim, rfl, ?_⟩
        exact hbefore ▸ (List.suffix_cons _ _).trans (List.suffix_append before _)
      · cases h

end Definition

/-- A line of the main program is trimmed and not blank. -/
theorem ProgramLine.eq_of_read_main {number : Int} {raw : Text} {m : MainLine}
    (h : read number raw = .main m) :
    m = ⟨number, indent raw + 1, trim raw⟩ ∧ trim raw ≠ [] := by
  unfold read at h
  split at h
  · cases h
  · simp only at h
    split at h
    · cases h
    · rename_i hne
      cases h
      exact ⟨rfl, by simpa using hne⟩

theorem ProgramLine.definition?_eq_some_iff {line : ProgramLine} {d : Definition} :
    line.definition? = some d ↔ line = .definition d := by
  cases line <;> simp [definition?]

theorem ProgramLine.main?_eq_some_iff {line : ProgramLine} {m : MainLine} :
    line.main? = some m ↔ line = .main m := by
  cases line <;> simp [main?]

/-- The definition on a line is the one that is read from it. -/
theorem ProgramLine.definition?_read (number : Int) (raw : Text) :
    (read number raw).definition? = Definition.parse? raw number := by
  unfold read
  cases Definition.parse? raw number with
  | some d => rfl
  | none =>
    simp only
    split <;> rfl

/-- A definition among the lines of a text is read from a line. -/
theorem exists_parse?_of_mem {text : Text} {d : Definition}
    (h : d ∈ (programLines text).filterMap ProgramLine.definition?) :
    ∃ raw number, Definition.parse? raw number = some d := by
  obtain ⟨line, hline, hd⟩ := List.mem_filterMap.1 h
  obtain ⟨⟨raw, number⟩, -, rfl⟩ := List.mem_map.1 hline
  exact ⟨raw, number, ProgramLine.definition?_read number raw ▸ hd⟩

/-- The parameters of the functions of a program are upper-case letters. -/
theorem Program.letter_of_mem_functions {text : Text} {d : Definition}
    (h : d ∈ (parse text).functions) :
    ∀ name ∈ d.params, ∃ c, name = [c] ∧ isParameterLetter c = true := by
  obtain ⟨raw, number, hparse⟩ := exists_parse?_of_mem (FunctionTable.mem_of_mem_ofList h)
  exact Definition.letter_of_parse? hparse

end RobotMaze
