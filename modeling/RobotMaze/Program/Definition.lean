import RobotMaze.Text.Blank
import RobotMaze.Text.Lines
import RobotMaze.Transcript

/-!
# Definitions and program text

A line of a program is a definition, a part of the main program, or blank. A definition is a
lower-case letter, optionally followed by pairwise distinct parameters in parentheses, then a colon
and the body:

    f(A,B):body
    g:body

Everything else that is not blank belongs to the main program, trimmed and joined without
separators. Of two definitions of one name the later one counts.
-/

namespace RobotMaze

open Text

/-- The name of a function or a parameter. -/
abbrev Name := Text

/-- The letters that may name a parameter. -/
def isParameterLetter (c : Char) : Bool := 'A' ≤ c && c ≤ 'Z'

/-- The letters that may name a function. -/
def isFunctionLetter (c : Char) : Bool := 'a' ≤ c && c ≤ 'z'

/-- A function: its name, its parameters and its body, with the place where it is defined. -/
structure Definition where
  name : Name
  params : List Name
  body : Text
  /-- The line of the definition, counted from 1; 0 if it does not come from a text. -/
  line : Int := 0
  /-- The column of the definition, counted from 1. -/
  col : Int := 1
deriving DecidableEq, Repr

/-- Reads parameters up to and including the closing parenthesis. -/
def Definition.readParams : Text → Option (List Name × Text)
  | p :: ')' :: rest => if isParameterLetter p then some ([[p]], rest) else none
  | p :: ',' :: rest =>
    if isParameterLetter p then (readParams rest).map fun (ps, after) => ([p] :: ps, after)
    else none
  | _ => none

/-- Reads the parameters and the body that follow the name of a function. -/
def Definition.readRest : Text → Option (List Name × Text)
  | ':' :: body => some ([], body)
  | '(' :: rest =>
    match readParams rest with
    | some (params, ':' :: body) => some (params, body)
    | _ => none
  | _ => none

/-- The definition on a line, if the line is one. -/
def Definition.parse? (line : Text) (lineNumber : Int) : Option Definition :=
  match trim line with
  | [] => none
  | name :: rest =>
    match readRest rest with
    | none => none
    | some (params, body) =>
      if isFunctionLetter name && decide params.Nodup && !body.contains '\n' then
        some ⟨[name], params, body, lineNumber, indent line + 1⟩
      else none

/-- The definitions that a program can call, one for each name. -/
abbrev FunctionTable := List Definition

namespace FunctionTable

/-- The definition of a name. -/
def get? (table : FunctionTable) (name : Name) : Option Definition := table.find? (·.name = name)

/-- The table with a definition in place of what its name stood for. -/
def insert (table : FunctionTable) (d : Definition) : FunctionTable :=
  d :: table.filter (·.name ≠ d.name)

/-- The table of some definitions; a later one wins over an earlier one of its name. -/
def ofList (definitions : List Definition) : FunctionTable := definitions.foldl insert []

/-- A name just defined stands for its new definition, and all other names keep theirs. -/
theorem get?_insert (table : FunctionTable) (d : Definition) (name : Name) :
    get? (insert table d) name = if d.name = name then some d else get? table name := by
  by_cases h : d.name = name
  · simp [get?, insert, h]
  · simp only [get?, insert, List.find?_cons, h, decide_false, if_false, List.find?_filter]
    congr 1
    funext e
    by_cases he : e.name = name <;> simp [he, Ne.symm h]

end FunctionTable

/-- A part of the main program and the place where it starts. -/
structure MainLine where
  line : Int
  col : Int
  text : Text
deriving DecidableEq, Repr

/-- What a line of a program is. -/
inductive ProgramLine where
  | definition (d : Definition)
  | main (m : MainLine)
  | blank
deriving DecidableEq, Repr

namespace ProgramLine

/-- Reads one line. -/
def read (lineNumber : Int) (raw : Text) : ProgramLine :=
  match Definition.parse? raw lineNumber with
  | some d => .definition d
  | none =>
    let body := trim raw
    if body.isEmpty then .blank else .main ⟨lineNumber, indent raw + 1, body⟩

/-- The definition on a line, if it is one. -/
def definition? : ProgramLine → Option Definition
  | .definition d => some d
  | _ => none

/-- The part of the main program on a line, if there is one. -/
def main? : ProgramLine → Option MainLine
  | .main m => some m
  | _ => none

end ProgramLine

/-- The lines of a program text. -/
def programLines (text : Text) : List ProgramLine :=
  ((splitLines text).zipIdx 1).map fun (raw, number) => .read number raw

/-- A program: its functions and the lines of its main part, in order. -/
structure Program where
  functions : FunctionTable
  mainLines : List MainLine
deriving DecidableEq, Repr

namespace Program

/-- The main program. -/
def main (p : Program) : Text := p.mainLines.flatMap (·.text)

/-- Reads a program. -/
def parse (text : Text) : Program :=
  let lines := programLines text
  { functions := .ofList (lines.filterMap ProgramLine.definition?)
    mainLines := lines.filterMap ProgramLine.main? }

/-- What reading a program leaves in the log. -/
def parseRecords (text : Text) : List Record :=
  let p := parse text
  [⟨.debug, "definitions",
    s!"parsed {p.functions.length} definition(s), {p.mainLines.length} main line(s)"⟩]

end Program

end RobotMaze
