import RobotMaze.Check.Search
import RobotMaze.Diagnostic.Basic

/-!
# Checks

A program never fails to run for what it looks like, so some mistakes pass in silence. The checks
look for them in the text alone:

* a line that looks like a definition and is none;
* a function that is defined twice;
* a call of a function that has no definition;
* a call with fewer arguments than the function has parameters.

The first two are found line by line. The last two are found in every piece of text that can be
expanded, and come after them.
-/

namespace RobotMaze

namespace Check

open Text

/-- Whether a trimmed line starts like a definition: a lower-case letter, anything in one pair of
parentheses, and a colon, with white space between them. -/
def looksLikeDefinition : Text → Bool
  | [] => false
  | name :: rest =>
    isFunctionLetter name &&
      match trimStart rest with
      | ':' :: _ => true
      | '(' :: inside =>
        match inside.dropWhile (· ≠ ')') with
        | [] => false
        | _ :: after => (trimStart after).head? = some ':'
      | _ => false

/-- A main line that looks like a definition. -/
def malformedDefinition (m : MainLine) : Diagnostic :=
  { severity := "warning"
    message := "malformed definition runs as part of the main program"
    labels := [⟨⟨m.line, m.col, m.col + m.text.length⟩, some "not a definition", "primary"⟩]
    notes := ["definitions look like 'f:body' or 'f(A,B):body'",
      "parameters are single uppercase letters, each used once"] }

/-- A definition of a name that `previous` has defined. -/
def redefinition (previous d : Definition) : Diagnostic :=
  { severity := "warning"
    message := s!"function '{String.ofList d.name}' is defined more than once"
    labels :=
      [⟨⟨d.line, d.col, d.col + 1⟩, some "redefined here; this definition wins", "primary"⟩,
        ⟨⟨previous.line, previous.col, previous.col + 1⟩, some "previous definition is here",
          "secondary"⟩] }

/-- A call of a function that has no definition. -/
def undefinedCall (name : Char) (span : Span) : Diagnostic :=
  { severity := "warning"
    message := s!"call to undefined function '{name}'"
    labels := [⟨span, some "expands to nothing", "primary"⟩] }

/-- A call of `d` with fewer arguments than it has parameters. -/
def missingArguments (d : Definition) (given : Nat) (span : Span) : Diagnostic :=
  let missing := String.ofList (List.intercalate ", ".toList (d.params.drop given))
  { severity := "note"
    message :=
      s!"'{String.ofList d.name}' takes {d.params.length} argument(s) but {given} given"
    labels := [⟨span, some s!"{missing} left unbound", "primary"⟩,
      ⟨⟨d.line, d.col, d.col + 1⟩, some "defined here", "secondary"⟩] }

/-- The diagnostics that lines give one by one; `table` holds the definitions before them. -/
def lineDiagnostics : FunctionTable → List ProgramLine → List Diagnostic
  | _, [] => []
  | table, .blank :: lines => lineDiagnostics table lines
  | table, .main m :: lines =>
    (if looksLikeDefinition m.text then [malformedDefinition m] else []) ++
      lineDiagnostics table lines
  | table, .definition d :: lines =>
    (match table.get? d.name with
      | none => []
      | some previous => [redefinition previous d]) ++ lineDiagnostics (table.insert d) lines

/-- The column where the body of a definition starts, on a line that holds it. -/
def bodyColumn (raw : Text) (d : Definition) : Int :=
  d.col + ((trim raw).length - d.body.length)

/-- The pieces of text that the lines themselves hold: main lines and bodies. -/
def lineSegments (text : Text) : List Segment :=
  ((splitLines text).zipIdx 1).filterMap fun (raw, number) =>
    match ProgramLine.read number raw with
    | .blank => none
    | .main m => some ⟨m.line, m.col, m.text⟩
    | .definition d => some ⟨d.line, bodyColumn raw d, d.body⟩

/-- The diagnostic of a call, if there is something to say about it. -/
def callDiagnostic (table : FunctionTable) (s : Segment) (call : CallSite) : Option Diagnostic :=
  let span : Span := ⟨s.line, s.col + call.start, s.col + call.stop⟩
  match table.get? [call.name] with
  | none => some (undefinedCall call.name span)
  | some d =>
    if call.args.length < d.params.length then some (missingArguments d call.args.length span)
    else none

/-- The diagnostics of a program text. -/
def diagnostics (text : Text) : List Diagnostic :=
  let table := (Program.parse text).functions
  lineDiagnostics [] (programLines text) ++
    (searched table (lineSegments text)).flatMap fun s =>
      (calls s.text).filterMap (callDiagnostic table s)

end Check

end RobotMaze
