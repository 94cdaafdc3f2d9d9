import RobotMaze.Numeral
import RobotMaze.Settings

/-!
# Command-line arguments

A word that starts with a dash is an option, unless it is a lone dash or a negative number, or holds
a blank and is no option that is known. An option may be shortened to a beginning that no other
option has. Its value is the next word, or follows an equals sign in the same word. After the word
`--` there are no options, and as a value after an equals sign it leaves an option blank.

A word may go on after the short spelling of an option, directly or behind an equals sign. What
follows are letters of short options, and as help is the only one, they can only ask for help again.

Words that are no options fill the places of `level` and `program`. Both are filled from the first
run of such words, so a program cannot follow later; words left over are unrecognized.

Options take effect from left to right, and the first mistake is reported. Before that, every word
is classified, so an ambiguous option is reported before anything else.
-/

namespace RobotMaze

namespace CommandLine

open Text

/-- The options that are known. -/
inductive Switch where
  | help
  | solutions
  | delay
  | maxSteps
  | maxDepth
  | quiet
  | check
  | noColor
  | logLevel
deriving DecidableEq, Repr

namespace Switch

/-- Every spelling of an option. -/
def spellings : List (String × Switch) :=
  [("-h", .help), ("--help", .help), ("--solutions", .solutions), ("--delay", .delay),
    ("--max-steps", .maxSteps), ("--max-depth", .maxDepth), ("--quiet", .quiet),
    ("--check", .check), ("--no-color", .noColor), ("--log-level", .logLevel)]

/-- All spellings of one option, as messages show them. -/
def display (s : Switch) : String :=
  "/".intercalate ((spellings.filter (·.2 = s)).map (·.1))

/-- Whether an option is followed by a value. -/
def takesValue : Switch → Bool
  | .solutions => true
  | .delay => true
  | .maxSteps => true
  | .maxDepth => true
  | .logLevel => true
  | _ => false

end Switch

/-- The log levels that can be asked for. -/
def logLevels : List String := ["DEBUG", "INFO", "WARNING", "ERROR"]

/-- A mistake in the arguments. -/
inductive UsageError where
  | ambiguous (word : Text) (candidates : List String)
  | expectedValue (s : Switch)
  | invalidInteger (s : Switch) (value : Text)
  | invalidDecimal (s : Switch) (value : Text)
  | invalidChoice (s : Switch) (value : Text)
  | unexpectedValue (s : Switch) (value : Text)
  | missingLevel
  | unrecognized (words : List Text)
deriving DecidableEq, Repr

/-- The wording of a mistake. -/
def UsageError.message : UsageError → String
  | .ambiguous word candidates =>
    let matching := ", ".intercalate candidates
    s!"ambiguous option: {String.ofList word} could match {matching}"
  | .expectedValue s => s!"argument {s.display}: expected one argument"
  | .invalidInteger s value => s!"argument {s.display}: invalid int value: {quotedString value}"
  | .invalidDecimal s value => s!"argument {s.display}: invalid float value: {quotedString value}"
  | .invalidChoice s value =>
    let choices := ", ".intercalate (logLevels.map fun level => quotedString level.toList)
    s!"argument {s.display}: invalid choice: {quotedString value} (choose from {choices})"
  | .unexpectedValue s value =>
    s!"argument {s.display}: ignored explicit argument {quotedString value}"
  | .missingLevel => "the following arguments are required: level"
  | .unrecognized words =>
    let listed := " ".intercalate (words.map String.ofList)
    s!"unrecognized arguments: {listed}"

/-- The value that a word gives to the option that it holds. -/
inductive Attached where
  /-- There is none. -/
  | nothing
  /-- It follows an equals sign. -/
  | assigned (value : Text)
  /-- It follows the letter of a short option, and is made of such letters itself. -/
  | letters (value : Text)
deriving DecidableEq, Repr

/-- What a word is. -/
inductive Word where
  /-- A word that is no option. -/
  | plain (text : Text)
  /-- The word `--`. -/
  | separator
  /-- An option that is known. -/
  | option (s : Switch) (attached : Attached)
  /-- A word that looks like an option and is none that is known. -/
  | unknown (text : Text)
deriving DecidableEq, Repr

/-- The word `--`. -/
def separatorText : Text := ['-', '-']

/-- The word as it was written, for words that are no known options. -/
def Word.text : Word → Text
  | .plain t => t
  | .unknown t => t
  | .separator => separatorText
  | .option _ _ => []

/-- Whether a word is an option, known or not. -/
def Word.isOption : Word → Bool
  | .option _ _ => true
  | .unknown _ => true
  | _ => false

/-- The option of a spelling. -/
def Switch.ofSpelling? (t : Text) : Option Switch := Switch.spellings.lookup (String.ofList t)

/-- Whether a word is a dash and a number: digits, or digits with a point before the last of them. A
line feed at the end does not count. -/
def isNegativeNumber : Text → Bool
  | '-' :: number =>
    let digits := if number.getLast? = some '\n' then number.dropLast else number
    let afterWhole := digits.dropWhile isDigit
    match afterWhole with
    | [] => !digits.isEmpty
    | '.' :: fraction => !fraction.isEmpty && fraction.all isDigit
    | _ => false
  | _ => false

/-- A word divided at its first equals sign. After a short spelling, a value that is not empty is
made of letters. -/
def assignment (word : Text) : Text × Attached :=
  let name := word.takeWhile (· ≠ '=')
  match word.dropWhile (· ≠ '=') with
  | [] => (name, .nothing)
  | _ :: value =>
    if separatorText.isPrefixOf name || value.isEmpty then (name, .assigned value)
    else (name, .letters value)

/-- The options whose spelling starts as a word does, and the value that the word gives to them. -/
def candidates (word : Text) : List (String × Switch × Attached) :=
  if separatorText.isPrefixOf word then
    let (name, attached) := assignment word
    (Switch.spellings.filter fun (spelling, _) => name.isPrefixOf spelling.toList).map
      fun (spelling, s) => (spelling, s, attached)
  else
    Switch.spellings.filterMap fun (spelling, s) =>
      if spelling.toList = word.take 2 then some (spelling, s, .letters (word.drop 2))
      else if word.isPrefixOf spelling.toList then some (spelling, s, .nothing)
      else none

/-- Tells what a word is, before the word `--`. -/
def classifyWord (word : Text) : Except UsageError Word :=
  if word.head? ≠ some '-' then .ok (.plain word)
  else match Switch.ofSpelling? word with
    | some s => .ok (.option s .nothing)
    | none =>
      if word.length = 1 then .ok (.plain word)
      else
        let (name, attached) := assignment word
        match Switch.ofSpelling? name with
        | some s => .ok (.option s attached)
        | none =>
          match candidates word with
          | [(_, s, attached)] => .ok (.option s attached)
          | [] =>
            if isNegativeNumber word || word.contains ' ' then .ok (.plain word)
            else .ok (.unknown word)
          | several => .error (.ambiguous word (several.map (·.1)))

/-- Tells what each word is. -/
def classify : List Text → Except UsageError (List Word)
  | [] => .ok []
  | word :: rest =>
    if word = separatorText then .ok (.separator :: rest.map .plain)
    else do
      let first ← classifyWord word
      let others ← classify rest
      return first :: others

/-- What the arguments ask for. A setting that may be `none` was left blank if it is. -/
structure Options where
  /-- The file of the level. -/
  level : Text := []
  /-- The file of the program. -/
  program : Option Text := none
  /-- The directory of solutions. -/
  solutions : Option Text := none
  /-- The time between frames, in seconds. -/
  delay : Option Decimal := some .zero
  maxSteps : Option Int
  maxDepth : Option Int
  quiet : Bool := false
  check : Bool := false
  noColor : Bool := false
  logLevel : Option Text
deriving DecidableEq, Repr

/-- The options before any argument is read. -/
def Options.ofSettings (s : Settings) : Options :=
  { maxSteps := some s.maxSteps, maxDepth := some s.maxDepth, logLevel := some s.logLevel }

/-- The arguments read so far. -/
structure Progress where
  options : Options
  /-- Whether `level` and `program` have been filled. -/
  filled : Bool := false
  /-- Words that found no place. -/
  extras : List Text := []

/-- Leaves an option blank. -/
def setBlank (o : Options) : Switch → Options
  | .solutions => { o with solutions := none }
  | .delay => { o with delay := none }
  | .maxSteps => { o with maxSteps := none }
  | .maxDepth => { o with maxDepth := none }
  | .logLevel => { o with logLevel := none }
  | _ => o

/-- Sets an option that is followed by a value. -/
def setValue (o : Options) (s : Switch) (value : Text) : Except UsageError Options :=
  if value = separatorText then .ok (setBlank o s)
  else match s with
  | .solutions => .ok { o with solutions := some value }
  | .delay =>
    match Decimal.ofText? value with
    | some delay => .ok { o with delay := some delay }
    | none => .error (.invalidDecimal s value)
  | .maxSteps =>
    match Numeral.integer? value with
    | some maxSteps => .ok { o with maxSteps := some maxSteps }
    | none => .error (.invalidInteger s value)
  | .maxDepth =>
    match Numeral.integer? value with
    | some maxDepth => .ok { o with maxDepth := some maxDepth }
    | none => .error (.invalidInteger s value)
  | .logLevel =>
    if logLevels.contains (String.ofList value) then .ok { o with logLevel := some value }
    else .error (.invalidChoice s value)
  | _ => .ok o

/-- Sets an option that stands alone. -/
def setFlag (o : Options) : Switch → Options
  | .quiet => { o with quiet := true }
  | .check => { o with check := true }
  | .noColor => { o with noColor := true }
  | _ => o

/-- Checks the letters after the short spelling of an option: each is a short option too. From the
first one that is none, they are refused. -/
def checkLetters (s : Switch) (letters : Text) : Except UsageError Unit :=
  match letters.dropWhile fun c => (Switch.ofSpelling? ['-', c]).isSome with
  | [] => .ok ()
  | refused => .error (.unexpectedValue s refused)

/-- What the first words of a run of words that are no options give: the level, the program if there
is one, and the words left over. -/
def takePlaces (words : List Word) : Option (Text × Option Text × List Word) :=
  match words.dropWhile (· = .separator) with
  | .plain level :: rest =>
    match rest.dropWhile (· = .separator) with
    | .plain program :: others =>
      some (level, if program = separatorText then none else some program,
        others.dropWhile (· = .separator))
    | others => some (level, none, others)
  | _ => none

/-- Reads a run of words that are no options. -/
def readPlain (p : Progress) (words : List Word) : Progress :=
  if p.filled then { p with extras := p.extras ++ words.map Word.text }
  else match takePlaces words with
    | none => { p with extras := p.extras ++ words.map Word.text }
    | some (level, program, others) =>
      { options := { p.options with level, program }
        filled := true
        extras := p.extras ++ others.map Word.text }

/-- What reading the arguments comes to. -/
inductive Request where
  /-- To show the help text. -/
  | help
  /-- To run with these options. -/
  | run (o : Options)
deriving DecidableEq, Repr

/-- Reads words to their end. -/
def readWords (p : Progress) (words : List Word) : Except UsageError Request :=
  match words with
  | [] =>
    if !p.filled then .error .missingLevel
    else if !p.extras.isEmpty then .error (.unrecognized p.extras)
    else .ok (.run p.options)
  | .unknown text :: rest => readWords { p with extras := p.extras ++ [text] } rest
  | .option s attached :: rest =>
    if s.takesValue then
      match attached with
      | .nothing =>
        match rest with
        | .plain value :: rest' => do
          readWords { p with options := ← setValue p.options s value } rest'
        | _ => .error (.expectedValue s)
      | .assigned value => do readWords { p with options := ← setValue p.options s value } rest
      | .letters value => do readWords { p with options := ← setValue p.options s value } rest
    else
      match attached with
      | .assigned value => .error (.unexpectedValue s value)
      | .letters value => do
        checkLetters s value
        return .help
      | .nothing =>
        if s = .help then .ok .help
        else readWords { p with options := setFlag p.options s } rest
  | word :: rest =>
    let run := word :: rest.takeWhile (!·.isOption)
    have := (List.dropWhile_suffix (l := rest) (!·.isOption)).length_le
    readWords (readPlain p run) (rest.dropWhile (!·.isOption))
termination_by words.length
decreasing_by all_goals (simp only [List.length_cons]; omega)

/-- Reads the arguments of a command line. -/
def parse (settings : Settings) (arguments : List Text) : Except UsageError Request := do
  readWords { options := .ofSettings settings } (← classify arguments)

end CommandLine

end RobotMaze
