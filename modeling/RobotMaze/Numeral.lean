import RobotMaze.Text.Blank
import RobotMaze.Text.Digit

/-!
# Numerals

Numbers are written in decimal digits of any script, and a numeral may have 4300 of them at most.
There are three grammars:

* `signed?`, an optional sign and digits, is what program text uses;
* `integer?` also allows white space around the numeral and single underscores between digits, and
  is used for numbers that come from outside;
* `Decimal.ofText?` reads a decimal fraction with an optional exponent, the infinities, or the
  undefined number.

The same bound holds for a number that is to be written out (`Writable`). Whatever counts
characters, lines or instructions stays far below it, but a limit that is set from outside need not.
For the depth limit of a run the bound is observed (`ExpansionError.raised`). The step limit of a
run and the places in a diagnostic are written out whatever their length
(`Simulation.maxStepsMessage`, `Renderer.decimal`).
-/

namespace RobotMaze

namespace Numeral

open Text

/-- The number of digits that a numeral may have. -/
def maxDigits : Nat := 4300

/-- A number has more digits than `maxDigits`. -/
inductive TooLong where
  /-- It is to be read, from a numeral of so many digits. -/
  | reading (digits : Nat)
  /-- It is to be written out. -/
  | writing
deriving DecidableEq, Repr

/-- The wording of the error. -/
def TooLong.message (e : TooLong) : String :=
  let found :=
    match e with
    | .reading digits => s!": value has {digits} digits"
    | .writing => ""
  s!"Exceeds the limit ({maxDigits} digits) for integer string conversion{found}; " ++
    "use sys.set_int_max_str_digits() to increase the limit"

/-- A number that has few enough digits to be written out. -/
def Writable (n : Int) : Prop := n.natAbs < Nat.pow 10 maxDigits

instance (n : Int) : Decidable (Writable n) := inferInstanceAs (Decidable (_ < _))

theorem writable_of_natAbs_le {n : Int} (h : n.natAbs ≤ maxDigits) : Writable n := by
  have hpow : ∀ k, k < Nat.pow 10 k := fun k => Nat.lt_pow_self (by decide)
  exact Nat.lt_of_le_of_lt h (hpow maxDigits)

/-- Splits a leading sign off; `true` stands for minus. -/
def splitSign : Text → Bool × Text
  | '-' :: rest => (true, rest)
  | '+' :: rest => (false, rest)
  | t => (false, t)

/-- A number with the sign given. -/
def withSign (negative : Bool) (n : Nat) : Int := if negative then -n else n

/-- A sign and the digits after it, if the text is an optional sign and one digit or more. -/
def signed? (t : Text) : Option (Bool × Text) :=
  let (negative, digits) := splitSign t
  if !digits.isEmpty && digits.all isDigit then some (negative, digits) else none

/-- The value of a sign and digits. -/
def value (negative : Bool) (digits : Text) : Except TooLong Int :=
  if maxDigits < digits.length then .error (.reading digits.length)
  else .ok (withSign negative (digitsValue digits))

/-- White space that may stand around a numeral: all of it but the information separators. -/
def isPadding (c : Char) : Bool := isBlank c && !(0x1C ≤ c.toNat && c.toNat ≤ 0x1F)

/-- The text without padding at its ends. -/
def stripPadding (t : Text) : Text :=
  ((t.dropWhile isPadding).reverse.dropWhile isPadding).reverse

/-- The text without underscores, if each of them stands between two digits. -/
def dropUnderscores? (t : Text) : Option Text :=
  let rec go (afterDigit : Bool) : Text → Option Text
    | [] => some []
    | '_' :: d :: rest =>
      if afterDigit && isDigit d then (go true rest).map (d :: ·) else none
    | c :: rest => if c = '_' then none else (go (isDigit c) rest).map (c :: ·)
  go false t

/-- The integer that a text from outside spells. -/
def integer? (t : Text) : Option Int := do
  let plain ← dropUnderscores? (stripPadding t)
  let (negative, digits) ← signed? plain
  (value negative digits).toOption

end Numeral

/-- A decimal fraction, an infinity or the undefined number. -/
inductive Decimal where
  /-- The number `mantissa * 10 ^ exponent`, negated if `negative`. -/
  | finite (negative : Bool) (mantissa : Nat) (exponent : Int)
  | infinite (negative : Bool)
  | undefined
deriving DecidableEq, Repr

namespace Decimal

open Text

/-- Zero. -/
def zero : Decimal := .finite false 0 0

/-- Whether a number is greater than zero. -/
def isPositive : Decimal → Bool
  | .finite negative mantissa _ => !negative && mantissa != 0
  | .infinite negative => !negative
  | .undefined => false

/-- The number `mantissa * 10 ^ exponent`, rounded down. A divisor with more decimal digits than the
mantissa has binary ones is not worked out. -/
def scale (mantissa : Nat) (exponent : Int) : Nat :=
  if 0 ≤ exponent then mantissa * Nat.pow 10 exponent.toNat
  else if mantissa.log2 < (-exponent).toNat then 0
  else mantissa / Nat.pow 10 (-exponent).toNat

/-- A positive number of seconds in whole milliseconds; anything else counts as zero. -/
def milliseconds : Decimal → Nat
  | .finite false mantissa exponent => scale mantissa (exponent + 3)
  | _ => 0

/-- Whether a number of seconds is longer than a clock can count, which has 63 bits for the
nanoseconds. From ten powers of ten on, every positive number is. -/
def isEndless : Decimal → Bool
  | .finite negative mantissa exponent =>
    !negative && mantissa != 0 &&
      (decide (10 ≤ exponent) || decide (Nat.pow 2 63 ≤ scale mantissa (exponent + 9)))
  | .infinite negative => !negative
  | .undefined => false

/-- The exponent that stands at the end of a numeral; nothing stands for zero. -/
def exponent? : Text → Option Int
  | [] => some 0
  | e :: rest =>
    if e = 'e' || e = 'E' then
      (Numeral.signed? rest).map fun (negative, digits) =>
        Numeral.withSign negative (digitsValue digits)
    else none

/-- Digits with an optional point among them, at least one digit, and an optional exponent. -/
def unsigned? (negative : Bool) (t : Text) : Option Decimal :=
  let whole := t.takeWhile isDigit
  let afterWhole := t.dropWhile isDigit
  let (fraction, afterFraction) :=
    match afterWhole with
    | '.' :: rest => (rest.takeWhile isDigit, rest.dropWhile isDigit)
    | _ => ([], afterWhole)
  if whole.isEmpty && fraction.isEmpty then none
  else (exponent? afterFraction).map fun exponent =>
    .finite negative (digitsValue (whole ++ fraction)) (exponent - fraction.length)

/-- The number that a text spells. -/
def ofText? (t : Text) : Option Decimal := do
  let plain ← Numeral.dropUnderscores? (Numeral.stripPadding t)
  let (negative, unsigned) := Numeral.splitSign plain
  match String.ofList (unsigned.map Char.toLower) with
  | "inf" => some (.infinite negative)
  | "infinity" => some (.infinite negative)
  | "nan" => some .undefined
  | _ => unsigned? negative unsigned

end Decimal

end RobotMaze
