import RobotMaze.Text.Quoted

/-!
# UTF-8

Files hold bytes; the library reads and writes them as UTF-8. Reading is strict: a lead byte fixes
how many continuation bytes follow and which values the first of them may take, so that overlong
forms, surrogates and code points past the last one are refused. An error names the bytes from the
lead byte to the last one read, and what was wrong with the next.
-/

namespace RobotMaze

/-- The contents of a file. -/
abbrev Bytes := List UInt8

namespace Utf8

/-- The bytes of a text. -/
def encode (t : Text) : Bytes := t.flatMap String.utf8EncodeChar

/-- What makes a run of bytes no character. -/
inductive Fault where
  /-- No character starts with this byte. -/
  | badStart
  /-- A continuation byte was due, and another one came. -/
  | badContinuation
  /-- The data ends inside a character. -/
  | cutShort
deriving DecidableEq, Repr

/-- The wording of a fault. -/
def Fault.message : Fault → String
  | .badStart => "invalid start byte"
  | .badContinuation => "invalid continuation byte"
  | .cutShort => "unexpected end of data"

/-- Bytes that cannot be read: the first of them, the positions of first and last, and why. -/
structure DecodeError where
  byte : UInt8
  first : Nat
  last : Nat
  fault : Fault
deriving DecidableEq, Repr

/-- The wording of a decoding error: a single byte is shown, several are counted. -/
def DecodeError.message (e : DecodeError) : String :=
  let reason := e.fault.message
  let position := e.first
  if e.first = e.last then
    let digits := String.ofList (Text.hexadecimal 2 e.byte.toNat)
    s!"'utf-8' codec can't decode byte 0x{digits} in position {position}: {reason}"
  else
    let final := e.last
    s!"'utf-8' codec can't decode bytes in position {position}-{final}: {reason}"

/-- A character whose lead byte has been read. -/
structure Pending where
  /-- The lead byte. -/
  lead : UInt8
  /-- The position of the lead byte. -/
  first : Nat
  /-- How many continuation bytes are still due. -/
  due : Nat
  /-- The least value that the next byte may take. -/
  least : Nat
  /-- The greatest value that the next byte may take. -/
  greatest : Nat
  /-- The bits of the code point read so far. -/
  code : Nat

/-- What a lead byte at position `pos` announces, unless no character starts with it. -/
def Pending.ofLead? (pos : Nat) (lead : UInt8) : Option Pending :=
  let b := lead.toNat
  if 0xC2 ≤ b && b ≤ 0xDF then some ⟨lead, pos, 1, 0x80, 0xBF, b - 0xC0⟩
  else if 0xE0 ≤ b && b ≤ 0xEF then
    some ⟨lead, pos, 2, if b = 0xE0 then 0xA0 else 0x80, if b = 0xED then 0x9F else 0xBF, b - 0xE0⟩
  else if 0xF0 ≤ b && b ≤ 0xF4 then
    some ⟨lead, pos, 3, if b = 0xF0 then 0x90 else 0x80, if b = 0xF4 then 0x8F else 0xBF, b - 0xF0⟩
  else none

/-- A pending character after one more continuation byte. -/
def Pending.extend (p : Pending) (b : UInt8) : Pending :=
  { p with
    due := p.due - 1
    least := 0x80
    greatest := 0xBF
    code := 64 * p.code + (b.toNat - 0x80) }

/-- Reads the bytes from position `pos` on, inside the character `pending` if there is one. -/
def decodeFrom : Nat → Option Pending → Bytes → Except DecodeError Text
  | _, none, [] => .ok []
  | pos, some p, [] => .error ⟨p.lead, p.first, pos - 1, .cutShort⟩
  | pos, none, b :: rest =>
    if b.toNat < 0x80 then (decodeFrom (pos + 1) none rest).map (Char.ofNat b.toNat :: ·)
    else match Pending.ofLead? pos b with
      | none => .error ⟨b, pos, pos, .badStart⟩
      | some p => decodeFrom (pos + 1) (some p) rest
  | pos, some p, b :: rest =>
    if p.least ≤ b.toNat && b.toNat ≤ p.greatest then
      let p' := p.extend b
      if p'.due = 0 then (decodeFrom (pos + 1) none rest).map (Char.ofNat p'.code :: ·)
      else decodeFrom (pos + 1) (some p') rest
    else .error ⟨p.lead, p.first, pos - 1, .badContinuation⟩

/-- The text that bytes spell. -/
def decode (bytes : Bytes) : Except DecodeError Text := decodeFrom 0 none bytes

end Utf8

end RobotMaze
