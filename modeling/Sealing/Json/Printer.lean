import Sealing.Json.Record

/-!
# Printing records

A record is written as an object with its members in order and without blanks. Texts escape the
quotation mark, the backslash and the control characters, the common ones by one letter. The
printed form is a list of pieces, because it is handed to a stream piece by piece.
-/

namespace Sealing.Json

/-- The digit of a four-bit value, in lower case. -/
def hexDigit (n : Nat) : Char := Char.ofNat (if n < 10 then 0x30 + n else 0x57 + n)

/-- A character inside a text literal. -/
def escaped (c : Char) : List Char :=
  if c = '"' then ['\\', '"']
  else if c = '\\' then ['\\', '\\']
  else if c.toNat = 0x08 then ['\\', 'b']
  else if c.toNat = 0x0C then ['\\', 'f']
  else if c = '\n' then ['\\', 'n']
  else if c = '\r' then ['\\', 'r']
  else if c = '\t' then ['\\', 't']
  else if c.toNat < 0x20 then
    ['\\', 'u', '0', '0', hexDigit (c.toNat / 16), hexDigit (c.toNat % 16)]
  else [c]

/-- A text literal. -/
def literal (s : String) : List Char := '"' :: s.toList.flatMap escaped ++ ['"']

/-- The written form of a value. -/
def Kind.render : (kind : Kind) → kind.Carrier → List Char
  | text, s => literal s
  | count, n => Nat.toDigits 10 n.toNat

namespace Record

/-- The members in order, each after what separates it from the one before. -/
def memberPieces : (ms : Members) → (separator : List Char) → Record ms → List (List Char)
  | [], _, _ => []
  | m :: ms, separator, (v, r) =>
    separator :: literal m.1 :: [':'] :: m.2.render v :: memberPieces ms [','] r

/-- The written form of a record in pieces. -/
def pieces (ms : Members) (r : Record ms) : List (List Char) :=
  memberPieces ms ['\x7b'] r ++ [['\x7d']]

/-- The written form of a record. -/
def render (ms : Members) (r : Record ms) : String := String.ofList (pieces ms r).flatten

end Record

end Sealing.Json
