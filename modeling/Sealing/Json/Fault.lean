import Sealing.Bytes.Ascii
import Sealing.Decimal.Shortest
import Sealing.Text.Quoted

/-!
# Faults of JSON texts

A fault is a cause and a place. While a text is read, the place is kept as the number of bytes that
lie behind it, which a reader of a suffix knows without knowing the whole text; it becomes a line
and a column when the fault is reported.
-/

namespace Sealing.Json

/-- A value that was found where another kind was expected. -/
inductive Found where
  | null
  | boolean (b : Bool)
  | unsigned (n : Nat)
  | signed (n : Int)
  | fraction (x : Float)
  | text (s : String)
  | sequence
  | map

/-- How a found value is named in a message. -/
def Found.describe : Found → String
  | null => "null"
  | boolean b => s!"boolean `{b}`"
  | unsigned n => s!"integer `{n}`"
  | signed n => s!"integer `{n}`"
  | fraction x => s!"floating point `{Decimal.floatText x}`"
  | text s => s!"string {Text.quoted s}"
  | sequence => "sequence"
  | map => "map"

/-- Why a text is not the JSON form of the expected record. -/
inductive Cause where
  | eofValue
  | eofString
  | eofList
  | eofObject
  | expectedColon
  | expectedListCommaOrEnd
  | expectedObjectCommaOrEnd
  | expectedIdent
  | expectedValue
  | keyMustBeString
  | invalidEscape
  | invalidNumber
  | numberOutOfRange
  | invalidCodePoint
  | controlCharacter
  | loneSurrogate
  | unexpectedEndOfHexEscape
  | trailingComma
  | trailingCharacters
  | missingField (name : String)
  | duplicateField (name : String)
  | invalidLength (length : Nat) (expected : String)
  | invalidType (found : Found) (expected : String)
  | invalidValue (found : Found) (expected : String)

/-- The text of a cause. -/
def Cause.message : Cause → String
  | eofValue => "EOF while parsing a value"
  | eofString => "EOF while parsing a string"
  | eofList => "EOF while parsing a list"
  | eofObject => "EOF while parsing an object"
  | expectedColon => "expected `:`"
  | expectedListCommaOrEnd => "expected `,` or `]`"
  | expectedObjectCommaOrEnd => "expected `,` or `\x7d`"
  | expectedIdent => "expected ident"
  | expectedValue => "expected value"
  | keyMustBeString => "key must be a string"
  | invalidEscape => "invalid escape"
  | invalidNumber => "invalid number"
  | numberOutOfRange => "number out of range"
  | invalidCodePoint => "invalid unicode code point"
  | controlCharacter => "control character (\\u0000-\\u001F) found while parsing a string"
  | loneSurrogate => "lone leading surrogate in hex escape"
  | unexpectedEndOfHexEscape => "unexpected end of hex escape"
  | trailingComma => "trailing comma"
  | trailingCharacters => "trailing characters"
  | missingField name => s!"missing field `{name}`"
  | duplicateField name => s!"duplicate field `{name}`"
  | invalidLength length expected => s!"invalid length {length}, expected {expected}"
  | invalidType found expected => s!"invalid type: {found.describe}, expected {expected}"
  | invalidValue found expected => s!"invalid value: {found.describe}, expected {expected}"

/-- A cause, and the number of bytes of the text that lie behind its place. -/
structure Fault where
  cause : Cause
  behind : Nat

/-- A fault just before `rest`. -/
def Fault.before (cause : Cause) (rest : Bytes) : Fault := ⟨cause, rest.length⟩

/-- A fault at the first byte of `rest`, or at the end of the text if there is none. -/
def Fault.at (cause : Cause) (rest : Bytes) : Fault := ⟨cause, rest.length - 1⟩

/-- A reader consumes the front of a byte string. -/
abbrev Reader (α : Type) := Bytes → Except Fault (α × Bytes)

/-- A cause and its place in the text, with lines counted from one. -/
structure Error where
  cause : Cause
  line : Nat
  column : Nat

/-- The text of an error. -/
def Error.message (e : Error) : String :=
  s!"{e.cause.message} at line {e.line} column {e.column}"

/-- Finds the line and column of a fault: the line feeds before it, and the bytes since the last
of them. -/
def Fault.locate (text : Bytes) (f : Fault) : Error :=
  let before := text.take (text.length - f.behind)
  { cause := f.cause
    line := 1 + before.countP (· == Ascii.lineFeed)
    column := (before.reverse.takeWhile (· != Ascii.lineFeed)).length }

end Sealing.Json
