import Sealing.Bytes.Basic

/-!
# Nested elements of tag, length and value

Keys and certificates are trees of elements. Every element has one written form: lengths below 128
take one byte, others a byte that says how many follow, with no more than needed. Reading refuses
any other form, and readers of a compound use up all of its value.
-/

namespace Sealing.Der

/-- Tags of the elements that keys and certificates are made of. -/
abbrev integerTag : UInt8 := 0x02
@[inherit_doc integerTag] abbrev booleanTag : UInt8 := 0x01
@[inherit_doc integerTag] abbrev bitStringTag : UInt8 := 0x03
@[inherit_doc integerTag] abbrev octetStringTag : UInt8 := 0x04
@[inherit_doc integerTag] abbrev identifierTag : UInt8 := 0x06
@[inherit_doc integerTag] abbrev sequenceTag : UInt8 := 0x30

/-- The tag of the compound element that a format numbers `n`. -/
def numberedTag (n : UInt8) : UInt8 := 0xA0 + n

/-- The written length of a value of less than `2 ^ 16` bytes. -/
def lengthBytes (n : Nat) : Bytes :=
  if n < 0x80 then [UInt8.ofNat n]
  else if n < 0x100 then [0x81, UInt8.ofNat n]
  else 0x82 :: Bytes.ofNatBE 2 n

/-- The written form of an element. -/
def element (tag : UInt8) (value : Bytes) : Bytes := tag :: lengthBytes value.length ++ value

/-- The written form of a natural number. A zero byte keeps a high first bit from being a sign. -/
def natural (n : Nat) : Bytes :=
  let digits := Bytes.ofNatBE (n.log2 / 8 + 1) n
  element integerTag (if digits.head?.any (0x80 ≤ ·) then 0 :: digits else digits)

/-- The written form of a bit string of whole bytes. -/
def bitString (value : Bytes) : Bytes := element bitStringTag (0 :: value)

/-- A reader takes something off the front, or fails. -/
abbrev Reader (α : Type) := StateT Bytes Option α

/-- Takes `count` bytes. -/
def take (count : Nat) : Reader Bytes := fun input =>
  if count ≤ input.length then some (input.take count, input.drop count) else none

/-- Takes one byte. -/
def byte : Reader UInt8 := fun input =>
  match input with
  | b :: rest => some (b, rest)
  | [] => none

/-- Takes a length, in its one written form. -/
def readLength : Reader Nat := do
  let first ← byte
  if first < 0x80 then pure first.toNat
  else if first = 0x81 then
    let n ← byte
    guard (0x80 ≤ n)
    pure n.toNat
  else
    guard (first = 0x82)
    let n := Bytes.toNatBE (← take 2)
    guard (0x100 ≤ n)
    pure n

/-- Takes an element of a tag, and returns its value. -/
def expect (tag : UInt8) : Reader Bytes := do
  guard ((← byte) = tag)
  take (← readLength)

/-- Whether the next element has a tag. -/
def startsWith (tag : UInt8) : Reader Bool := fun input => some (input.head? == some tag, input)

/-- Whether nothing is left. -/
def atEnd : Reader Bool := fun input => some (input.isEmpty, input)

/-- Reads all of a byte string. -/
def whole {α : Type} (reader : Reader α) (input : Bytes) : Option α :=
  match reader input with
  | some (a, []) => some a
  | _ => none

/-- Takes an element of a tag, and reads all of its value. -/
def nested {α : Type} (tag : UInt8) (reader : Reader α) : Reader α := do
  let value ← expect tag
  (whole reader value : Option α)

/-- Takes an element of a tag if there is one. -/
def optional (tag : UInt8) : Reader (Option Bytes) := do
  if ← startsWith tag then some <$> expect tag else pure none

/-- The number that the value of an integer element stands for, unless it is negative or written
with a needless zero. -/
def natural? : Bytes → Option Nat
  | [] => none
  | [b] => if b < 0x80 then some b.toNat else none
  | 0 :: b :: rest => if b < 0x80 then none else some (Bytes.toNatBE (b :: rest))
  | b :: rest => if b < 0x80 then some (Bytes.toNatBE (b :: rest)) else none

/-- Takes an integer element that is not negative. -/
def readNatural : Reader Nat := do
  let value ← expect integerTag
  (natural? value : Option Nat)

/-- Takes a bit string of whole bytes. -/
def readBits : Reader Bytes :=
  nested bitStringTag do
    guard ((← byte) = 0)
    fun input => some (input, [])

end Sealing.Der
