import Sealing.Bytes.Ascii
import Sealing.Text.Utf8

/-!
# Base64

The standard alphabet with padding. Three bytes are written as four symbols; a last group of one or
two bytes is filled up with padding. Reading is strict: every byte string has one written form, and
the reader says which byte of a text makes it another one.
-/

namespace Sealing.Base64

/-- Why a text is not the written form of a byte string. -/
inductive DecodeError where
  /-- A byte outside the alphabet, or padding where it cannot stand. -/
  | invalidByte (offset : Nat) (byte : UInt8)
  /-- A single symbol is left over. -/
  | invalidLength (length : Nat)
  /-- The last symbol carries bits of no byte. -/
  | invalidLastSymbol (offset : Nat) (byte : UInt8)
  /-- The last group is not filled up with padding. -/
  | invalidPadding
deriving DecidableEq, Repr

/-- The text of a reading failure. -/
def DecodeError.message : DecodeError → String
  | invalidByte offset byte => s!"Invalid symbol {byte}, offset {offset}."
  | invalidLength length => s!"Invalid input length: {length}"
  | invalidLastSymbol offset byte => s!"Invalid last symbol {byte}, offset {offset}."
  | invalidPadding => "Invalid padding"

/-- The symbol of a six-bit value. -/
def symbol (v : Nat) : UInt8 :=
  if v < 26 then UInt8.ofNat (0x41 + v)
  else if v < 52 then UInt8.ofNat (0x61 + (v - 26))
  else if v < 62 then UInt8.ofNat (0x30 + (v - 52))
  else if v = 62 then Ascii.plus
  else Ascii.solidus

/-- The six-bit value of a symbol. -/
def value? (b : UInt8) : Option Nat :=
  if 0x41 ≤ b && b ≤ 0x5A then some (b.toNat - 0x41)
  else if 0x61 ≤ b && b ≤ 0x7A then some (b.toNat - 0x61 + 26)
  else if Ascii.isDigit b then some (b.toNat - 0x30 + 52)
  else if b = Ascii.plus then some 62
  else if b = Ascii.solidus then some 63
  else none

/-- The symbols of a byte string. -/
def encodeBytes : Bytes → Bytes
  | [] => []
  | [a] =>
    [symbol (a.toNat / 4), symbol (a.toNat % 4 * 16), Ascii.equals, Ascii.equals]
  | [a, b] =>
    [symbol (a.toNat / 4), symbol (a.toNat % 4 * 16 + b.toNat / 16), symbol (b.toNat % 16 * 4),
      Ascii.equals]
  | a :: b :: c :: rest =>
    symbol (a.toNat / 4) :: symbol (a.toNat % 4 * 16 + b.toNat / 16) ::
      symbol (b.toNat % 16 * 4 + c.toNat / 64) :: symbol (c.toNat % 64) :: encodeBytes rest

/-- The written form of a byte string. -/
def encode (b : Bytes) : String :=
  String.ofList ((encodeBytes b).map fun c => Char.ofNat c.toNat)

/-- The value of the symbol at an offset. -/
def valueAt (offset : Nat) (b : UInt8) : Except DecodeError Nat :=
  match value? b with
  | some v => .ok v
  | none => .error (.invalidByte offset b)

/-- The values of the symbols of the last group, and the number of its paddings. Padding stands
after at least two symbols, and no symbol stands after padding. -/
def lastGroup (offset : Nat) : (values : List Nat) → (paddings : Nat) → Bytes →
    Except DecodeError (List Nat × Nat)
  | values, paddings, [] => .ok (values, paddings)
  | values, paddings, b :: bs =>
    if b = Ascii.equals then
      if values.length + paddings < 2 then
        .error (.invalidByte (offset + values.length + paddings) b)
      else lastGroup offset values (paddings + 1) bs
    else if paddings ≠ 0 then .error (.invalidByte (offset + values.length) Ascii.equals)
    else
      match valueAt (offset + values.length) b with
      | .ok v => lastGroup offset (values ++ [v]) paddings bs
      | .error e => .error e

/-- Reads the last group, of at most four bytes. -/
def decodeLast (offset : Nat) (group : Bytes) : Except DecodeError Bytes := do
  let (values, paddings) ← lastGroup offset [] 0 group
  if group ≠ [] ∧ values.length < 2 then throw (.invalidLength (offset + values.length))
  if (values.length + paddings) % 4 ≠ 0 then throw .invalidPadding
  let last := group.getD (values.length - 1) 0
  match values with
  | [v, w] =>
    if w % 16 ≠ 0 then throw (.invalidLastSymbol (offset + 1) last)
    pure [UInt8.ofNat (v * 4 + w / 16)]
  | [v, w, x] =>
    if x % 4 ≠ 0 then throw (.invalidLastSymbol (offset + 2) last)
    pure [UInt8.ofNat (v * 4 + w / 16), UInt8.ofNat (w % 16 * 16 + x / 4)]
  | [v, w, x, y] =>
    pure [UInt8.ofNat (v * 4 + w / 16), UInt8.ofNat (w % 16 * 16 + x / 4),
      UInt8.ofNat (x % 4 * 64 + y)]
  | _ => pure []

/-- Reads groups of four symbols and then the last group. -/
def decodeFrom (offset : Nat) : Bytes → Except DecodeError Bytes
  | a :: b :: c :: d :: e :: rest => do
    let v ← valueAt offset a
    let w ← valueAt (offset + 1) b
    let x ← valueAt (offset + 2) c
    let y ← valueAt (offset + 3) d
    let tail ← decodeFrom (offset + 4) (e :: rest)
    pure (UInt8.ofNat (v * 4 + w / 16) :: UInt8.ofNat (w % 16 * 16 + x / 4) ::
      UInt8.ofNat (x % 4 * 64 + y) :: tail)
  | group => decodeLast offset group

/-- Reads the bytes of a text. A foreign byte that stands alone in the last group is reported
before anything else, since it is most likely a line end. -/
def decodeBytes (text : Bytes) : Except DecodeError Bytes :=
  match text.getLast? with
  | some last =>
    if text.length % 4 = 1 ∧ last ≠ Ascii.equals ∧ value? last = none then
      .error (.invalidByte (text.length - 1) last)
    else decodeFrom 0 text
  | none => .ok []

/-- Reads a text. Offsets count its bytes. -/
def decode (text : String) : Except DecodeError Bytes := decodeBytes (Utf8.encode text)

end Sealing.Base64
