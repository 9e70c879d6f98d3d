import Sealing.Bytes.Basic

/-!
# Text as bytes

A text is written as the UTF-8 encodings of its characters, one after the other. Reading is strict,
and accepts exactly what writing produces; the lossy reading puts a replacement character for every
maximal piece that belongs to no character.
-/

namespace Sealing.Utf8

/-- The bytes of a text. -/
def encode (s : String) : Bytes := s.toList.flatMap String.utf8EncodeChar

/-- Reads a text strictly. -/
def decode? (b : Bytes) : Option String := String.fromUTF8? ⟨b.toArray⟩

/-- Whether `b` continues a character. -/
def isContinuation (b : UInt8) : Bool := 0x80 ≤ b && b ≤ 0xBF

/-- For a byte that starts a character of several bytes: how many bytes follow, and the range of
the first of them. The ranges leave out overlong forms, surrogates and what lies past the last
character. -/
def lead? (b : UInt8) : Option (Nat × UInt8 × UInt8) :=
  if 0xC2 ≤ b && b ≤ 0xDF then some (1, 0x80, 0xBF)
  else if b = 0xE0 then some (2, 0xA0, 0xBF)
  else if b = 0xED then some (2, 0x80, 0x9F)
  else if 0xE1 ≤ b && b ≤ 0xEF then some (2, 0x80, 0xBF)
  else if b = 0xF0 then some (3, 0x90, 0xBF)
  else if 0xF1 ≤ b && b ≤ 0xF3 then some (3, 0x80, 0xBF)
  else if b = 0xF4 then some (3, 0x80, 0x8F)
  else none

/-- How many of the next bytes continue a character begun by `b`, up to what it needs. -/
def continued (b : UInt8) (rest : Bytes) : Nat × Bool :=
  match lead? b, rest with
  | some (more, low, high), c :: cs =>
    if low ≤ c && c ≤ high then
      let further := ((cs.take (more - 1)).takeWhile isContinuation).length
      (1 + further, 1 + further == more)
    else (0, false)
  | _, _ => (0, false)

/-- The bytes of the replacement character. -/
def replacement : Bytes := [0xEF, 0xBF, 0xBD]

/-- Replaces every maximal piece that belongs to no character. -/
def repaired : Bytes → Bytes
  | [] => []
  | b :: rest =>
    if b < 0x80 then b :: repaired rest
    else
      let (count, complete) := continued b rest
      (if complete then b :: rest.take count else replacement) ++ repaired (rest.drop count)
termination_by b => b.length
decreasing_by
  all_goals
    simp only [List.length_drop, List.length_cons]
    omega

/-- Reads a text, with replacement characters for what is not text. -/
def decodeLossy (b : Bytes) : String := (decode? (repaired b)).getD ""

end Sealing.Utf8
