import Sealing.Json.Fault

/-!
# Blanks, words and runs of digits

The parts of a JSON text that carry no structure of their own. Each reader takes what it can from
the front of a byte string and leaves the rest, which is never longer than what it was given.
-/

namespace Sealing.Json

/-- The four bytes that may stand between the tokens of a JSON text. -/
def isBlank (b : UInt8) : Bool :=
  b == Ascii.space || b == Ascii.lineFeed || b == Ascii.tab || b == Ascii.carriageReturn

/-- What is left after the blanks at the front. -/
def skipBlanks (s : Bytes) : Bytes := s.dropWhile isBlank

/-- Skipping blanks leaves no more than it was given. -/
theorem length_skipBlanks_le (s : Bytes) : (skipBlanks s).length ≤ s.length :=
  (List.dropWhile_sublist isBlank).length_le

/-- The digits at the front. -/
def digitRun (s : Bytes) : Bytes := s.takeWhile Ascii.isDigit

/-- What is left after the digits at the front. -/
def afterDigits (s : Bytes) : Bytes := s.dropWhile Ascii.isDigit

/-- Skipping digits leaves no more than it was given. -/
theorem length_afterDigits_le (s : Bytes) : (afterDigits s).length ≤ s.length :=
  (List.dropWhile_sublist Ascii.isDigit).length_le

/-- Reads the rest of a word, byte by byte. The first byte that differs is part of the fault. -/
def readWord : (word : Bytes) → Bytes → Except Fault Bytes
  | [], s => .ok s
  | _ :: _, [] => .error (.before .eofValue [])
  | w :: word, b :: s => if b = w then readWord word s else .error (.before .expectedIdent s)

/-- A word is read exactly if it stands at the front. -/
theorem readWord_eq_ok_iff {word s rest : Bytes} :
    readWord word s = .ok rest ↔ s = word ++ rest := by
  induction word generalizing s with
  | nil => simp [readWord]
  | cons w word ih =>
    cases s with
    | nil => simp [readWord]
    | cons b s =>
      by_cases h : b = w
      · simp [readWord, h, ih]
      · simp [readWord, h]

/-- Reading a word leaves no more than it was given. -/
theorem length_readWord {word s rest : Bytes} (h : readWord word s = .ok rest) :
    rest.length ≤ s.length := by
  rw [readWord_eq_ok_iff.1 h, List.length_append]
  omega

/-- The words of the three constants, without their first letters. -/
def nullTail : Bytes := Ascii.bytes "ull"
def trueTail : Bytes := Ascii.bytes "rue"
def falseTail : Bytes := Ascii.bytes "alse"

end Sealing.Json
