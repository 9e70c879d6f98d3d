import Sealing.Json.Scan
import Sealing.Text.Utf8

/-!
# Text literals

A text literal is a run of bytes between quotation marks. A backslash starts an escape: one letter
for the common characters, or a UTF-16 unit in four hexadecimal digits; a leading surrogate has to
be followed by the escape of a trailing one. Control characters must be escaped.

There are two readers. `readText` returns the text and insists that it is one: surrogates are
paired, and the bytes are UTF-8. `skipText` only finds the end of the literal.
-/

namespace Sealing.Json

/-- The letter of an escape by code. -/
abbrev unitLetter : UInt8 := 0x75

/-- The byte written by a one-letter escape. -/
def simpleEscape? (b : UInt8) : Option UInt8 :=
  if b = 0x22 then some 0x22
  else if b = 0x5C then some 0x5C
  else if b = 0x2F then some 0x2F
  else if b = 0x62 then some 0x08
  else if b = 0x66 then some 0x0C
  else if b = 0x6E then some 0x0A
  else if b = 0x72 then some 0x0D
  else if b = 0x74 then some 0x09
  else none

/-- Whether a byte must be escaped in a literal because it is a control character. -/
def isControl (b : UInt8) : Bool := b < 0x20

/-- The value of four hexadecimal digits. -/
def unitValue? (a b c d : UInt8) : Option Nat := do
  let v ← Ascii.hexValue? a
  let w ← Ascii.hexValue? b
  let x ← Ascii.hexValue? c
  let y ← Ascii.hexValue? d
  pure (((v * 16 + w) * 16 + x) * 16 + y)

/-- Reads the digits of a UTF-16 unit. -/
def readUnit : Reader Nat
  | a :: b :: c :: d :: rest =>
    match unitValue? a b c d with
    | some n => .ok (n, rest)
    | none => .error (.before .invalidEscape rest)
  | _ => .error (.before .eofString [])

/-- Whether a unit is the first of a surrogate pair. -/
def isLeading (n : Nat) : Bool := 0xD800 ≤ n && n ≤ 0xDBFF

/-- Whether a unit is the second of a surrogate pair. -/
def isTrailing (n : Nat) : Bool := 0xDC00 ≤ n && n ≤ 0xDFFF

/-- The character of a surrogate pair. -/
def pairValue (lead trail : Nat) : Nat := 0x10000 + (lead - 0xD800) * 0x400 + (trail - 0xDC00)

/-- The bytes of a character given by number. -/
def characterBytes (n : Nat) : Bytes := String.utf8EncodeChar (Char.ofNat n)

/-- Expects one byte of the escape that must follow a leading surrogate. -/
def expectInPair (expected : UInt8) : Bytes → Except Fault Bytes
  | [] => .error (.before .eofString [])
  | b :: rest =>
    if b = expected then .ok rest else .error (.before .unexpectedEndOfHexEscape rest)

/-- Reads the trailing surrogate that completes a leading one. -/
def readTrailing (lead : Nat) (s : Bytes) : Except Fault (Bytes × Bytes) :=
  match expectInPair Ascii.reverseSolidus s with
  | .error f => .error f
  | .ok s =>
    match expectInPair unitLetter s with
    | .error f => .error f
    | .ok s =>
      match readUnit s with
      | .error f => .error f
      | .ok (trail, rest) =>
        if isTrailing trail then .ok (characterBytes (pairValue lead trail), rest)
        else .error (.before .loneSurrogate rest)

/-- Reads an escape by code, after its letter. -/
def readCoded (s : Bytes) : Except Fault (Bytes × Bytes) :=
  match readUnit s with
  | .error f => .error f
  | .ok (n, rest) =>
    if isTrailing n then .error (.before .loneSurrogate rest)
    else if isLeading n then readTrailing n rest
    else .ok (characterBytes n, rest)

/-- Reads an escape, after its backslash. -/
def readEscape : Reader Bytes
  | [] => .error (.before .eofString [])
  | b :: rest =>
    match simpleEscape? b with
    | some c => .ok ([c], rest)
    | none => if b = unitLetter then readCoded rest else .error (.before .invalidEscape rest)

/-- Skips an escape, after its backslash. Any four hexadecimal digits will do. -/
def skipEscape : Bytes → Except Fault Bytes
  | [] => .error (.before .eofString [])
  | b :: rest =>
    if (simpleEscape? b).isSome then .ok rest
    else if b = unitLetter then
      match readUnit rest with
      | .error f => .error f
      | .ok (_, rest) => .ok rest
    else .error (.before .invalidEscape rest)

/-- A code unit is at least one byte. -/
theorem length_readUnit {s rest : Bytes} {n : Nat} (h : readUnit s = .ok (n, rest)) :
    rest.length < s.length := by
  unfold readUnit at h
  split at h
  · split at h
    · obtain ⟨-, rfl⟩ := Prod.mk.inj (Except.ok.inj h)
      simp only [List.length_cons]
      omega
    · simp at h
  · simp at h

/-- A byte that has to follow is taken. -/
theorem length_expectInPair {e : UInt8} {s rest : Bytes} (h : expectInPair e s = .ok rest) :
    rest.length < s.length := by
  unfold expectInPair at h
  split at h
  · simp at h
  · split at h
    · obtain rfl := Except.ok.inj h
      simp
    · simp at h

/-- The second half of a pair is at least one byte. -/
theorem length_readTrailing {lead : Nat} {s rest c : Bytes}
    (h : readTrailing lead s = .ok (c, rest)) : rest.length < s.length := by
  unfold readTrailing at h
  split at h
  · simp at h
  · next h₁ =>
    split at h
    · simp at h
    · next h₂ =>
      split at h
      · simp at h
      · next h₃ =>
        split at h
        · obtain ⟨-, rfl⟩ := Prod.mk.inj (Except.ok.inj h)
          have := length_expectInPair h₁
          have := length_expectInPair h₂
          have := length_readUnit h₃
          omega
        · simp at h

/-- A coded character is at least one byte. -/
theorem length_readCoded {s rest c : Bytes} (h : readCoded s = .ok (c, rest)) :
    rest.length < s.length := by
  unfold readCoded at h
  split at h
  · simp at h
  · next h₁ =>
    have := length_readUnit h₁
    split at h
    · simp at h
    · split at h
      · have := length_readTrailing h
        omega
      · obtain ⟨-, rfl⟩ := Prod.mk.inj (Except.ok.inj h)
        omega

/-- An escape is at least one byte behind its backslash. -/
theorem length_readEscape {s rest c : Bytes} (h : readEscape s = .ok (c, rest)) :
    rest.length < s.length := by
  unfold readEscape at h
  split at h
  · simp at h
  · split at h
    · obtain ⟨-, rfl⟩ := Prod.mk.inj (Except.ok.inj h)
      simp
    · split at h
      · have := length_readCoded h
        simp only [List.length_cons]
        omega
      · simp at h

/-- An escape that is skipped is at least one byte behind its backslash. -/
theorem length_skipEscape {s rest : Bytes} (h : skipEscape s = .ok rest) :
    rest.length < s.length := by
  unfold skipEscape at h
  split at h
  · simp at h
  · split at h
    · obtain rfl := Except.ok.inj h
      simp
    · split at h
      · split at h
        · simp at h
        · next h₁ =>
          obtain rfl := Except.ok.inj h
          have := length_readUnit h₁
          simp only [List.length_cons]
          omega
      · simp at h

/-- Reads the bytes of a literal and its closing mark, after the opening one. -/
def readContent : Bytes → Except Fault (Bytes × Bytes)
  | [] => .error (.before .eofString [])
  | b :: s =>
    if b = Ascii.quotation then .ok ([], s)
    else if b = Ascii.reverseSolidus then
      match h : readEscape s with
      | .error f => .error f
      | .ok (c, rest) =>
        have := length_readEscape h
        match readContent rest with
        | .error f => .error f
        | .ok (content, rest) => .ok (c ++ content, rest)
    else if isControl b then .error (.before .controlCharacter s)
    else
      match readContent s with
      | .error f => .error f
      | .ok (content, rest) => .ok (b :: content, rest)
termination_by s => s.length
decreasing_by
  all_goals
    simp only [List.length_cons]
    omega

/-- What is left of a literal after the first byte that belongs to no character. -/
def afterForeignByte : Bytes → Bytes
  | [] => []
  | b :: s =>
    if b = Ascii.quotation then s
    else if b = Ascii.reverseSolidus then
      match h : readEscape s with
      | .error _ => s
      | .ok (_, rest) =>
        have := length_readEscape h
        afterForeignByte rest
    else if b < 0x80 then afterForeignByte s
    else
      match Utf8.continued b s with
      | (count, true) => afterForeignByte (s.drop count)
      | (_, false) => s
termination_by s => s.length
decreasing_by
  all_goals
    simp only [List.length_cons, List.length_drop]
    omega

/-- Reads a text literal, after its opening mark. If its bytes are not text, the fault is at the
first byte that belongs to no character. -/
def readText (s : Bytes) : Except Fault (String × Bytes) :=
  match readContent s with
  | .error f => .error f
  | .ok (content, rest) =>
    match Utf8.decode? content with
    | some text => .ok (text, rest)
    | none => .error (.before .invalidCodePoint (afterForeignByte s))

/-- Skips a text literal, after its opening mark. -/
def skipText : Bytes → Except Fault Bytes
  | [] => .error (.before .eofString [])
  | b :: s =>
    if b = Ascii.quotation then .ok s
    else if b = Ascii.reverseSolidus then
      match h : skipEscape s with
      | .error f => .error f
      | .ok rest =>
        have := length_skipEscape h
        skipText rest
    else if isControl b then .error (.before .controlCharacter (b :: s))
    else skipText s
termination_by s => s.length
decreasing_by
  all_goals
    simp only [List.length_cons]
    omega

/-- The content of a string ends with a quote, which is taken. -/
theorem length_readContent {s rest content : Bytes} (h : readContent s = .ok (content, rest)) :
    rest.length < s.length := by
  fun_induction readContent s generalizing content rest with
  | case1 => simp at h
  | case2 s => obtain ⟨-, rfl⟩ := Prod.mk.inj (Except.ok.inj h); simp
  | case3 => simp at h
  | case4 => simp at h
  | case5 s c rest₁ h₁ hlt content₁ rest₂ h₂ _ ih =>
    obtain ⟨-, rfl⟩ := Prod.mk.inj (Except.ok.inj h)
    have := ih h₂
    simp only [List.length_cons]
    omega
  | case6 => simp at h
  | case7 => simp at h
  | case8 b s _ _ _ content₁ rest₁ h₁ ih =>
    obtain ⟨-, rfl⟩ := Prod.mk.inj (Except.ok.inj h)
    have := ih h₁
    simp only [List.length_cons]
    omega

/-- A string ends with a quote, which is taken. -/
theorem length_readText {s rest : Bytes} {t : String} (h : readText s = .ok (t, rest)) :
    rest.length < s.length := by
  unfold readText at h
  split at h
  · simp at h
  · next h₁ =>
    split at h
    · obtain ⟨-, rfl⟩ := Prod.mk.inj (Except.ok.inj h)
      exact length_readContent h₁
    · simp at h

/-- A string that is skipped ends with a quote, which is taken. -/
theorem length_skipText {s rest : Bytes} (h : skipText s = .ok rest) :
    rest.length < s.length := by
  fun_induction skipText s with
  | case1 => simp at h
  | case2 s => obtain rfl := Except.ok.inj h; simp
  | case3 => simp at h
  | case4 s _ rest₁ h₁ hlt ih =>
    have := ih h
    simp only [List.length_cons]
    omega
  | case5 => simp at h
  | case6 b s _ _ _ ih =>
    have := ih h
    simp only [List.length_cons]
    omega

end Sealing.Json
