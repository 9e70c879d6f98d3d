import Sealing.Json.Scan

/-!
# Numbers

A number is an optional minus sign, an integer without needless zeros, and optionally a fraction
and an exponent. `readNumber` finds its value: an integer if it is one of 64 bits, else a double.
`skipNumber` only finds its end. The digits of a significand count as long as it stays below
`2 ^ 64`; later ones only move the exponent.
-/

namespace Sealing.Json

/-- The value of a number. -/
inductive Numeral where
  | unsigned (n : Nat)
  | signed (n : Int)
  | fraction (x : Float)

/-- How a number is named where something else was expected. -/
def Numeral.found : Numeral → Found
  | unsigned n => .unsigned n
  | signed n => .signed n
  | fraction x => .fraction x

/-- Appends digits to a number as long as it stays below the limit. The second result is how many
digits were taken. -/
def absorb (limit : Nat) : Nat → Bytes → Nat × Nat
  | n, [] => (n, 0)
  | n, d :: ds =>
    let longer := n * 10 + Ascii.digitValue d
    if longer < limit then ((absorb limit longer ds).1, (absorb limit longer ds).2 + 1) else (n, 0)

/-- What appending digits does below the limit. -/
theorem absorb_fst_lt {limit n : Nat} (h : n < limit) (ds : Bytes) :
    (absorb limit n ds).1 < limit := by
  induction ds generalizing n with
  | nil => exact h
  | cons d ds ih =>
    simp only [absorb]
    split
    · next hd => exact ih hd
    · exact h

/-- Significands stay below this. -/
def significandLimit : Nat := Nat.pow 2 64

/-- Exponents stay below this. -/
def exponentLimit : Nat := Nat.pow 2 31

/-- The largest power of ten that is a double. -/
def largestPower : Nat := 308

/-- A power of ten as a double. -/
def powerOfTen (n : Nat) : Float := Float.ofScientific 1 false n

/-- Divides by a power of ten, in steps that are doubles themselves. -/
def shrink (x : Float) (e : Nat) : Float :=
  if e ≤ largestPower then x / powerOfTen e
  else if x == 0.0 then x
  else shrink (x / powerOfTen largestPower) (e - largestPower)
termination_by e
decreasing_by
  simp only [largestPower] at *
  omega

/-- The double near `significand * 10 ^ exponent`, unless it is too large. -/
def double? (significand : Nat) (exponent : Int) : Option Float :=
  let x := (UInt64.ofNat significand).toFloat
  if exponent < 0 then some (shrink x exponent.natAbs)
  else if exponent ≤ largestPower then
    let y := x * powerOfTen exponent.toNat
    if y.isInf then none else some y
  else if x == 0.0 then some x
  else none

/-- A number whose last byte is before `rest`. -/
def scaled (negative : Bool) (significand : Nat) (exponent : Int) (rest : Bytes) :
    Except Fault (Numeral × Bytes) :=
  match double? significand exponent with
  | some x => .ok (.fraction (if negative then -x else x), rest)
  | none => .error (.before .numberOutOfRange rest)

/-- Whether an exponent is negative, and what follows its sign. -/
def readSign : Bytes → Bool × Bytes
  | b :: s =>
    if b = Ascii.plus then (false, s)
    else if b = Ascii.minus then (true, s)
    else (false, b :: s)
  | [] => (false, [])

/-- Reads an exponent, after its letter. An exponent too large for its type makes the number zero
or out of range. -/
def readExponent (negative : Bool) (significand : Nat) (exponent : Int) (s : Bytes) :
    Except Fault (Numeral × Bytes) :=
  let (down, s) := readSign s
  match s with
  | [] => .error (.before .eofValue [])
  | b :: rest =>
    if Ascii.isDigit b then
      let (shift, taken) := absorb exponentLimit 0 (digitRun s)
      if taken = (digitRun s).length then
        scaled negative significand (if down then exponent - shift else exponent + shift)
          (afterDigits s)
      else if significand ≠ 0 ∧ ¬down then .error (.before .numberOutOfRange (s.drop (taken + 1)))
      else .ok (.fraction (if negative then -0.0 else 0.0), afterDigits s)
    else .error (.before .invalidNumber rest)

/-- Whether a byte is the letter of an exponent. -/
def isExponentLetter (b : UInt8) : Bool := b == 0x65 || b == 0x45

/-- Reads what may follow the digits of a number that has become a double. -/
def readScale (negative : Bool) (significand : Nat) (exponent : Int) :
    Bytes → Except Fault (Numeral × Bytes)
  | b :: s =>
    if isExponentLetter b then readExponent negative significand exponent s
    else scaled negative significand exponent (b :: s)
  | [] => scaled negative significand exponent []

/-- Reads the digits after the point. -/
def readFraction (negative : Bool) (significand : Nat) (exponent : Int) (s : Bytes) :
    Except Fault (Numeral × Bytes) :=
  if digitRun s = [] then .error (.at (if s = [] then .eofValue else .invalidNumber) s)
  else
    let (longer, taken) := absorb significandLimit significand (digitRun s)
    readScale negative longer (exponent - taken) (afterDigits s)

/-- The value of an integer. Negative integers below the 64-bit range are doubles, and so is the
negative zero. -/
def integral (negative : Bool) (n : Nat) : Numeral :=
  if negative then
    if 0 < n ∧ n ≤ Nat.pow 2 63 then .signed (-n) else .fraction (-(UInt64.ofNat n).toFloat)
  else .unsigned n

/-- Reads what may follow the integer part: `excess` digits of it did not fit the significand. -/
def readTail (negative : Bool) (significand excess : Nat) :
    Bytes → Except Fault (Numeral × Bytes)
  | b :: s =>
    if b = Ascii.point then readFraction negative significand excess s
    else if isExponentLetter b then readExponent negative significand excess s
    else if excess = 0 then .ok (integral negative significand, b :: s)
    else scaled negative significand excess (b :: s)
  | [] => if excess = 0 then .ok (integral negative significand, []) else
      scaled negative significand excess []

/-- Whether a digit follows a leading zero. -/
def overlong : Bytes → Bool
  | b :: _ => Ascii.isDigit b
  | [] => false

/-- Reads a number, after its sign. -/
def readNumber (negative : Bool) : Bytes → Except Fault (Numeral × Bytes)
  | [] => .error (.before .eofValue [])
  | b :: s =>
    if b = Ascii.zero then
      if overlong s then .error (.at .invalidNumber s) else readTail negative 0 0 s
    else if Ascii.isDigit b then
      let run := digitRun (b :: s)
      let (significand, taken) := absorb significandLimit 0 run
      readTail negative significand (run.length - taken) (afterDigits (b :: s))
    else .error (.before .invalidNumber s)

/-- Skips an exponent, after its letter. -/
def skipExponent (s : Bytes) : Except Fault Bytes :=
  match (readSign s).2 with
  | [] => .error (.before .invalidNumber [])
  | b :: rest =>
    if Ascii.isDigit b then .ok (afterDigits rest) else .error (.before .invalidNumber rest)

/-- Skips an exponent, if there is one. -/
def skipScale : Bytes → Except Fault Bytes
  | b :: s => if isExponentLetter b then skipExponent s else .ok (b :: s)
  | [] => .ok []

/-- Skips the digits after the point. -/
def skipFraction (s : Bytes) : Except Fault Bytes :=
  if digitRun s = [] then .error (.at .invalidNumber s) else skipScale (afterDigits s)

/-- Skips what may follow the integer part. -/
def skipTail : Bytes → Except Fault Bytes
  | b :: s => if b = Ascii.point then skipFraction s else skipScale (b :: s)
  | [] => .ok []

/-- Skips a number, after its sign. -/
def skipNumber : Bytes → Except Fault Bytes
  | [] => .error (.before .invalidNumber [])
  | b :: s =>
    if b = Ascii.zero then
      if overlong s then .error (.at .invalidNumber s) else skipTail s
    else if Ascii.isDigit b then skipTail (afterDigits s)
    else .error (.before .invalidNumber s)

/-- Reading a sign leaves no more than it was given. -/
theorem length_readSign_le (s : Bytes) : (readSign s).2.length ≤ s.length := by
  unfold readSign
  split
  · split
    · simp
    · split <;> simp
  · simp

/-- Skipping an exponent leaves no more than it was given. -/
theorem length_skipExponent {s rest : Bytes} (h : skipExponent s = .ok rest) :
    rest.length ≤ s.length := by
  have hs := length_readSign_le s
  unfold skipExponent at h
  split at h
  · simp at h
  · next b r hr =>
    split at h
    · obtain rfl := Except.ok.inj h
      have := length_afterDigits_le r
      rw [hr, List.length_cons] at hs
      omega
    · simp at h

/-- Skipping a fraction and an exponent leaves no more than it was given. -/
theorem length_skipScale {s rest : Bytes} (h : skipScale s = .ok rest) :
    rest.length ≤ s.length := by
  unfold skipScale at h
  split at h
  · split at h
    · have := length_skipExponent h
      simp only [List.length_cons]
      omega
    · exact Nat.le_of_eq (by rw [← Except.ok.inj h])
  · exact Nat.le_of_eq (by rw [← Except.ok.inj h])

/-- Skipping the rest of a number leaves no more than it was given. -/
theorem length_skipTail {s rest : Bytes} (h : skipTail s = .ok rest) :
    rest.length ≤ s.length := by
  unfold skipTail at h
  split at h
  · next b s =>
    split at h
    · unfold skipFraction at h
      split at h
      · simp at h
      · have := length_skipScale h
        have := length_afterDigits_le s
        simp only [List.length_cons]
        omega
    · exact length_skipScale h
  · exact Nat.le_of_eq (by rw [← Except.ok.inj h])

/-- A number has at least one digit. -/
theorem length_skipNumber {s rest : Bytes} (h : skipNumber s = .ok rest) :
    rest.length < s.length := by
  unfold skipNumber at h
  split at h
  · simp at h
  · next b s =>
    split at h
    · split at h
      · simp at h
      · have := length_skipTail h
        simp only [List.length_cons]
        omega
    · split at h
      · have := length_skipTail h
        have := length_afterDigits_le s
        simp only [List.length_cons]
        omega
      · simp at h

/-- Scaling a number takes no bytes. -/
theorem length_scaled {negative : Bool} {significand : Nat} {exponent : Int} {s rest : Bytes}
    {n : Numeral} (h : scaled negative significand exponent s = .ok (n, rest)) : rest = s := by
  unfold scaled at h
  split at h
  · exact (Prod.mk.inj (Except.ok.inj h)).2.symm
  · simp at h

/-- Reading an exponent leaves no more than it was given. -/
theorem length_readExponent {negative : Bool} {significand : Nat} {exponent : Int}
    {s rest : Bytes} {n : Numeral}
    (h : readExponent negative significand exponent s = .ok (n, rest)) :
    rest.length ≤ s.length := by
  have hs := length_readSign_le s
  unfold readExponent at h
  simp only at h
  split at h
  · simp at h
  · next b r hr =>
    have hd := length_afterDigits_le (readSign s).2
    split at h
    · split at h
      · rw [length_scaled h]
        omega
      · split at h
        · simp at h
        · rw [← (Prod.mk.inj (Except.ok.inj h)).2]
          omega
    · simp at h

/-- Reading a fraction and an exponent leaves no more than it was given. -/
theorem length_readScale {negative : Bool} {significand : Nat} {exponent : Int}
    {s rest : Bytes} {n : Numeral}
    (h : readScale negative significand exponent s = .ok (n, rest)) :
    rest.length ≤ s.length := by
  unfold readScale at h
  split at h
  · split at h
    · have := length_readExponent h
      simp only [List.length_cons]
      omega
    · exact Nat.le_of_eq (by rw [length_scaled h])
  · exact Nat.le_of_eq (by rw [length_scaled h])

/-- Reading the rest of a number leaves no more than it was given. -/
theorem length_readTail {negative : Bool} {significand excess : Nat} {s rest : Bytes}
    {n : Numeral} (h : readTail negative significand excess s = .ok (n, rest)) :
    rest.length ≤ s.length := by
  unfold readTail at h
  split at h
  · next b s =>
    split at h
    · unfold readFraction at h
      split at h
      · simp at h
      · have := length_readScale h
        have := length_afterDigits_le s
        simp only [List.length_cons]
        omega
    · split at h
      · have := length_readExponent h
        simp only [List.length_cons]
        omega
      · split at h
        · exact Nat.le_of_eq (by rw [← (Prod.mk.inj (Except.ok.inj h)).2])
        · exact Nat.le_of_eq (by rw [length_scaled h])
  · split at h
    · exact Nat.le_of_eq (by rw [← (Prod.mk.inj (Except.ok.inj h)).2])
    · exact Nat.le_of_eq (by rw [length_scaled h])

/-- A number that is read has at least one digit. -/
theorem length_readNumber {negative : Bool} {s rest : Bytes} {n : Numeral}
    (h : readNumber negative s = .ok (n, rest)) : rest.length < s.length := by
  unfold readNumber at h
  split at h
  · simp at h
  · next b s =>
    split at h
    · split at h
      · simp at h
      · have := length_readTail h
        simp only [List.length_cons]
        omega
    · split at h
      · next hb =>
        have := length_readTail h
        have : (afterDigits (b :: s)).length = (afterDigits s).length := by
          simp [afterDigits, hb]
        have := length_afterDigits_le s
        simp only [List.length_cons]
        omega
      · simp at h

end Sealing.Json
