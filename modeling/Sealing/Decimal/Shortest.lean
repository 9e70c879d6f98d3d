/-!
# The shortest decimal of a binary fraction

A finite double is an integer times a power of two. Its text has the fewest digits that read back
as the same double, and of those digit strings the nearest to it. Digits are searched for on
decimal grids from coarse to fine: if a grid meets the interval of numbers that round to the
double, one of the double's two neighbours on the grid is in the interval.
-/

namespace Sealing.Decimal

/-- A positive binary fraction `significand * 2 ^ exponent`. -/
structure Binary where
  significand : Nat
  exponent : Int
  /-- Whether the next lower double is only half as far away as the next higher one. -/
  narrowBelow : Bool

/-- A digit string and the power of ten of its last digit. -/
structure Digits where
  digits : Nat
  exponent : Int

/-- A fraction of natural numbers. -/
abbrev Ratio := Nat × Nat

/-- `n * base ^ e`. -/
def scaled (n base : Nat) (e : Int) : Ratio :=
  if 0 ≤ e then (n * Nat.pow base e.toNat, 1) else (n, Nat.pow base (-e).toNat)

/-- Whether a fraction is below, or not above, another. -/
def below (closed : Bool) (a b : Ratio) : Bool :=
  if closed then a.1 * b.2 ≤ b.1 * a.2 else a.1 * b.2 < b.1 * a.2

namespace Binary

/-- Whether a decimal rounds to the binary fraction; the ends of the interval do if the
significand is even. -/
def admits (b : Binary) (d : Digits) : Bool :=
  let closed := b.significand % 2 == 0
  let candidate := scaled d.digits 10 d.exponent
  let low := scaled (4 * b.significand - (if b.narrowBelow then 1 else 2)) 2 (b.exponent - 2)
  let high := scaled (4 * b.significand + 2) 2 (b.exponent - 2)
  below closed low candidate && below closed candidate high

/-- The number of digits before the point; zero or negative below one tenth. -/
def magnitude (b : Binary) : Int :=
  let (num, den) := scaled b.significand 2 b.exponent
  if den ≤ num then (Nat.toDigits 10 (num / den)).length
  else
    match (List.range 400).find? fun j => den ≤ num * Nat.pow 10 (j + 1) with
    | some j => -(j : Int)
    | none => 0

/-- The nearer neighbour of the fraction on the grid of `count` digits that rounds to it. -/
def onGrid (b : Binary) (count : Nat) : Option Digits :=
  let e : Int := b.magnitude - count
  let (num, den) := scaled b.significand 2 b.exponent
  let (unitNum, unitDen) := scaled 1 10 e
  let whole : Nat := num * unitDen / (den * unitNum)
  let rest : Nat := num * unitDen % (den * unitNum)
  let lower : Digits := ⟨whole, e⟩
  let upper : Digits := ⟨whole + 1, e⟩
  let upperNearer := decide (2 * rest > den * unitNum) ||
    (2 * rest == den * unitNum && whole % 2 == 1)
  match b.admits lower && lower.digits != 0, b.admits upper with
  | true, true => some (if upperNearer then upper else lower)
  | true, false => some lower
  | false, true => some upper
  | false, false => none

/-- Zeros at the end belong to the power of ten. -/
def trimmed : Nat → Digits → Digits
  | 0, d => d
  | fuel + 1, d =>
    if d.digits % 10 = 0 ∧ d.digits ≠ 0 then trimmed fuel ⟨d.digits / 10, d.exponent + 1⟩ else d

/-- The shortest digits of the fraction. -/
def shortest (b : Binary) : Digits :=
  trimmed 20 (((List.range 18).findSome? fun n => b.onGrid (n + 1)).getD ⟨0, 0⟩)

end Binary

/-- Reads the fields of a double: its sign, and its magnitude unless it is zero. -/
def ofDouble (x : Float) : Bool × Option Binary :=
  let bits : Nat := x.toBits.toNat
  let sign := bits / Nat.pow 2 63 == 1
  let field : Nat := bits / Nat.pow 2 52 % Nat.pow 2 11
  let fraction : Nat := bits % Nat.pow 2 52
  if field = 0 then
    (sign, if fraction = 0 then none else some ⟨fraction, -1074, false⟩)
  else (sign, some ⟨Nat.pow 2 52 + fraction, (field : Int) - 1075, fraction == 0 && field > 1⟩)

/-- The text of digits. Numbers with at most sixteen digits before the point and fewer than five
zeros after it are written positionally, always with a point. -/
def Digits.text (d : Digits) : String :=
  let ds := Nat.toDigits 10 d.digits
  let point : Int := ds.length + d.exponent
  if 0 ≤ d.exponent ∧ point ≤ 16 then
    String.ofList (ds ++ List.replicate d.exponent.toNat '0') ++ ".0"
  else if 0 < point ∧ point ≤ 16 then
    String.ofList (ds.take point.toNat ++ ['.'] ++ ds.drop point.toNat)
  else if -5 < point ∧ point ≤ 0 then
    "0." ++ String.ofList (List.replicate (-point).toNat '0' ++ ds)
  else
    let mantissa := if ds.length = 1 then ds else ds.take 1 ++ ['.'] ++ ds.drop 1
    let power := point - 1
    String.ofList mantissa ++ (if 0 ≤ power then "e+" else "e-") ++ toString power.natAbs

/-- The text of a finite double. -/
def floatText (x : Float) : String :=
  let (sign, magnitude) := ofDouble x
  (if sign then "-" else "") ++
    match magnitude with
    | none => "0.0"
    | some b => b.shortest.text

end Sealing.Decimal
