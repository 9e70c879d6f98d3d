/-!
# Decimal digits

Reading of unsigned decimal numbers of any size. Leading zeros do not matter.
-/

namespace Sealing.Decimal

/-- The number written by decimal digits, if there are any and no other characters. -/
def ofDigits? (cs : List Char) : Option Nat :=
  if cs ≠ [] ∧ cs.all Char.isDigit then
    some (cs.foldl (fun n c => n * 10 + (c.toNat - '0'.toNat)) 0)
  else none

/-- The number written by decimal digits after an optional plus sign. -/
def natural? : List Char → Option Nat
  | '+' :: cs => ofDigits? cs
  | cs => ofDigits? cs

end Sealing.Decimal
