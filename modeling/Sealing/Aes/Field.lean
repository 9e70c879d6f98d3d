/-!
# The field of 256 elements

Bytes as polynomials over the two-element field, modulo x⁸ + x⁴ + x³ + x + 1. The substitution of
the block cipher is inversion in this field followed by an affine map, and its table is built from
that description.
-/

namespace Sealing.Aes

/-- Multiplication by the polynomial x. -/
def double (a : UInt8) : UInt8 :=
  if a &&& 0x80 = 0 then a <<< 1 else (a <<< 1) ^^^ 0x1B

/-- The product of two field elements, by doubling along the `bits` low bits of `b`. -/
def productLow : Nat → UInt8 → UInt8 → UInt8
  | 0, _, _ => 0
  | bits + 1, a, b => (if b &&& 1 = 0 then 0 else a) ^^^ productLow bits (double a) (b >>> 1)

/-- The product of two field elements. -/
def product (a b : UInt8) : UInt8 := productLow 8 a b

/-- The multiplicative inverse, with 0 its own inverse: the 254th power. -/
def inverse (a : UInt8) : UInt8 :=
  let a2 := product a a
  let a4 := product a2 a2
  let a8 := product a4 a4
  let a16 := product a8 a8
  let a32 := product a16 a16
  let a64 := product a32 a32
  let a128 := product a64 a64
  product a2 (product a4 (product a8 (product a16 (product a32 (product a64 a128)))))

/-- Rotation of a byte to the left. -/
def rotateLeft (a : UInt8) (n : UInt8) : UInt8 := (a <<< n) ||| (a >>> (8 - n))

/-- The substitution of one byte: inversion, then the affine map. -/
def substitute (a : UInt8) : UInt8 :=
  let i := inverse a
  i ^^^ rotateLeft i 1 ^^^ rotateLeft i 2 ^^^ rotateLeft i 3 ^^^ rotateLeft i 4 ^^^ 0x63

/-- The substitution as a table, one entry for each byte. -/
def substitutionTable : Vector UInt8 256 := Vector.ofFn fun i => substitute (UInt8.ofNat i.val)

/-- The substitution by table. -/
def substituted (a : UInt8) : UInt8 := substitutionTable.get ⟨a.toNat, a.toNat_lt⟩

/-- Reading the table is computing the substitution. -/
theorem substituted_eq (a : UInt8) : substituted a = substitute a := by
  have h : a.toNat < 256 := a.toNat_lt
  change substitutionTable[a.toNat] = _
  rw [substitutionTable, Vector.getElem_ofFn, UInt8.ofNat_toNat]

end Sealing.Aes
