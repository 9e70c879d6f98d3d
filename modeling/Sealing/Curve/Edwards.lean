import Sealing.Curve.Modular
import Sealing.Hash.Sha2

/-!
# The public key of an Edwards curve

A seed of 32 bytes is hashed; half of the digest, with its cofactor bits cleared and its highest bit
set, is the secret scalar. The public key is the multiple of the base point by that scalar.
-/

namespace Sealing.Edwards

/-- The prime of the field, `2 ^ 255 - 19`. -/
def prime : Nat := Nat.pow 2 255 - 19

/-- The coefficient of the curve, minus 121665 over 121666. -/
def coefficient : Nat :=
  Modular.difference prime 0 (121665 * Modular.inverse prime 121666 % prime)

/-- A point in extended coordinates: the plane point is `x / z`, `y / z`, and `t` is `x y / z`. -/
structure Point where
  x : Nat
  y : Nat
  z : Nat
  t : Nat

namespace Point

/-- The neutral point. -/
def zero : Point := ⟨0, 1, 1, 0⟩

/-- The base point, whose second coordinate is four fifths. -/
def base : Point :=
  let x := 0x216936D3CD6E53FEC0A4E231FDD6DC5C692CC7609525A7B2C9562D608F25D51A
  let y := 0x6666666666666666666666666666666666666666666666666666666666666658
  ⟨x, y, 1, x * y % prime⟩

/-- The sum of two points, equal or not. -/
def add (p q : Point) : Point :=
  let a := Modular.difference prime p.y p.x * Modular.difference prime q.y q.x % prime
  let b := (p.y + p.x) * (q.y + q.x) % prime
  let c := p.t * (2 * coefficient) % prime * q.t % prime
  let d := 2 * p.z * q.z % prime
  let e := Modular.difference prime b a
  let f := Modular.difference prime d c
  let g := d + c
  let h := b + a
  ⟨e * f % prime, g * h % prime, f * g % prime, e * h % prime⟩

/-- A multiple of a point. -/
def multiple (scalar : Nat) (p : Point) : Point :=
  (Modular.bits scalar).foldl
    (fun sum bit => if bit then (sum.add sum).add p else sum.add sum) zero

/-- The written form of a point: the second coordinate, least significant byte first, with the
parity of the first coordinate in its highest bit. -/
def encode (p : Point) : Bytes :=
  let scale := Modular.inverse prime p.z
  Bytes.ofNatLE 32 (p.y * scale % prime + p.x * scale % prime % 2 * Nat.pow 2 255)

end Point

/-- The secret scalar of a seed. -/
def scalar (seed : Bytes) : Nat :=
  let digest := Bytes.toNatLE ((Hash.sha512.digest seed).take 32)
  digest % Nat.pow 2 254 / 8 * 8 + Nat.pow 2 254

/-- The public key of a seed. -/
def publicKey (seed : Bytes) : Bytes := (Point.base.multiple (scalar seed)).encode

end Sealing.Edwards
