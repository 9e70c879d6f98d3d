import Sealing.Bytes.Basic
import Sealing.Curve.Modular

/-!
# The public key of a Weierstrass curve

Points of the curves `y² = x³ - 3x + b` over prime fields. A secret scalar lies between zero and the
order of the generator, and the public key is the multiple of the generator by it.
-/

namespace Sealing

/-- A curve of this shape, with its generator. The constant term of the equation is not needed to
add points. -/
structure Weierstrass where
  prime : Nat
  order : Nat
  generator : Nat × Nat
  /-- The number of bytes of a coordinate or scalar. -/
  width : Nat
  /-- The identifier of the curve. -/
  identifier : Bytes

namespace Weierstrass

/-- A point in the plane, or the neutral point. -/
abbrev Point := Option (Nat × Nat)

/-- The third point of a line of a given slope through two points, reflected. -/
def alongSlope (c : Weierstrass) (slope x₁ y₁ x₂ : Nat) : Point :=
  let x := Modular.difference c.prime (slope * slope) (x₁ + x₂)
  let y := Modular.difference c.prime (slope * Modular.difference c.prime x₁ x) y₁
  some (x, y)

/-- The sum of two points. -/
def add (c : Weierstrass) : Point → Point → Point
  | none, q => q
  | p, none => p
  | some (x₁, y₁), some (x₂, y₂) =>
    if x₁ ≠ x₂ then
      let rise := Modular.difference c.prime y₂ y₁
      let run := Modular.difference c.prime x₂ x₁
      c.alongSlope (rise * Modular.inverse c.prime run % c.prime) x₁ y₁ x₂
    else if (y₁ + y₂) % c.prime = 0 then none
    else
      let rise := Modular.difference c.prime (3 * x₁ * x₁) 3
      c.alongSlope (rise * Modular.inverse c.prime (2 * y₁ % c.prime) % c.prime) x₁ y₁ x₂

/-- A multiple of a point. -/
def multiple (c : Weierstrass) (scalar : Nat) (p : Point) : Point :=
  (Modular.bits scalar).foldl
    (fun sum bit => if bit then c.add (c.add sum sum) p else c.add sum sum) none

/-- The public key of a secret scalar, if it is one: a mark and both coordinates. -/
def publicKey? (c : Weierstrass) (secret : Bytes) : Option Bytes :=
  let scalar := Bytes.toNatBE secret
  if secret.length = c.width ∧ 0 < scalar ∧ scalar < c.order then
    (c.multiple scalar (some c.generator)).map fun p =>
      0x04 :: Bytes.ofNatBE c.width p.1 ++ Bytes.ofNatBE c.width p.2
  else none

/-- The curve of 256 bits. -/
def p256 : Weierstrass where
  prime := 0xffffffff00000001000000000000000000000000ffffffffffffffffffffffff
  order := 0xffffffff00000000ffffffffffffffffbce6faada7179e84f3b9cac2fc632551
  generator :=
    (0x6b17d1f2e12c4247f8bce6e563a440f277037d812deb33a0f4a13945d898c296,
      0x4fe342e2fe1a7f9b8ee7eb4a7c0f9e162bce33576b315ececbb6406837bf51f5)
  width := 32
  identifier := [0x2A, 0x86, 0x48, 0xCE, 0x3D, 0x03, 0x01, 0x07]

/-- The curve of 384 bits. -/
def p384 : Weierstrass where
  prime :=
    0xfffffffffffffffffffffffffffffffffffffffffffffffffffffffffffffffeffffffff0000000000000000ffffffff
  order :=
    0xffffffffffffffffffffffffffffffffffffffffffffffffc7634d81f4372ddf581a0db248b0a77aecec196accc52973
  generator :=
    (0xaa87ca22be8b05378eb1c71ef320ad746e1d3b628ba79b9859f741e082542a385502f25dbf55296c3a545e3872760ab7,
      0x3617de4a96262c6f5d9e98bf9292dc29f8f41dbd289a147ce9da3113b5f0b8c00a60b1ce1d7e819d7a431d7c90ea0e5f)
  width := 48
  identifier := [0x2B, 0x81, 0x04, 0x00, 0x22]

end Weierstrass

end Sealing
