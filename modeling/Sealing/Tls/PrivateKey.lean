import Sealing.Curve.Edwards
import Sealing.Curve.Weierstrass
import Sealing.Der
import Sealing.Tls.Pem

/-!
# Private keys

A private key is read from one of three formats: a bare RSA key, a bare key of a Weierstrass curve,
or a wrapper that names the algorithm. Keys of the curves are checked by computing the public key
from the secret; keys of RSA by the equations between their parts. What remains of a key is the
public key information that goes with it, in the form in which a certificate holds it.
-/

namespace Sealing.Tls

/-- How a private key is written. -/
inductive KeyFormat where
  /-- A bare RSA key. -/
  | rsa
  /-- A bare key of a Weierstrass curve. -/
  | ec
  /-- A key inside a wrapper that names its algorithm. -/
  | wrapped
deriving DecidableEq, Repr

/-- The format of the keys in sections of a label. -/
def PemLabel.keyFormat? : PemLabel → Option KeyFormat
  | rsaKey => some .rsa
  | ecKey => some .ec
  | privateKey => some .wrapped
  | _ => none

/-- A private key as it was found. -/
structure PrivateKey where
  format : KeyFormat
  content : Bytes
deriving DecidableEq, Repr

namespace PrivateKey

open Der

/-- The description of an RSA public key. -/
def rsaAlgorithm : Bytes :=
  element identifierTag [0x2A, 0x86, 0x48, 0x86, 0xF7, 0x0D, 0x01, 0x01, 0x01] ++ element 0x05 []

/-- The description of a public key on the Edwards curve. -/
def edwardsAlgorithm : Bytes := element identifierTag [0x2B, 0x65, 0x70]

/-- The description of a public key on a Weierstrass curve. -/
def curveAlgorithm (curve : Weierstrass) : Bytes :=
  element identifierTag [0x2A, 0x86, 0x48, 0xCE, 0x3D, 0x02, 0x01] ++
    element identifierTag curve.identifier

/-- The public key information of a certificate: an algorithm and a public key. -/
def publicKeyInfo (algorithm publicKey : Bytes) : Bytes :=
  element sequenceTag (element sequenceTag algorithm ++ bitString publicKey)

/-- Takes the wrapper of a key of an algorithm. The later version of the wrapper, where it is
allowed, also holds the public key. -/
def readWrapper (algorithm : Bytes) (laterVersion : Bool) : Reader (Bytes × Option Bytes) :=
  nested sequenceTag do
    let version ← readNatural
    guard (version = 0 ∨ version = 1 ∧ laterVersion)
    guard ((← expect sequenceTag) = algorithm)
    let secret ← expect octetStringTag
    discard (optional (numberedTag 0))
    if version = 0 then pure (secret, none)
    else pure (secret, some (← nested (numberedTag 1) readBits))

/-- The parts of an RSA key. -/
structure RsaParts where
  modulus : Nat
  publicExponent : Nat
  privateExponent : Nat
  firstPrime : Nat
  secondPrime : Nat
  firstExponent : Nat
  secondExponent : Nat
  coefficient : Nat

/-- Takes an RSA key. -/
def readRsa : Reader RsaParts :=
  nested sequenceTag do
    guard ((← readNatural) = 0)
    pure ⟨← readNatural, ← readNatural, ← readNatural, ← readNatural, ← readNatural,
      ← readNatural, ← readNatural, ← readNatural⟩

/-- The number of bits of a number. -/
def bitLength (n : Nat) : Nat := if n = 0 then 0 else n.log2 + 1

/-- Whether the parts of an RSA key are of usable size and fit together. -/
def RsaParts.isConsistent (k : RsaParts) : Bool :=
  let bits := bitLength k.modulus
  let half := (bits + 1) / 2
  2048 ≤ (bits + 7) / 8 * 8 && bits ≤ 4096 &&
    k.publicExponent % 2 = 1 && 65537 ≤ k.publicExponent && k.publicExponent < Nat.pow 2 33 &&
    bitLength k.firstPrime = half && bitLength k.secondPrime = half &&
    k.firstPrime % 2 = 1 && k.secondPrime % 2 = 1 &&
    k.firstPrime * k.secondPrime = k.modulus &&
    half < bitLength k.privateExponent && k.privateExponent < k.modulus &&
    k.privateExponent % 2 = 1 &&
    k.firstExponent < k.firstPrime && k.firstExponent % 2 = 1 &&
    k.secondExponent < k.secondPrime && k.secondExponent % 2 = 1 &&
    k.coefficient < k.firstPrime && k.coefficient * k.secondPrime % k.firstPrime = 1

/-- The public key information of an RSA key. -/
def rsaPublicKeyInfo (content : Bytes) : Option Bytes := do
  let key ← whole readRsa content
  guard key.isConsistent
  pure (publicKeyInfo rsaAlgorithm
    (element sequenceTag (natural key.modulus ++ natural key.publicExponent)))

/-- Takes a bare key of a curve: the secret, perhaps the curve, and the public key. -/
def readCurveKey (curve : Weierstrass) : Reader (Bytes × Bytes) :=
  nested sequenceTag do
    guard ((← readNatural) = 1)
    let secret ← expect octetStringTag
    let named ← optional (numberedTag 0)
    guard (named.all (· = element identifierTag curve.identifier))
    pure (secret, ← nested (numberedTag 1) readBits)

/-- The public key information of a bare key of a curve, whose public key must be the right one. -/
def curvePublicKeyInfo (curve : Weierstrass) (content : Bytes) : Option Bytes := do
  let (secret, publicKey) ← whole (readCurveKey curve) content
  guard (curve.publicKey? secret = some publicKey)
  pure (publicKeyInfo (curveAlgorithm curve) publicKey)

/-- The public key information of a wrapped key of the Edwards curve. -/
def edwardsPublicKeyInfo (content : Bytes) : Option Bytes := do
  let (inner, stated) ← whole (readWrapper edwardsAlgorithm true) content
  let seed ← whole (expect octetStringTag) inner
  guard (seed.length = 32)
  let publicKey := Edwards.publicKey seed
  guard (stated.all (· = publicKey))
  pure (publicKeyInfo edwardsAlgorithm publicKey)

/-- The curves that keys may be on. -/
def curves : List Weierstrass := [.p256, .p384]

/-- The public key information of a key, if it is a key of a known kind. -/
def publicKeyInfo? (key : PrivateKey) : Option Bytes :=
  match key.format with
  | .rsa => rsaPublicKeyInfo key.content
  | .ec => curves.findSome? (curvePublicKeyInfo · key.content)
  | .wrapped =>
    let unwrapped (algorithm : Bytes) (read : Bytes → Option Bytes) : Option Bytes :=
      (whole (readWrapper algorithm false) key.content).bind fun wrapped => read wrapped.1
    unwrapped rsaAlgorithm rsaPublicKeyInfo <|>
      (curves.findSome? fun curve =>
        unwrapped (curveAlgorithm curve) (curvePublicKeyInfo curve)) <|>
      edwardsPublicKeyInfo key.content

end PrivateKey

end Sealing.Tls
