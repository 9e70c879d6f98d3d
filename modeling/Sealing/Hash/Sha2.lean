import Sealing.Bytes.Basic
import Sealing.Hash.Constants

/-!
# SHA-2 digests

One definition for both word sizes: a variant gives the number of rounds, the rotation amounts and
the constants, and the digest is the fold of its compression function over the padded message. A
digest always has eight words, because the chaining state has them in its type.
-/

namespace Sealing.Hash

/-- The parameters of a digest on words of `8 * wordBytes` bits. -/
structure Sha2 where
  wordBytes : Nat
  rounds : Nat
  /-- Rotations applied to the first chaining word. -/
  upper0 : Nat × Nat × Nat
  /-- Rotations applied to the fifth chaining word. -/
  upper1 : Nat × Nat × Nat
  /-- Two rotations and a shift applied to the schedule word fifteen back. -/
  lower0 : Nat × Nat × Nat
  /-- Two rotations and a shift applied to the schedule word two back. -/
  lower1 : Nat × Nat × Nat

namespace Sha2

/-- The word of a variant. -/
abbrev Word (v : Sha2) := BitVec (8 * v.wordBytes)

/-- The chaining state: eight words. -/
abbrev State (v : Sha2) := Vector v.Word 8

/-- A message block has sixteen words. -/
def blockBytes (v : Sha2) : Nat := 16 * v.wordBytes

/-- The leading bits of a 64-bit constant. -/
def constant (v : Sha2) (bits : Nat) : v.Word := BitVec.ofNat _ (bits >>> (64 - 8 * v.wordBytes))

/-- The initial chaining state. -/
def initial (v : Sha2) : v.State := Vector.ofFn fun i => v.constant (squareRootBits.getD i.val 0)

/-- Exclusive or of three rotations. -/
def mixUpper (v : Sha2) (r : Nat × Nat × Nat) (x : v.Word) : v.Word :=
  x.rotateRight r.1 ^^^ x.rotateRight r.2.1 ^^^ x.rotateRight r.2.2

/-- Exclusive or of two rotations and a shift. -/
def mixLower (v : Sha2) (r : Nat × Nat × Nat) (x : v.Word) : v.Word :=
  x.rotateRight r.1 ^^^ x.rotateRight r.2.1 ^^^ (x >>> r.2.2)

/-- The message schedule of a block: its sixteen words, then one more for each later round. -/
def schedule (v : Sha2) (block : Bytes) : Array v.Word :=
  let start := ((Bytes.pieces (v.wordBytes - 1) block).map fun w =>
    (BitVec.ofNat _ (Bytes.toNatBE w) : v.Word)).toArray
  (List.range' 16 (v.rounds - 16)).foldl
    (fun ws i => ws.push (v.mixLower v.lower1 (ws.getD (i - 2) 0) + ws.getD (i - 7) 0 +
      v.mixLower v.lower0 (ws.getD (i - 15) 0) + ws.getD (i - 16) 0)) start

/-- One round on the chaining state, with the sum of its schedule word and constant. -/
def round (v : Sha2) (s : v.State) (term : v.Word) : v.State :=
  let choice := (s[4] &&& s[5]) ^^^ (~~~s[4] &&& s[6])
  let majority := (s[0] &&& s[1]) ^^^ (s[0] &&& s[2]) ^^^ (s[1] &&& s[2])
  let first := s[7] + v.mixUpper v.upper1 s[4] + choice + term
  let second := v.mixUpper v.upper0 s[0] + majority
  #v[first + second, s[0], s[1], s[2], s[3] + first, s[4], s[5], s[6]]

/-- Absorbs one block. -/
def compress (v : Sha2) (s : v.State) (block : Bytes) : v.State :=
  let terms := List.zipWith (fun w k => w + v.constant k) (v.schedule block).toList cubeRootBits
  Vector.zipWith (· + ·) s (terms.foldl v.round s)

/-- The message, a one bit, zeros up to a whole number of blocks, and the length in bits. -/
def padded (v : Sha2) (message : Bytes) : Bytes :=
  let zeros := (v.blockBytes - (message.length + 1 + 2 * v.wordBytes) % v.blockBytes) % v.blockBytes
  message ++ 0x80 :: List.replicate zeros 0 ++
    Bytes.ofNatBE (2 * v.wordBytes) (8 * message.length)

/-- The bytes of a chaining state. -/
def stateBytes (v : Sha2) (s : v.State) : Bytes :=
  s.toList.flatMap fun w => Bytes.ofNatBE v.wordBytes w.toNat

/-- The digest of a message. -/
def digest (v : Sha2) (message : Bytes) : Bytes :=
  v.stateBytes ((Bytes.pieces (v.blockBytes - 1) (v.padded message)).foldl v.compress v.initial)

/-- A state is eight words long. -/
theorem length_stateBytes (v : Sha2) (s : v.State) : (v.stateBytes s).length = 8 * v.wordBytes := by
  simp only [stateBytes, List.length_flatMap, Bytes.length_ofNatBE, List.map_const',
    Vector.length_toList, List.sum_replicate_nat]

/-- Every digest has eight words. -/
@[simp] theorem length_digest (v : Sha2) (message : Bytes) :
    (v.digest message).length = 8 * v.wordBytes :=
  length_stateBytes v _

end Sha2

/-- The digest of 32 bytes. -/
def sha256 : Sha2 where
  wordBytes := 4
  rounds := 64
  upper0 := (2, 13, 22)
  upper1 := (6, 11, 25)
  lower0 := (7, 18, 3)
  lower1 := (17, 19, 10)

/-- The digest of 64 bytes. -/
def sha512 : Sha2 where
  wordBytes := 8
  rounds := 80
  upper0 := (28, 34, 39)
  upper1 := (14, 18, 41)
  lower0 := (1, 8, 7)
  lower1 := (19, 61, 6)

end Sealing.Hash
