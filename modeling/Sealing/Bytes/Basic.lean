/-!
# Byte strings

A byte string is a list of bytes, so that laws are proved by induction. This module holds the few
operations that the ciphers, the digests and the text formats share.
-/

namespace Sealing

/-- A finite string of bytes. -/
abbrev Bytes := List UInt8

namespace Bytes

/-- Bytewise exclusive or; the result is as long as the shorter operand. -/
def xor (a b : Bytes) : Bytes := List.zipWith (· ^^^ ·) a b

@[simp] theorem length_xor (a b : Bytes) : (xor a b).length = min a.length b.length := by
  simp [xor]

/-- The last `count` base-256 digits of `n`, most significant first. -/
def ofNatBE (count n : Nat) : Bytes :=
  (List.range count).map fun i => UInt8.ofNat (n / Nat.pow 256 (count - 1 - i))

@[simp] theorem length_ofNatBE (count n : Nat) : (ofNatBE count n).length = count := by
  simp [ofNatBE]

/-- The number written by a byte string in base 256, most significant digit first. -/
def toNatBE (b : Bytes) : Nat := b.foldl (fun n x => n * 256 + x.toNat) 0

/-- The number written by a byte string in base 256, least significant digit first. -/
def toNatLE (b : Bytes) : Nat := toNatBE b.reverse

/-- The last `count` base-256 digits of `n`, least significant first. -/
def ofNatLE (count n : Nat) : Bytes := (ofNatBE count n).reverse

/-- Cuts a byte string into consecutive pieces of `width + 1` bytes, the last one possibly
shorter. -/
def pieces (width : Nat) : Bytes → List Bytes
  | [] => []
  | b :: bs => (b :: bs.take width) :: pieces width (bs.drop width)
termination_by b => b.length
decreasing_by
  simp only [List.length_drop, List.length_cons]
  omega

end Bytes

end Sealing
