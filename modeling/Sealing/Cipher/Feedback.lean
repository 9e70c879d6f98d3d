import Sealing.Aes.Block

/-!
# Feedback modes

A feedback mode turns a block function into a cipher for data of any length. The register starts
as the initial vector. Each segment is combined with the first bytes of the register's image, and
the ciphertext of the segment is then shifted into the register. Segments of sixteen bytes and
segments of one byte are the two modes in use; the definitions do not tell them apart.

Decryption differs from encryption only in where the ciphertext stands: it is the output of the
one and the input of the other.
-/

namespace Sealing

/-- A feedback mode, given by the number of bytes that are fed back at a time. -/
structure FeedbackMode where
  width : Nat
  width_pos : 0 < width := by decide
  width_le : width ≤ 16 := by decide

namespace FeedbackMode

/-- Whole blocks are fed back. -/
def full : FeedbackMode where
  width := 16

/-- Single bytes are fed back. -/
def byte : FeedbackMode where
  width := 1

/-- The register after a segment of ciphertext: the last sixteen bytes of both together. -/
def advance (register : Block) (segment : Bytes) : Block :=
  Block.window (register.bytes ++ segment) segment.length

/-- Encrypts a byte string, starting from a register. -/
def encrypt (mode : FeedbackMode) (image : Block → Block) (register : Block) : Bytes → Bytes
  | [] => []
  | b :: bs =>
    let segment := Bytes.xor ((b :: bs).take mode.width) (image register).bytes
    segment ++ encrypt mode image (advance register segment) ((b :: bs).drop mode.width)
termination_by data => data.length
decreasing_by
  have := mode.width_pos
  simp only [List.length_drop, List.length_cons]
  omega

/-- Decrypts a byte string, starting from a register. -/
def decrypt (mode : FeedbackMode) (image : Block → Block) (register : Block) : Bytes → Bytes
  | [] => []
  | b :: bs =>
    let segment := (b :: bs).take mode.width
    Bytes.xor segment (image register).bytes ++
      decrypt mode image (advance register segment) ((b :: bs).drop mode.width)
termination_by data => data.length
decreasing_by
  have := mode.width_pos
  simp only [List.length_drop, List.length_cons]
  omega

end FeedbackMode

end Sealing
