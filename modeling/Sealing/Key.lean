import Sealing.Aes.Block
import Sealing.Bytes.Base64
import Sealing.Text.Blank

/-!
# Keys

A key is configured as the base64 text of 16, 24 or 32 bytes, with white space around it ignored.
The length is part of its type, and its description shows no byte.
-/

namespace Sealing

/-- Why a text is not a key. -/
inductive KeyError where
  /-- The text stands for no bytes. -/
  | empty
  /-- The text stands for this many bytes. -/
  | invalidLength (length : Nat)
  /-- The text is not base64. -/
  | invalidEncoding
deriving DecidableEq, Repr

/-- The text of a key error, which never repeats the configured text. -/
def KeyError.message : KeyError → String
  | empty => "zero-length AES key"
  | invalidLength length => s!"AES key must be 16, 24, or 32 bytes, got {length}"
  | invalidEncoding => "AES key is not valid base64"

/-- A usable key. -/
structure Key where
  bytes : Bytes
  length_mem : bytes.length ∈ Aes.keyLengths

namespace Key

/-- Reads a configured key. -/
def ofBase64 (text : String) : Except KeyError Key :=
  match Base64.decode (Text.trim text) with
  | .error _ => .error .invalidEncoding
  | .ok bytes =>
    if h : bytes.length ∈ Aes.keyLengths then .ok ⟨bytes, h⟩
    else if bytes = [] then .error .empty
    else .error (.invalidLength bytes.length)

/-- The number of bits of a key. -/
def bits (k : Key) : Nat := 8 * k.bytes.length

/-- No key is empty. -/
theorem bytes_ne_nil (k : Key) : k.bytes ≠ [] := by
  intro h
  have := k.length_mem
  simp [h, Aes.keyLengths] at this

/-- The description of a key. -/
def describe (_ : Key) : String := "KeyBytes([REDACTED])"

end Key

end Sealing
