/-!
# Why sealing or opening fails

Every failure of the library's core is one of these causes. The wording lives in one function, and
callers that must not reveal a cause ask only whether the failure rejects the message itself.
-/

namespace Sealing

/-- A cause of failure when sealing, opening or transporting a message. -/
inductive SealError where
  /-- A primitive refuses a key of this length. -/
  | invalidKey (length : Nat)
  /-- A ciphertext is too short to hold an initial vector. -/
  | malformed (expected actual : Nat)
  /-- The tag is not the tag of the ciphertext under this key. -/
  | authenticationFailed
  /-- A text is not an envelope. -/
  | decode (reason : String)
  /-- An envelope could not be written as text. -/
  | encode (reason : String)
  /-- The random source did not deliver an initial vector. -/
  | randomSource (reason : String)
  /-- Reading or writing a stream failed. -/
  | io (reason : String)
  /-- No suite has this name. -/
  | unknownSuite (name : String)
deriving DecidableEq, Repr

namespace SealError

/-- The text of a failure. -/
def message : SealError → String
  | invalidKey length => s!"invalid key length: {length} bytes"
  | malformed expected actual =>
    s!"ciphertext too short: expected at least {expected} bytes, got {actual}"
  | authenticationFailed => "authentication failed: tag does not match ciphertext"
  | decode reason => s!"envelope decode failed: {reason}"
  | encode reason => s!"envelope encode failed: {reason}"
  | randomSource reason => s!"secure random source failed: {reason}"
  | io reason => s!"envelope I/O failed: {reason}"
  | unknownSuite name => s!"unknown cipher suite: {name}"

/-- Whether a failure rejects the submitted message itself. Callers answer all of these alike. -/
def isRejection : SealError → Bool
  | malformed .. | authenticationFailed | decode _ => true
  | _ => false

end SealError

end Sealing
