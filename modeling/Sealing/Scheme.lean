import Sealing.Ledger
import Sealing.Primitive

/-!
# Encrypt, then authenticate

A scheme pairs a cipher with a MAC. Sealing encrypts under a fresh vector and tags vector and
ciphertext together; opening checks the tag first and decrypts only what it covers. A scheme has
no state of its own: the key is an argument of every operation, and the random source is in the
ledger.
-/

namespace Sealing

/-- A ciphertext that starts with its initial vector, and the tag over all of it. -/
structure SealedMessage where
  ciphertext : Bytes
  tag : Bytes
deriving DecidableEq, Repr

namespace SealedMessage

/-- The description of a sealed message shows lengths and no bytes. -/
def describe (m : SealedMessage) : String :=
  s!"SealedMessage \x7b ciphertext_len: {m.ciphertext.length}, tag_len: {m.tag.length} \x7d"

end SealedMessage

/-- A cipher and the MAC over its output. -/
structure Scheme where
  cipher : FeedbackCipher
  mac : MacAlgorithm

namespace Scheme

/-- The name of the pairing. -/
def name (s : Scheme) : String := s!"{s.cipher.name}-{s.mac.name}"

/-- The description of a scheme names its primitives. -/
def describe (s : Scheme) : String :=
  s!"AuthenticatedCipher \x7b cipher: \"{s.cipher.name}\", mac: \"{s.mac.name}\" \x7d"

/-- Asks the cipher whether it accepts a key. -/
def validateKey (s : Scheme) (key : Bytes) : Op Unit := do
  Op.record (.validateKey key)
  MonadExcept.ofExcept (s.cipher.validateKey key)

/-- The tag of a message. -/
def tag (s : Scheme) (key message : Bytes) : Op Bytes := do
  Op.record (.mac key message)
  MonadExcept.ofExcept (s.mac.compute key message)

/-- Encrypts under a fresh vector, which comes first in the result. The key is validated before
the random source is asked. -/
def encrypt (s : Scheme) (key plaintext : Bytes) : Op Bytes := do
  s.validateKey key
  let vector ← Op.draw s.cipher.vectorLength
  Op.record (.encrypt key vector plaintext)
  let body ← MonadExcept.ofExcept (s.cipher.encrypt key vector plaintext)
  pure (vector ++ body)

/-- Decrypts what `encrypt` produced. Checks no tag. -/
def decrypt (s : Scheme) (key blob : Bytes) : Op Bytes := do
  s.validateKey key
  if blob.length < s.cipher.vectorLength then
    throw (.malformed s.cipher.vectorLength blob.length)
  let vector := blob.take s.cipher.vectorLength
  let body := blob.drop s.cipher.vectorLength
  Op.record (.decrypt key vector body)
  MonadExcept.ofExcept (s.cipher.decrypt key vector body)

/-- Whether `candidate` is the tag of the message. A key that the MAC refuses verifies nothing. -/
def verifyTag (s : Scheme) (key message candidate : Bytes) : Op Bool := do
  match ← (s.tag key message).attempt with
  | .ok expected => pure (expected == candidate)
  | .error _ => pure false

/-- Encrypts, then tags vector and ciphertext. -/
def sealMessage (s : Scheme) (key plaintext : Bytes) : Op SealedMessage := do
  let ciphertext ← s.encrypt key plaintext
  let tag ← s.tag key ciphertext
  pure ⟨ciphertext, tag⟩

/-- The event of a tag that does not match. -/
def tagMismatch (ciphertext tag : Bytes) : Log.Event where
  level := .debug
  target := "sealbox::cipher"
  message := "tag verification failed"
  fields := [("ciphertext_len", .number ciphertext.length), ("tag_len", .number tag.length)]

/-- Checks the tag, and decrypts only if it matches. -/
def openParts (s : Scheme) (key ciphertext tag : Bytes) : Op Bytes := do
  if ← s.verifyTag key ciphertext tag then
    s.decrypt key ciphertext
  else
    Op.emit (tagMismatch ciphertext tag)
    throw .authenticationFailed

/-- Opens a sealed message. -/
def openMessage (s : Scheme) (key : Bytes) (m : SealedMessage) : Op Bytes :=
  s.openParts key m.ciphertext m.tag

end Scheme

end Sealing
