import Sealing.Suite

/-!
# A workbench

A workbench holds a suite, a key and a message in its three forms: sealed, as an envelope, and as
text. Steps move the message between the forms, tamper with it and open it. A step that fails
leaves the workbench as it was.
-/

namespace Sealing

/-- What is on the bench. -/
structure Workbench where
  suite : Suite
  key : Bytes
  message : SealedMessage := ⟨[], []⟩
  envelope : Envelope := ⟨"", ""⟩
  text : Bytes := []

/-- The parts of a workbench that can be tampered with. -/
inductive Part where
  | ciphertext
  | tag
  | text
deriving DecidableEq, Repr

namespace Workbench

/-- The bytes of a part. -/
def get (w : Workbench) : Part → Bytes
  | .ciphertext => w.message.ciphertext
  | .tag => w.message.tag
  | .text => w.text

/-- Replaces the bytes of a part. -/
def set (w : Workbench) (part : Part) (bytes : Bytes) : Workbench :=
  match part with
  | .ciphertext => { w with message := { w.message with ciphertext := bytes } }
  | .tag => { w with message := { w.message with tag := bytes } }
  | .text => { w with text := bytes }

/-- What is set is what is found. -/
@[simp] theorem get_set (w : Workbench) (part : Part) (bytes : Bytes) :
    (w.set part bytes).get part = bytes := by
  cases part <;> rfl

/-- Changes the bits of one byte, if there is one at the index. -/
def flip (w : Workbench) (part : Part) (index : Nat) (mask : UInt8) : Workbench :=
  w.set part ((w.get part).modify index (· ^^^ mask))

/-- Keeps at most the first bytes of a part. -/
def truncate (w : Workbench) (part : Part) (length : Nat) : Workbench :=
  w.set part ((w.get part).take length)

/-- Adds bytes to the end of a part. -/
def append (w : Workbench) (part : Part) (data : Bytes) : Workbench :=
  w.set part (w.get part ++ data)

/-- The operations of the chosen suite. -/
def sealer (w : Workbench) : Sealer := w.suite.sealer

/-- Chooses a suite by name. -/
def choose (w : Workbench) (name : String) : Except SealError Workbench :=
  match Suite.parse name with
  | .ok suite => .ok { w with suite := suite }
  | .error e => .error e

/-- Seals a plaintext into the message. -/
def sealPlain (w : Workbench) (plaintext : Bytes) : Op Workbench := do
  pure { w with message := ← w.sealer.sealMessage w.key plaintext }

/-- Opens the message. -/
def openMessage (w : Workbench) : Op Bytes :=
  w.sealer.openParts w.key w.message.ciphertext w.message.tag

/-- Decrypts the message without looking at its tag. -/
def decrypt (w : Workbench) : Op Bytes := w.suite.scheme.decrypt w.key w.message.ciphertext

/-- Whether the tag fits the ciphertext. -/
def verify (w : Workbench) : Op Bool :=
  w.suite.scheme.verifyTag w.key w.message.ciphertext w.message.tag

/-- Computes the tag anew. -/
def retag (w : Workbench) : Op Workbench := do
  pure (w.set .tag (← w.suite.scheme.tag w.key w.message.ciphertext))

/-- Writes the message into the envelope. -/
def toEnvelope (w : Workbench) : Workbench := { w with envelope := w.message.toEnvelope }

/-- Reads the message from the envelope. -/
def fromEnvelope (w : Workbench) : Except SealError Workbench :=
  match SealedMessage.ofEnvelope w.envelope with
  | .ok m => .ok { w with message := m }
  | .error e => .error e

/-- Opens the envelope. -/
def openEnvelope (w : Workbench) : Op Bytes := w.suite.scheme.openEnvelope w.key w.envelope

/-- Seals a plaintext into the text. -/
def encode (w : Workbench) (plaintext : Bytes) : Op Workbench := do
  pure { w with text := Utf8.encode (← w.sealer.encode w.key plaintext) }

/-- Opens the text, with replacement characters for what is not text. -/
def decode (w : Workbench) : Op Bytes := w.sealer.decode w.key (Utf8.decodeLossy w.text)

/-- Opens the bytes of the text. -/
def decodeBytes (w : Workbench) : Op Bytes := w.sealer.decodeBytes w.key w.text

end Workbench

end Sealing
