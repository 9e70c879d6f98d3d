import Sealing.Envelope
import Sealing.Stream

/-!
# Sealing to text and back

A sealed message travels as the text of its envelope. Opening a text costs one MAC pass whatever
is wrong with it: over the ciphertext if there is one, else over the text itself.
-/

namespace Sealing.Scheme

/-- Seals, and writes the envelope. -/
def encode (s : Scheme) (key plaintext : Bytes) : Op String := do
  let m ← s.sealMessage key plaintext
  pure m.toEnvelope.render

/-- The sealed message in a text. -/
def parseSealed (text : Bytes) : Except SealError SealedMessage :=
  match Envelope.parse text with
  | .error e => .error (.decode e.message)
  | .ok envelope => SealedMessage.ofEnvelope envelope

/-- Opens the envelope in a byte string. A text that is rejected costs a MAC pass over all of it,
whose result is not used. -/
def decodeBytes (s : Scheme) (key text : Bytes) : Op Bytes :=
  match parseSealed text with
  | .ok m => s.openMessage key m
  | .error e => do
    let _ ← (s.tag key text).attempt
    throw e

/-- Opens the envelope in a text. -/
def decode (s : Scheme) (key : Bytes) (text : String) : Op Bytes :=
  s.decodeBytes key (Utf8.encode text)

/-- Opens an envelope that has been read already. -/
def openEnvelope (s : Scheme) (key : Bytes) (e : Envelope) : Op Bytes := do
  let m ← MonadExcept.ofExcept (SealedMessage.ofEnvelope e)
  s.openMessage key m

/-- Seals, and writes the envelope to a sink. If sealing fails the sink is left alone. -/
def encodeTo (s : Scheme) (key plaintext : Bytes) (sink : Sink) (ledger : Ledger) :
    (Except SealError Unit × Sink) × Ledger :=
  match (s.sealMessage key plaintext).run ledger with
  | (.error e, ledger) => ((.error e, sink), ledger)
  | (.ok m, ledger) =>
    match sink.writeEach m.toEnvelope.pieces with
    | (.ok (), sink) => ((.ok (), sink), ledger)
    | (.error text, sink) => ((.error (.io text), sink), ledger)

/-- Opens the envelope that a source delivers. -/
def decodeFrom (s : Scheme) (key : Bytes) (source : Source) : Op Bytes :=
  match source.readAll with
  | .ok text => s.decodeBytes key text
  | .error text => throw (.io text)

end Sealing.Scheme
