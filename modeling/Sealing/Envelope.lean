import Sealing.Bytes.Base64
import Sealing.Json.Printer
import Sealing.Scheme

/-!
# Envelopes

An envelope is a sealed message as two base64 texts, and travels as a JSON record of two members.
Base64 is read strictly, so an envelope that can be opened has one written form for each part.
-/

namespace Sealing

/-- A sealed message in the form of texts. -/
structure Envelope where
  ciphertext : String
  hmac : String
deriving DecidableEq, Repr

namespace Envelope

/-- The members of the written form. -/
def members : Json.Members := [("ciphertext", .text), ("hmac", .text)]

/-- The record of an envelope. -/
def toRecord (e : Envelope) : Json.Record members := (e.ciphertext, e.hmac, ())

/-- The envelope of a record. -/
def ofRecord (r : Json.Record members) : Envelope := ⟨r.1, r.2.1⟩

@[simp] theorem ofRecord_toRecord (e : Envelope) : ofRecord e.toRecord = e := rfl

/-- Reads an envelope. -/
def parse (text : Bytes) : Except Json.Error Envelope :=
  (Json.parseRecord "Envelope" members text).map ofRecord

/-- The written form in pieces. -/
def pieces (e : Envelope) : List Bytes :=
  (Json.Record.pieces members e.toRecord).map fun piece => Utf8.encode (String.ofList piece)

/-- The written form. -/
def render (e : Envelope) : String := Json.Record.render members e.toRecord

end Envelope

namespace SealedMessage

/-- Writes both parts as base64. -/
def toEnvelope (m : SealedMessage) : Envelope := ⟨Base64.encode m.ciphertext, Base64.encode m.tag⟩

/-- Reads a base64 text, and names the part it belongs to if that fails. -/
def readPart (part text : String) : Except SealError Bytes :=
  match Base64.decode text with
  | .ok bytes => .ok bytes
  | .error e => .error (.decode s!"{part}: {e.message}")

/-- Reads both parts, the ciphertext first. -/
def ofEnvelope (e : Envelope) : Except SealError SealedMessage :=
  match readPart "ciphertext" e.ciphertext with
  | .error f => .error f
  | .ok ciphertext =>
    match readPart "hmac" e.hmac with
    | .error f => .error f
    | .ok tag => .ok ⟨ciphertext, tag⟩

end SealedMessage

end Sealing
