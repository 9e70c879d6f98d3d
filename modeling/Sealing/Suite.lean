import Sealing.Scheme.Transport
import Sealing.Text.Blank

/-!
# Suites

A suite is one of the supported pairings, by name. A sealer is what a service needs of a suite: the
operations, without the primitives behind them.
-/

namespace Sealing

/-- The operations of a configured suite. -/
structure Sealer where
  /-- The name of the suite. -/
  suite : String
  /-- The length of its tags. -/
  tagLength : Nat
  sealMessage : (key plaintext : Bytes) → Op SealedMessage
  openParts : (key ciphertext tag : Bytes) → Op Bytes
  encode : (key plaintext : Bytes) → Op String
  decode : (key : Bytes) → (text : String) → Op Bytes
  decodeBytes : (key text : Bytes) → Op Bytes

/-- The sealer of a scheme. -/
def Scheme.sealer (s : Scheme) : Sealer where
  suite := s.name
  tagLength := s.mac.tagLength
  sealMessage := s.sealMessage
  openParts := s.openParts
  encode := s.encode
  decode := s.decode
  decodeBytes := s.decodeBytes

/-- The supported pairings. -/
inductive Suite where
  | aesCfbHmacSha256
  | aesCfb8HmacSha256
  | aesCfbHmacSha512
deriving DecidableEq, Repr

namespace Suite

/-- Every suite, the default first. -/
def all : List Suite := [aesCfbHmacSha256, aesCfb8HmacSha256, aesCfbHmacSha512]

/-- The suite that is used unless another one is configured. -/
def default : Suite := aesCfbHmacSha256

/-- The name used in a configuration. -/
def name : Suite → String
  | aesCfbHmacSha256 => "aes-cfb-hmac-sha256"
  | aesCfb8HmacSha256 => "aes-cfb8-hmac-sha256"
  | aesCfbHmacSha512 => "aes-cfb-hmac-sha512"

/-- The cipher and MAC of a suite. -/
def scheme : Suite → Scheme
  | aesCfbHmacSha256 => ⟨aesCfb, hmacSha256⟩
  | aesCfb8HmacSha256 => ⟨aesCfb8, hmacSha256⟩
  | aesCfbHmacSha512 => ⟨aesCfb, hmacSha512⟩

/-- The sealer of a suite. -/
def sealer (s : Suite) : Sealer := s.scheme.sealer

/-- A suite is named after its primitives. -/
theorem name_scheme (s : Suite) : s.scheme.name = s.name := by
  cases s <;> rfl

/-- Finds a suite by name, in any letter case and without regard to white space around it. -/
def parse (text : String) : Except SealError Suite :=
  match all.find? fun s => s.name == Text.lowerAsciiText (Text.trim text) with
  | some s => .ok s
  | none => .error (.unknownSuite text)

end Suite

end Sealing
