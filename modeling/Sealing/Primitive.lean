import Sealing.Cipher.Feedback
import Sealing.Failure
import Sealing.Hash.Hmac

/-!
# Ciphers and MACs

The two capabilities that sealing is built from. Either may be any structure of these shapes; the
library brings AES in two feedback modes and the keyed digests on SHA-256 and SHA-512.
-/

namespace Sealing

/-- A cipher driven by an explicit initial vector, whose output is as long as its input. -/
structure FeedbackCipher where
  /-- The name used in suite names. -/
  name : String
  /-- The length of an initial vector. -/
  vectorLength : Nat
  /-- Refuses keys that the cipher cannot use, before any data is touched. -/
  validateKey : (key : Bytes) → Except SealError Unit
  encrypt : (key vector data : Bytes) → Except SealError Bytes
  decrypt : (key vector data : Bytes) → Except SealError Bytes

/-- A keyed digest with tags of one length. -/
structure MacAlgorithm where
  /-- The name used in suite names. -/
  name : String
  tagLength : Nat
  compute : (key message : Bytes) → Except SealError Bytes

namespace Aes

/-- A key is acceptable if it has one of the three lengths. -/
def validateKey (key : Bytes) : Except SealError Unit :=
  if key.length ∈ keyLengths then .ok () else .error (.invalidKey key.length)

/-- Runs a mode under a key and a vector. A key or a vector of the wrong length is reported with
the length of the key. -/
def withBlock (key vector : Bytes) (run : (Block → Block) → Block → Bytes) :
    Except SealError Bytes :=
  if key.length ∈ keyLengths ∧ vector.length = Block.size then
    .ok (run (encryptBlock key) (Block.ofBytes vector))
  else .error (.invalidKey key.length)

/-- AES in a feedback mode. -/
def inMode (mode : FeedbackMode) (name : String) : FeedbackCipher where
  name := name
  vectorLength := Block.size
  validateKey := validateKey
  encrypt key vector data := withBlock key vector fun image register =>
    mode.encrypt image register data
  decrypt key vector data := withBlock key vector fun image register =>
    mode.decrypt image register data

end Aes

/-- AES with whole blocks fed back. -/
def aesCfb : FeedbackCipher := Aes.inMode .full "aes-cfb"

/-- AES with single bytes fed back. -/
def aesCfb8 : FeedbackCipher := Aes.inMode .byte "aes-cfb8"

/-- The keyed digest on SHA-256. -/
def hmacSha256 : MacAlgorithm where
  name := "hmac-sha256"
  tagLength := 32
  compute key message := .ok (Hash.hmac Hash.sha256 key message)

/-- The keyed digest on SHA-512. -/
def hmacSha512 : MacAlgorithm where
  name := "hmac-sha512"
  tagLength := 64
  compute key message := .ok (Hash.hmac Hash.sha512 key message)

end Sealing
