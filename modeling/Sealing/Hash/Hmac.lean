import Sealing.Hash.Sha2

/-!
# Keyed digests

A key enters a keyed digest only in its prepared form: a key longer than a block is replaced by its
digest, and the result is filled with zeros to a whole block. Two keys with the same prepared form
give the same tag for every message.
-/

namespace Sealing.Hash

/-- A key as one block. -/
def preparedKey (v : Sha2) (key : Bytes) : Bytes :=
  let short := if v.blockBytes < key.length then v.digest key else key
  short ++ List.replicate (v.blockBytes - short.length) 0

/-- The keyed digest under a prepared key. -/
def hmacPrepared (v : Sha2) (prepared message : Bytes) : Bytes :=
  let inner := v.digest (prepared.map (· ^^^ 0x36) ++ message)
  v.digest (prepared.map (· ^^^ 0x5C) ++ inner)

/-- The keyed digest of a message. Every key is usable. -/
def hmac (v : Sha2) (key message : Bytes) : Bytes := hmacPrepared v (preparedKey v key) message

/-- A tag is as long as a digest. -/
@[simp] theorem length_hmac (v : Sha2) (key message : Bytes) :
    (hmac v key message).length = 8 * v.wordBytes := by
  simp [hmac, hmacPrepared]

end Sealing.Hash
