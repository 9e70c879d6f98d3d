import Sealing.Proofs.Encrypting
import Sealing.Proofs.Feedback
import Sealing.Suite

/-!
# Opening inverts sealing

A scheme opens what it sealed if its cipher is lawful: it keeps lengths, decryption inverts
encryption under the same key and vector, and a key that is accepted can be used. Nothing is
asked of the MAC but that it yields tags under the key. The ciphers of the library are lawful and
its MACs take every key, so every suite opens what it sealed.
-/

namespace Sealing

/-- What a scheme expects of its cipher. -/
structure FeedbackCipher.Lawful (c : FeedbackCipher) : Prop where
  /-- An accepted key encrypts any data under any vector of the right length. -/
  encrypt_ok {key vector : Bytes} (data : Bytes) : c.validateKey key = .ok () →
    vector.length = c.vectorLength → ∃ body, c.encrypt key vector data = .ok body
  /-- Encryption keeps the length. -/
  length_encrypt {key vector data body : Bytes} : c.encrypt key vector data = .ok body →
    body.length = data.length
  /-- Decryption under the same key and vector inverts encryption. -/
  decrypt_encrypt {key vector data body : Bytes} : c.encrypt key vector data = .ok body →
    c.decrypt key vector body = .ok data

/-- A MAC can be used with a key if it yields a tag for every message. -/
def MacAlgorithm.Accepts (m : MacAlgorithm) (key : Bytes) : Prop :=
  ∀ message, ∃ tag, m.compute key message = .ok tag

namespace Aes

/-- A key is valid exactly if it has one of the three lengths. -/
theorem validateKey_eq_ok_iff {key : Bytes} :
    validateKey key = .ok () ↔ key.length ∈ keyLengths := by
  unfold validateKey
  split <;> simp [*]

/-- A mode runs under a key and a vector of the right lengths, and under no others. -/
theorem withBlock_eq_ok_iff {key vector out : Bytes} {run : (Block → Block) → Block → Bytes} :
    withBlock key vector run = .ok out ↔
      (key.length ∈ keyLengths ∧ vector.length = Block.size) ∧
        run (encryptBlock key) (Block.ofBytes vector) = out := by
  unfold withBlock
  split <;> simp [*]

/-- Encryption runs the mode under a key and a vector of the right lengths. -/
theorem encrypt_inMode_eq_ok_iff {mode : FeedbackMode} {name : String}
    {key vector data body : Bytes} :
    (inMode mode name).encrypt key vector data = .ok body ↔
      (key.length ∈ keyLengths ∧ vector.length = Block.size) ∧
        mode.encrypt (encryptBlock key) (Block.ofBytes vector) data = body := by
  rw [inMode, withBlock_eq_ok_iff]

/-- Decryption runs the mode under a key and a vector of the right lengths. -/
theorem decrypt_inMode_eq_ok_iff {mode : FeedbackMode} {name : String}
    {key vector data body : Bytes} :
    (inMode mode name).decrypt key vector body = .ok data ↔
      (key.length ∈ keyLengths ∧ vector.length = Block.size) ∧
        mode.decrypt (encryptBlock key) (Block.ofBytes vector) body = data := by
  rw [inMode, withBlock_eq_ok_iff]

/-- AES is lawful in either feedback mode. -/
theorem inMode_lawful (mode : FeedbackMode) (name : String) : (inMode mode name).Lawful := by
  refine ⟨fun data hk hv => ?_, fun h => ?_, fun h => ?_⟩
  · exact ⟨_, encrypt_inMode_eq_ok_iff.mpr ⟨⟨validateKey_eq_ok_iff.mp hk, hv⟩, rfl⟩⟩
  · obtain ⟨-, rfl⟩ := encrypt_inMode_eq_ok_iff.mp h
    exact FeedbackMode.length_encrypt _
  · obtain ⟨hkv, rfl⟩ := encrypt_inMode_eq_ok_iff.mp h
    exact decrypt_inMode_eq_ok_iff.mpr ⟨hkv, FeedbackMode.decrypt_encrypt _⟩

end Aes

namespace Scheme

variable {s : Scheme} {key plaintext vector : Bytes} {l : Ledger}

/-- Under an accepted key every vector makes a message. -/
theorem exists_seals (hc : s.cipher.Lawful) (hk : s.cipher.validateKey key = .ok ())
    (hm : s.mac.Accepts key) (hv : vector.length = s.cipher.vectorLength) (plaintext : Bytes) :
    ∃ m, s.Seals key plaintext vector m := by
  obtain ⟨body, hbody⟩ := hc.encrypt_ok plaintext hk hv
  obtain ⟨tag, htag⟩ := hm (vector ++ body)
  exact ⟨⟨vector ++ body, tag⟩, hk, hv, ⟨body, hbody, rfl⟩, htag⟩

/-- The ciphertext of a message is its vector and then as many bytes as the plaintext has. -/
theorem Seals.ciphertext_eq {m : SealedMessage} (hc : s.cipher.Lawful)
    (h : s.Seals key plaintext vector m) :
    ∃ body, m.ciphertext = vector ++ body ∧ body.length = plaintext.length := by
  obtain ⟨body, hbody, hciphertext⟩ := h.encrypted
  exact ⟨body, hciphertext, hc.length_encrypt hbody⟩

/-- A message opens to the plaintext it was made from, on every ledger. -/
theorem Seals.fst_run_openParts {m : SealedMessage} (hc : s.cipher.Lawful)
    (h : s.Seals key plaintext vector m) (l : Ledger) :
    ((s.openParts key m.ciphertext m.tag).run l).1 = .ok plaintext := by
  obtain ⟨body, hbody, hciphertext⟩ := h.encrypted
  have htag := h.tagged
  rw [hciphertext] at htag ⊢
  rw [fst_run_openParts_append h.accepted h.length_vector htag]
  exact hc.decrypt_encrypt hbody

/-- What a scheme promises a caller who seals and opens under one key. -/
structure RoundTrip (s : Scheme) (key plaintext : Bytes) (l : Ledger) (m : SealedMessage)
    (after : Ledger) : Prop where
  /-- Sealing returns the message. -/
  sealed : (s.sealMessage key plaintext).run l = (.ok m, after)
  /-- The ciphertext is the next bytes of the source, and then as many as the plaintext has. -/
  ciphertext : ∃ body, m.ciphertext =
    l.entropy.available.take s.cipher.vectorLength ++ body ∧ body.length = plaintext.length
  /-- No other bytes of the source are used. -/
  source : after.entropy.available = l.entropy.available.drop s.cipher.vectorLength
  /-- The tag is the MAC's tag of the whole ciphertext. -/
  tag : s.mac.compute key m.ciphertext = .ok m.tag
  /-- Opening the parts returns the plaintext, whatever happened in between. -/
  opened : ∀ l', ((s.openParts key m.ciphertext m.tag).run l').1 = .ok plaintext
  /-- Opening the message returns the plaintext. -/
  openedWhole : ∀ l', ((s.openMessage key m).run l').1 = .ok plaintext

/-- A scheme with a lawful cipher keeps the promise under every key that both primitives take. -/
theorem exists_roundTrip (hc : s.cipher.Lawful) (hk : s.cipher.validateKey key = .ok ())
    (hm : s.mac.Accepts key) (hl : l.entropy.Holds s.cipher.vectorLength) (plaintext : Bytes) :
    ∃ m after, s.RoundTrip key plaintext l m after := by
  have hv : (l.entropy.available.take s.cipher.vectorLength).length = s.cipher.vectorLength :=
    List.length_take_of_le hl.2
  obtain ⟨m, h⟩ := exists_seals hc hk hm hv plaintext
  have hrun := run_sealMessage_eq_ok_iff.mpr ⟨_, _, hl.draw_eq, h, rfl⟩
  exact ⟨m, _, hrun, h.ciphertext_eq hc, rfl, h.tagged, h.fst_run_openParts hc,
    h.fst_run_openParts hc⟩

end Scheme

/-- The MAC on SHA-256 takes every key. -/
theorem hmacSha256_accepts (key : Bytes) : hmacSha256.Accepts key := fun _ => ⟨_, rfl⟩

/-- The MAC on SHA-512 takes every key. -/
theorem hmacSha512_accepts (key : Bytes) : hmacSha512.Accepts key := fun _ => ⟨_, rfl⟩

namespace Suite

variable {key : Bytes}

/-- The ciphers of suites are lawful. -/
theorem cipher_lawful (suite : Suite) : suite.scheme.cipher.Lawful := by
  cases suite <;> exact Aes.inMode_lawful _ _

/-- The ciphers of suites take every key of an AES length. -/
theorem validateKey_eq_ok (suite : Suite) (hk : key.length ∈ Aes.keyLengths) :
    suite.scheme.cipher.validateKey key = .ok () := by
  cases suite <;> exact Aes.validateKey_eq_ok_iff.mpr hk

/-- The MACs of suites take every key. -/
theorem mac_accepts (suite : Suite) (key : Bytes) : suite.scheme.mac.Accepts key := by
  cases suite <;> exact fun _ => ⟨_, rfl⟩

@[simp] theorem vectorLength_scheme (suite : Suite) : suite.scheme.cipher.vectorLength = 16 := by
  cases suite <;> rfl

/-- Every tag of a suite has the length that the suite announces. -/
theorem length_tag (suite : Suite) {message tag : Bytes}
    (h : suite.scheme.mac.compute key message = .ok tag) :
    tag.length = suite.scheme.mac.tagLength := by
  cases suite <;> rw [← Except.ok.inj h, Hash.length_hmac] <;> rfl

/-- Every suite keeps the promise under every key of an AES length. -/
theorem exists_roundTrip (suite : Suite) {l : Ledger} (hk : key.length ∈ Aes.keyLengths)
    (hl : l.entropy.Holds 16) (plaintext : Bytes) :
    ∃ m after, suite.scheme.RoundTrip key plaintext l m after :=
  Scheme.exists_roundTrip suite.cipher_lawful (suite.validateKey_eq_ok hk) (suite.mac_accepts key)
    (by rwa [vectorLength_scheme]) plaintext

end Suite

/-- Opening inverts sealing for every scheme with a lawful cipher. The ciphers of the library are
lawful, take every key of 16, 24 or 32 bytes, and its MACs take every key at all; so the inverse
holds for every suite, with tags of 32, 32 and 64 bytes. -/
theorem openMessage_sealMessage :
    (∀ (s : Scheme) (key plaintext : Bytes) (l : Ledger), s.cipher.Lawful →
      s.cipher.validateKey key = .ok () → s.mac.Accepts key →
      l.entropy.Holds s.cipher.vectorLength → ∃ m after, s.RoundTrip key plaintext l m after) ∧
    (aesCfb.Lawful ∧ aesCfb8.Lawful ∧ ∀ key : Bytes, key.length ∈ [16, 24, 32] →
      aesCfb.validateKey key = .ok () ∧ aesCfb8.validateKey key = .ok ()) ∧
    (∀ key, hmacSha256.Accepts key ∧ hmacSha512.Accepts key) ∧
    (∀ (suite : Suite) (key plaintext : Bytes) (l : Ledger), key.length ∈ [16, 24, 32] →
      l.entropy.Holds 16 → ∃ m after, suite.scheme.RoundTrip key plaintext l m after ∧
        m.tag.length = suite.sealer.tagLength) ∧
    Suite.all.map (fun suite => suite.sealer.tagLength) = [32, 32, 64] := by
  refine ⟨fun s key plaintext l hc hk hm hl => Scheme.exists_roundTrip hc hk hm hl plaintext,
    ⟨Aes.inMode_lawful _ _, Aes.inMode_lawful _ _, fun key hk => ?_⟩,
    fun key => ⟨hmacSha256_accepts key, hmacSha512_accepts key⟩, ?_, rfl⟩
  · exact ⟨Aes.validateKey_eq_ok_iff.mpr hk, Aes.validateKey_eq_ok_iff.mpr hk⟩
  · intro suite key plaintext l hk hl
    obtain ⟨m, after, h⟩ := suite.exists_roundTrip hk hl plaintext
    exact ⟨m, after, h, suite.length_tag h.tag⟩

/-- A plaintext of 17 bytes under a key of 24, from a source of 16: for a suite, and for a pairing
that is none. -/
theorem openMessage_sealMessage_seventeen :
    (∃ m after, Suite.aesCfb8HmacSha256.scheme.RoundTrip (List.replicate 24 7)
      (List.replicate 17 1) ⟨⟨List.replicate 16 9, none⟩, [], []⟩ m after ∧ m.tag.length = 32) ∧
    ∃ m after, Scheme.RoundTrip ⟨aesCfb8, hmacSha512⟩ (List.replicate 24 7)
      (List.replicate 17 1) ⟨⟨List.replicate 16 9, none⟩, [], []⟩ m after :=
  ⟨openMessage_sealMessage.2.2.2.1 .aesCfb8HmacSha256 _ _ _ (by decide) ⟨rfl, by decide⟩,
    openMessage_sealMessage.1 _ _ _ _ openMessage_sealMessage.2.1.2.1 rfl
      (fun _ => ⟨_, rfl⟩) ⟨rfl, by decide⟩⟩

end Sealing
