import Sealing.Proofs.Invertible

/-!
# Keys that a MAC does not tell apart

A keyed digest sees its key filled with zeros to a block, and a longer key only through its digest.
Keys that agree after this preparation have the same tags for every message. The zeros behind a key
do tell ciphers apart, since they make it a longer one; so what is sealed under a key of 16 or 24
bytes is authentic under the same key with zeros behind it, and the other way round, and is then
decrypted with the wrong key.
-/

namespace Sealing

/-- A MAC confuses two keys if they have the same tags, or failures, for every message. -/
def MacAlgorithm.Confuses (m : MacAlgorithm) (k k' : Bytes) : Prop :=
  ∀ message, m.compute k message = m.compute k' message

/-- Two keys are confused with each other. -/
theorem MacAlgorithm.Confuses.symm {m : MacAlgorithm} {k k' : Bytes} (h : m.Confuses k k') :
    m.Confuses k' k :=
  fun message => (h message).symm

namespace Hash

variable {v : Sha2} {key key' : Bytes} {n : Nat}

/-- A key that fits into a block is filled up with zeros. -/
theorem preparedKey_of_le (h : key.length ≤ v.blockBytes) :
    preparedKey v key = key.rightpad v.blockBytes 0 := by
  simp only [preparedKey, Nat.not_lt.mpr h, ite_false, List.rightpad]

/-- A key that does not fit is prepared as its digest is. -/
theorem preparedKey_digest (h : v.blockBytes < key.length) :
    preparedKey v (v.digest key) = preparedKey v key := by
  have hdigest : ¬v.blockBytes < (v.digest key).length := by
    rw [Sha2.length_digest, Sha2.blockBytes]
    omega
  simp only [preparedKey, h, hdigest, ite_true, ite_false]

/-- Zeros behind a key get lost among those it is filled up with. -/
theorem rightpad_rightpad (hkey : key.length ≤ n) {block : Nat} (hn : n ≤ block) :
    (key.rightpad n 0).rightpad block 0 = key.rightpad block 0 := by
  simp only [List.rightpad, List.length_append, List.length_replicate, List.append_assoc,
    List.replicate_append_replicate]
  congr 2
  omega

/-- Keys that are filled up to the same block have the same tags. -/
theorem hmac_of_rightpad_eq (h : key.length ≤ v.blockBytes) (h' : key'.length ≤ v.blockBytes)
    (heq : key.rightpad v.blockBytes 0 = key'.rightpad v.blockBytes 0) (message : Bytes) :
    hmac v key message = hmac v key' message := by
  rw [hmac, hmac, preparedKey_of_le h, preparedKey_of_le h', heq]

/-- A key that does not fit has the tags of its digest. -/
theorem hmac_digest (h : v.blockBytes < key.length) (message : Bytes) :
    hmac v (v.digest key) message = hmac v key message := by
  rw [hmac, hmac, preparedKey_digest h]

/-- A key has the tags that it has with zeros behind it, up to a block. -/
theorem hmac_rightpad (hkey : key.length ≤ n) (hn : n ≤ v.blockBytes) (message : Bytes) :
    hmac v (key.rightpad n 0) message = hmac v key message := by
  apply hmac_of_rightpad_eq
  · rwa [List.length_rightpad, Nat.max_eq_left hkey]
  · exact Nat.le_trans hkey hn
  · exact rightpad_rightpad hkey hn

/-- Test case 2 of RFC 4231. -/
example : hmac sha256 (Utf8.encode "Jefe") (Utf8.encode "what do ya want for nothing?") =
    [0x5b, 0xdc, 0xc1, 0x46, 0xbf, 0x60, 0x75, 0x4e, 0x6a, 0x04, 0x24, 0x26, 0x08, 0x95, 0x75, 0xc7,
      0x5a, 0x00, 0x3f, 0x08, 0x9d, 0x27, 0x39, 0x83, 0x9d, 0xec, 0x58, 0xb9, 0x64, 0xec, 0x38,
      0x43] := by
  decide +kernel

end Hash

/-- What a scheme seals under one key it opens under another: as the ciphertext is decrypted there,
and as many bytes as were sealed. -/
def Scheme.OpensAcross (s : Scheme) (k k' : Bytes) : Prop :=
  ∀ (plaintext : Bytes) (m : SealedMessage) (l after : Ledger),
    (s.sealMessage k plaintext).run l = (.ok m, after) → ∀ l' : Ledger,
      ((s.openParts k' m.ciphertext m.tag).run l').1 = ((s.decrypt k' m.ciphertext).run l').1 ∧
      ∃ p, ((s.openParts k' m.ciphertext m.tag).run l').1 = .ok p ∧ p.length = plaintext.length

/-- Keys that the MAC confuses open what was sealed under the other, if the cipher takes them. -/
theorem Scheme.opensAcross {s : Scheme} {k k' : Bytes} (hc : s.cipher.Invertible)
    (hk' : s.cipher.validateKey k' = .ok ()) (hmac : s.mac.Confuses k k') : s.OpensAcross k k' := by
  intro plaintext m l after hseal l'
  obtain ⟨vector, rest, -, hm, -⟩ := run_sealMessage_eq_ok_iff.mp hseal
  obtain ⟨body, hciphertext, hbody⟩ := hm.ciphertext_eq hc.toLawful
  have hlength : m.ciphertext.length = s.cipher.vectorLength + plaintext.length := by
    rw [hciphertext, List.length_append, hm.length_vector, hbody]
  have htag : s.mac.compute k' m.ciphertext = .ok m.tag := (hmac m.ciphertext).symm.trans hm.tagged
  have hopen : ((s.openParts k' m.ciphertext m.tag).run l').1 =
      ((s.decrypt k' m.ciphertext).run l').1 :=
    ((s.openParts_verifies_first k' m.ciphertext m.tag l').1 htag).2 l'
  have hroom : s.cipher.vectorLength ≤ m.ciphertext.length := by omega
  obtain ⟨p, hp⟩ := (exists_decrypt_iff hc hk').mpr hroom
  refine ⟨hopen, p, hopen.trans hp, ?_⟩
  rw [length_of_decrypt hc hk' hp]
  omega

namespace Suite

/-- The ciphers of suites are invertible. -/
theorem cipher_invertible (suite : Suite) : suite.scheme.cipher.Invertible := by
  cases suite <;> exact Aes.inMode_invertible _ _

/-- No suite tells a key from the same key with zeros behind it. -/
theorem confuses_rightpad (suite : Suite) {k : Bytes} {n : Nat} (hk : k.length ≤ n)
    (hn : n ≤ 64) : suite.scheme.mac.Confuses k (k.rightpad n 0) := by
  intro message
  cases suite <;> apply congrArg Except.ok <;> symm <;> apply Hash.hmac_rightpad hk
  · exact hn
  · exact hn
  · exact Nat.le_trans hn (by decide)

end Suite

/-- Two keys of at most a block that are equal when filled up with zeros have the same tags, and so
have a key of more than a block and its digest. Every suite therefore opens what it sealed under a
key of 16 or 24 bytes under that key with zeros behind it up to 24 or 32 bytes, and the other way
round: never with a rejection, always to what the ciphertext decrypts to under the other key. -/
theorem padded_keys_open_each_other :
    (∀ k k' : Bytes,
      (k.length ≤ 64 → k'.length ≤ 64 → k.rightpad 64 0 = k'.rightpad 64 0 →
        hmacSha256.Confuses k k') ∧
      (64 < k.length → hmacSha256.Confuses k (Hash.sha256.digest k)) ∧
      (k.length ≤ 128 → k'.length ≤ 128 → k.rightpad 128 0 = k'.rightpad 128 0 →
        hmacSha512.Confuses k k') ∧
      (128 < k.length → hmacSha512.Confuses k (Hash.sha512.digest k))) ∧
    ∀ (suite : Suite) (k : Bytes) (n : Nat), k.length ∈ [16, 24] → n ∈ [24, 32] →
      suite.scheme.OpensAcross k (k.rightpad n 0) ∧
      suite.scheme.OpensAcross (k.rightpad n 0) k := by
  constructor
  · intro k k'
    refine ⟨fun h h' heq message => ?_, fun h message => ?_, fun h h' heq message => ?_,
      fun h message => ?_⟩
    · exact congrArg Except.ok (Hash.hmac_of_rightpad_eq (v := Hash.sha256) h h' heq message)
    · exact congrArg Except.ok (Hash.hmac_digest (v := Hash.sha256) h message).symm
    · exact congrArg Except.ok (Hash.hmac_of_rightpad_eq (v := Hash.sha512) h h' heq message)
    · exact congrArg Except.ok (Hash.hmac_digest (v := Hash.sha512) h message).symm
  · intro suite k n hk hn
    simp only [List.mem_cons, List.not_mem_nil, or_false] at hk hn
    have hkn : k.length ≤ n := by omega
    have hmac := suite.confuses_rightpad hkn (by omega)
    have hshort : k.length ∈ Aes.keyLengths := by
      rcases hk with hk | hk <;> rw [hk] <;> decide
    have hlong : (k.rightpad n 0).length ∈ Aes.keyLengths := by
      rw [List.length_rightpad, Nat.max_eq_left hkn]
      rcases hn with rfl | rfl <;> decide
    exact ⟨Scheme.opensAcross suite.cipher_invertible (suite.validateKey_eq_ok hlong) hmac,
      Scheme.opensAcross suite.cipher_invertible (suite.validateKey_eq_ok hshort) hmac.symm⟩

/-- A key and the same key with a zero behind it, a key of a byte more than a block and its digest.
Five bytes sealed under a key of 16 bytes come out as some five bytes under one of 24, and those
sealed under that come out as some five bytes under the key of 16. -/
theorem padded_keys_open_each_other_five :
    (hmacSha256.Confuses [1] [1, 0] ∧
      hmacSha256.Confuses (List.replicate 65 1) (Hash.sha256.digest (List.replicate 65 1)) ∧
      hmacSha512.Confuses [1] [1, 0] ∧
      hmacSha512.Confuses (List.replicate 129 1) (Hash.sha512.digest (List.replicate 129 1))) ∧
    ∃ m m' after after' p p',
      (Suite.default.scheme.sealMessage (List.replicate 16 0x42) [1, 2, 3, 4, 5]).run
        ⟨⟨List.replicate 16 9, none⟩, [], []⟩ = (.ok m, after) ∧
      ((Suite.default.scheme.openParts (List.replicate 16 0x42 ++ List.replicate 8 0)
        m.ciphertext m.tag).run after).1 = .ok p ∧ p.length = 5 ∧
      (Suite.default.scheme.sealMessage
        (List.replicate 16 0x42 ++ List.replicate 8 0) [1, 2, 3, 4, 5]).run
        ⟨⟨List.replicate 16 9, none⟩, [], []⟩ = (.ok m', after') ∧
      ((Suite.default.scheme.openParts (List.replicate 16 0x42)
        m'.ciphertext m'.tag).run after').1 = .ok p' ∧ p'.length = 5 := by
  have hshort := padded_keys_open_each_other.1 [1] [1, 0]
  have hlong := padded_keys_open_each_other.1 (List.replicate 65 1) []
  have hlonger := padded_keys_open_each_other.1 (List.replicate 129 1) []
  refine ⟨⟨hshort.1 (by decide) (by decide) rfl, hlong.2.1 (by decide),
    hshort.2.2.1 (by decide) (by decide) rfl, hlonger.2.2.2 (by decide)⟩, ?_⟩
  obtain ⟨hacross, hback⟩ := padded_keys_open_each_other.2 Suite.default (List.replicate 16 0x42)
    24 (by decide) (by decide)
  have hround (key : Bytes) (hk : key.length ∈ Aes.keyLengths) :
      ∃ m after, Suite.default.scheme.RoundTrip key [1, 2, 3, 4, 5]
        ⟨⟨List.replicate 16 9, none⟩, [], []⟩ m after :=
    Suite.exists_roundTrip _ hk ⟨rfl, by decide⟩ _
  obtain ⟨m, after, h⟩ := hround (List.replicate 16 0x42) (by decide)
  obtain ⟨m', after', h'⟩ := hround (List.replicate 16 0x42 ++ List.replicate 8 0) (by decide)
  obtain ⟨-, p, hp, hlength⟩ := hacross _ _ _ _ h.sealed after
  obtain ⟨-, p', hp', hlength'⟩ := hback _ _ _ _ h'.sealed after'
  exact ⟨m, m', after, after', p, p', h.sealed, hp, hlength, h'.sealed, hp', hlength'⟩

end Sealing
