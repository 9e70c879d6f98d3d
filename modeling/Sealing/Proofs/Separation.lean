import Sealing.Proofs.Transport

/-!
# What separates the suites

The tag of a message depends on its ciphertext and on the MAC, but not on the cipher. Two suites
with different MACs have tags of different lengths, so each rejects what the other sealed. Two
suites that share the MAC accept each other's messages, and the one that opens decrypts with its
own mode.
-/

namespace Sealing

/-- Under an accepted key AES decrypts any data to data of the same length. -/
theorem Aes.exists_decrypt_inMode {mode : FeedbackMode} {name : String} {key vector : Bytes}
    (hk : key.length ∈ keyLengths) (hv : vector.length = Block.size) (body : Bytes) :
    ∃ data, (inMode mode name).decrypt key vector body = .ok data ∧
      data.length = body.length :=
  ⟨_, decrypt_inMode_eq_ok_iff.mpr ⟨⟨hk, hv⟩, rfl⟩, FeedbackMode.length_decrypt _⟩

/-- Encoding returns exactly the written forms of what sealing returns. -/
theorem Scheme.run_encode_eq_ok_iff {s : Scheme} {key plaintext : Bytes} {l after : Ledger}
    {text : String} :
    (s.encode key plaintext).run l = (.ok text, after) ↔
      ∃ m, (s.sealMessage key plaintext).run l = (.ok m, after) ∧
        m.toEnvelope.render = text := by
  constructor
  · intro h
    rcases hseal : (s.sealMessage key plaintext).run l with ⟨e | m, l'⟩
    · rw [encode, Op.run_bind_error hseal] at h
      simp at h
    · rw [run_encode hseal] at h
      obtain ⟨htext, rfl⟩ := Prod.mk.inj h
      exact ⟨m, rfl, Except.ok.inj htext⟩
  · rintro ⟨m, hseal, rfl⟩
    exact run_encode hseal

namespace Suite

variable {a b : Suite} {key plaintext vector : Bytes} {m : SealedMessage}

/-- A key that a suite accepts has one of the three lengths. -/
theorem length_of_validateKey (suite : Suite)
    (h : suite.scheme.cipher.validateKey key = .ok ()) : key.length ∈ Aes.keyLengths := by
  cases suite <;> exact Aes.validateKey_eq_ok_iff.mp h

/-- Every suite decrypts any data to data of the same length. -/
theorem exists_decrypt (suite : Suite) (hk : key.length ∈ Aes.keyLengths)
    (hv : vector.length = 16) (body : Bytes) :
    ∃ data, suite.scheme.cipher.decrypt key vector body = .ok data ∧
      data.length = body.length := by
  cases suite <;> exact Aes.exists_decrypt_inMode hk hv body

/-- A vector with nothing behind it, under its tag, is opened as the empty plaintext. -/
theorem fst_run_openMessage_vector {tag : Bytes} (suite : Suite)
    (hk : key.length ∈ Aes.keyLengths) (hv : vector.length = 16)
    (h : suite.scheme.mac.compute key vector = .ok tag) (l : Ledger) :
    ((suite.scheme.openMessage key ⟨vector, tag⟩).run l).1 = .ok [] := by
  obtain ⟨data, hdata, hlength⟩ := suite.exists_decrypt hk hv []
  obtain rfl := List.eq_nil_of_length_eq_zero hlength
  rw [← List.append_nil vector] at h
  have hopen := Scheme.fst_run_openParts_append (suite.validateKey_eq_ok hk)
    (hv.trans suite.vectorLength_scheme.symm) h l
  rw [List.append_nil] at hopen
  exact hopen.trans hdata

/-- Two suites share the MAC exactly if their tags are equally long. -/
theorem mac_eq_iff : a.scheme.mac = b.scheme.mac ↔ a.sealer.tagLength = b.sealer.tagLength := by
  constructor
  · intro h
    exact congrArg MacAlgorithm.tagLength h
  · cases a <;> cases b <;> intro h <;> first | rfl | (exact absurd h (by decide))

/-- A message is not authentic to a suite with another MAC. -/
theorem fst_run_openMessage_of_mac_ne (h : a.scheme.Seals key plaintext vector m)
    (hmac : a.scheme.mac ≠ b.scheme.mac) (l : Ledger) :
    ((b.scheme.openMessage key m).run l).1 = .error .authenticationFailed := by
  refine (Scheme.performs_openParts_mismatch fun htag => hmac ?_).fst_run l
  rw [mac_eq_iff]
  exact (a.length_tag h.tagged).symm.trans (b.length_tag htag)

/-- A message is authentic to every suite with the same MAC, and opens to as many bytes. -/
theorem fst_run_openMessage_of_mac_eq (h : a.scheme.Seals key plaintext vector m)
    (hmac : a.scheme.mac = b.scheme.mac) (l : Ledger) :
    ∃ p, ((b.scheme.openMessage key m).run l).1 = .ok p ∧ p.length = plaintext.length := by
  have hk := a.length_of_validateKey h.accepted
  have hv : vector.length = 16 := h.length_vector.trans a.vectorLength_scheme
  obtain ⟨body, hciphertext, hbody⟩ := h.ciphertext_eq a.cipher_lawful
  obtain ⟨p, hp, hlength⟩ := b.exists_decrypt hk hv body
  have htag : b.scheme.mac.compute key m.ciphertext = .ok m.tag := hmac ▸ h.tagged
  refine ⟨p, ?_, hlength.trans hbody⟩
  rw [Scheme.openMessage]
  rw [hciphertext] at htag ⊢
  rw [Scheme.fst_run_openParts_append (b.validateKey_eq_ok hk)
    (hv.trans b.vectorLength_scheme.symm) htag]
  exact hp

end Suite

/-- An envelope is rejected by another suite exactly if the two have different MACs. If they share
the MAC, it is decrypted with the other suite's mode, and comes out with the right length. -/
theorem decode_under_other_suite {a b : Suite} {key plaintext : Bytes} {l after : Ledger}
    {text : String} (h : (a.scheme.encode key plaintext).run l = (.ok text, after))
    (l' : Ledger) :
    (((b.scheme.decode key text).run l').1 = .error .authenticationFailed ↔
      a.scheme.mac ≠ b.scheme.mac) ∧
    (a.scheme.mac = b.scheme.mac →
      ∃ p, ((b.scheme.decode key text).run l').1 = .ok p ∧ p.length = plaintext.length) := by
  obtain ⟨m, hseal, rfl⟩ := Scheme.run_encode_eq_ok_iff.mp h
  obtain ⟨vector, rest, -, hm, -⟩ := Scheme.run_sealMessage_eq_ok_iff.mp hseal
  rw [Scheme.decode, Scheme.decodeBytes_of_parseSealed (Scheme.parseSealed_render m)]
  by_cases hmac : a.scheme.mac = b.scheme.mac
  · obtain ⟨p, hp, hlength⟩ := Suite.fst_run_openMessage_of_mac_eq hm hmac l'
    refine ⟨?_, fun _ => ⟨p, hp, hlength⟩⟩
    rw [hp]
    simp [hmac]
  · refine ⟨?_, fun heq => absurd heq hmac⟩
    rw [Suite.fst_run_openMessage_of_mac_ne hm hmac]
    simp [hmac]

/-- One byte sealed under one MAC is rejected under the other. -/
theorem decode_under_other_mac : ∃ text after,
    (Suite.aesCfbHmacSha256.scheme.encode (List.replicate 16 0x42) [0x78]).run
      ⟨⟨List.replicate 16 0, none⟩, [], []⟩ = (.ok text, after) ∧
    ((Suite.aesCfbHmacSha512.scheme.decode (List.replicate 16 0x42) text).run after).1 =
      .error .authenticationFailed := by
  have hround : ∃ m after, Suite.aesCfbHmacSha256.scheme.RoundTrip (List.replicate 16 0x42) [0x78]
      ⟨⟨List.replicate 16 0, none⟩, [], []⟩ m after :=
    Suite.exists_roundTrip _ (by decide) ⟨rfl, by decide⟩ _
  obtain ⟨m, after, h⟩ := hround
  have hencode := Scheme.run_encode h.sealed
  refine ⟨_, after, hencode, (decode_under_other_suite hencode after).1.mpr fun hmac => ?_⟩
  exact absurd (Suite.mac_eq_iff.mp hmac) (by decide)

/-- Five bytes sealed in one mode are authentic in the other, under the same key. -/
theorem decode_under_other_mode : ∃ text after p,
    (Suite.aesCfbHmacSha256.scheme.encode (List.replicate 16 0) [0x68, 0x65, 0x6C, 0x6C, 0x6F]).run
      ⟨⟨List.replicate 16 0, none⟩, [], []⟩ = (.ok text, after) ∧
    ((Suite.aesCfb8HmacSha256.scheme.decode (List.replicate 16 0) text).run after).1 = .ok p ∧
    p.length = 5 := by
  have hround : ∃ m after, Suite.aesCfbHmacSha256.scheme.RoundTrip (List.replicate 16 0)
      [0x68, 0x65, 0x6C, 0x6C, 0x6F] ⟨⟨List.replicate 16 0, none⟩, [], []⟩ m after :=
    Suite.exists_roundTrip _ (by decide) ⟨rfl, by decide⟩ _
  obtain ⟨m, after, h⟩ := hround
  obtain ⟨vector, rest, -, hm, -⟩ := Scheme.run_sealMessage_eq_ok_iff.mp h.sealed
  obtain ⟨p, hp, hlength⟩ :=
    Suite.fst_run_openMessage_of_mac_eq (b := .aesCfb8HmacSha256) hm rfl after
  refine ⟨_, after, p, Scheme.run_encode h.sealed, ?_, hlength⟩
  rw [Scheme.decode, Scheme.decodeBytes_of_parseSealed (Scheme.parseSealed_render m)]
  exact hp

end Sealing
