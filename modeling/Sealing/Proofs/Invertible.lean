import Sealing.Proofs.Bytewise

/-!
# Every blob is an encryption

A cipher is invertible if it can also be run backwards first: it decrypts whatever stands behind a
vector, and encrypting the outcome restores what was there. A scheme with such a cipher then
encrypts a plaintext to a blob exactly if the blob starts with the vector and decrypts to the
plaintext, so under one key and one vector the plaintexts and the blobs with that vector correspond
one to one. Feedback modes are invertible, whatever block function they have.
-/

namespace Sealing

/-- A cipher that also restores what it has decrypted. -/
structure FeedbackCipher.Invertible (c : FeedbackCipher) : Prop extends c.Lawful where
  /-- An accepted key decrypts any data under any vector of the right length. -/
  decrypt_ok {key vector : Bytes} (body : Bytes) : c.validateKey key = .ok () →
    vector.length = c.vectorLength → ∃ data, c.decrypt key vector body = .ok data
  /-- Decryption keeps the length. -/
  length_decrypt {key vector body data : Bytes} : c.decrypt key vector body = .ok data →
    data.length = body.length
  /-- Encryption under the same key and vector inverts decryption. -/
  encrypt_decrypt {key vector body data : Bytes} : c.decrypt key vector body = .ok data →
    c.encrypt key vector data = .ok body

/-- The ciphertext of the decryption is what was decrypted, because it chains the two. -/
theorem FeedbackMode.encrypt_decrypt {mode : FeedbackMode} {image : Block → Block}
    {register : Block} (body : Bytes) :
    mode.encrypt image register (mode.decrypt image register body) = body :=
  (chains_decrypt body).symm.eq_encrypt.symm

/-- AES is invertible in either feedback mode. -/
theorem Aes.inMode_invertible (mode : FeedbackMode) (name : String) :
    (inMode mode name).Invertible := by
  refine ⟨inMode_lawful mode name, fun body hk hv => ?_, fun h => ?_, fun h => ?_⟩
  · exact ⟨_, (inMode_eq_ok mode name (validateKey_eq_ok_iff.mp hk) hv body).2⟩
  · obtain ⟨-, rfl⟩ := decrypt_inMode_eq_ok_iff.mp h
    exact FeedbackMode.length_decrypt _
  · obtain ⟨hkv, rfl⟩ := decrypt_inMode_eq_ok_iff.mp h
    exact encrypt_inMode_eq_ok_iff.mpr ⟨hkv, FeedbackMode.encrypt_decrypt _⟩

namespace Scheme

variable {s : Scheme} {key blob data plaintext vector : Bytes} {l l' : Ledger}
  {rest rest' : Entropy}

/-- Under an accepted key decryption returns what the cipher makes of what stands behind the
vector, if there is a whole vector. -/
theorem fst_run_decrypt_eq_ok_iff (hk : s.cipher.validateKey key = .ok ()) :
    ((s.decrypt key blob).run l).1 = .ok data ↔ s.cipher.vectorLength ≤ blob.length ∧
      s.cipher.decrypt key (blob.take s.cipher.vectorLength) (blob.drop s.cipher.vectorLength) =
        .ok data := by
  by_cases hb : s.cipher.vectorLength ≤ blob.length
  · rw [(performs_decrypt hk hb).fst_run]
    exact (and_iff_right hb).symm
  · rw [(performs_decrypt_short hk (Nat.lt_of_not_le hb)).fst_run]
    simp [hb]

/-- Under an accepted key and a drawn vector encryption returns the vector and what the cipher makes
of the plaintext. -/
theorem fst_run_encrypt_eq_ok_iff (hk : s.cipher.validateKey key = .ok ())
    (hd : l.entropy.draw s.cipher.vectorLength = (.ok vector, rest)) :
    ((s.encrypt key plaintext).run l).1 = .ok blob ↔
      ∃ body, s.cipher.encrypt key vector plaintext = .ok body ∧ vector ++ body = blob := by
  rw [run_encrypt hk hd]
  cases s.cipher.encrypt key vector plaintext <;> simp [Except.map]

/-- An invertible cipher decrypts every blob with room for a vector. -/
theorem exists_decrypt_iff (hc : s.cipher.Invertible) (hk : s.cipher.validateKey key = .ok ()) :
    (∃ data, ((s.decrypt key blob).run l).1 = .ok data) ↔
      s.cipher.vectorLength ≤ blob.length := by
  constructor
  · rintro ⟨data, hdata⟩
    exact ((fst_run_decrypt_eq_ok_iff hk).mp hdata).1
  · intro hb
    obtain ⟨data, hdata⟩ := hc.decrypt_ok (blob.drop s.cipher.vectorLength) hk
      (List.length_take_of_le hb)
    exact ⟨data, (fst_run_decrypt_eq_ok_iff hk).mpr ⟨hb, hdata⟩⟩

/-- The vector is all that decryption takes away. -/
theorem length_of_decrypt (hc : s.cipher.Invertible) (hk : s.cipher.validateKey key = .ok ())
    (h : ((s.decrypt key blob).run l).1 = .ok data) :
    data.length = blob.length - s.cipher.vectorLength := by
  obtain ⟨-, hdata⟩ := (fst_run_decrypt_eq_ok_iff hk).mp h
  rw [hc.length_decrypt hdata, List.length_drop]

/-- A plaintext is encrypted to a blob exactly if the blob starts with the vector and is decrypted
to the plaintext. -/
theorem encrypt_eq_ok_iff (hc : s.cipher.Invertible) (hk : s.cipher.validateKey key = .ok ())
    (hd : l.entropy.draw s.cipher.vectorLength = (.ok vector, rest)) (l' : Ledger) :
    ((s.encrypt key plaintext).run l).1 = .ok blob ↔
      vector <+: blob ∧ ((s.decrypt key blob).run l').1 = .ok plaintext := by
  have hv : vector.length = s.cipher.vectorLength := (Entropy.draw_ok hd).1
  rw [fst_run_encrypt_eq_ok_iff hk hd, fst_run_decrypt_eq_ok_iff hk]
  constructor
  · rintro ⟨body, hbody, rfl⟩
    refine ⟨List.prefix_append vector body, ?_, ?_⟩
    · rw [List.length_append]
      omega
    · rw [← hv, List.take_left, List.drop_left]
      exact hc.decrypt_encrypt hbody
  · rintro ⟨⟨body, rfl⟩, -, hdata⟩
    rw [← hv, List.take_left, List.drop_left] at hdata
    exact ⟨body, hc.encrypt_decrypt hdata, rfl⟩

/-- Under an accepted key and a drawn vector encryption does not fail. -/
theorem exists_encrypt_eq_ok (hc : s.cipher.Lawful) (hk : s.cipher.validateKey key = .ok ())
    (hd : l.entropy.draw s.cipher.vectorLength = (.ok vector, rest)) (plaintext : Bytes) :
    ∃ blob, ((s.encrypt key plaintext).run l).1 = .ok blob := by
  obtain ⟨body, hbody⟩ := hc.encrypt_ok plaintext hk (Entropy.draw_ok hd).1
  exact ⟨_, (fst_run_encrypt_eq_ok_iff hk hd).mpr ⟨body, hbody, rfl⟩⟩

/-- One vector makes different blobs of different plaintexts. -/
theorem encrypt_injective (hc : s.cipher.Invertible) (hk : s.cipher.validateKey key = .ok ())
    (hd : l.entropy.draw s.cipher.vectorLength = (.ok vector, rest))
    (hd' : l'.entropy.draw s.cipher.vectorLength = (.ok vector, rest')) {p p' : Bytes}
    (h : ((s.encrypt key p).run l).1 = ((s.encrypt key p').run l').1) : p = p' := by
  obtain ⟨blob, hblob⟩ := exists_encrypt_eq_ok hc.toLawful hk hd p
  have hp := ((encrypt_eq_ok_iff hc hk hd l).mp hblob).2
  have hp' := ((encrypt_eq_ok_iff hc hk hd' l).mp (h.symm.trans hblob)).2
  rw [hp] at hp'
  exact Except.ok.inj hp'

/-- One vector makes exactly the blobs that start with it. -/
theorem exists_encrypt_iff (hc : s.cipher.Invertible) (hk : s.cipher.validateKey key = .ok ())
    (hd : l.entropy.draw s.cipher.vectorLength = (.ok vector, rest)) :
    (∃ p, ((s.encrypt key p).run l).1 = .ok blob) ↔ vector <+: blob := by
  constructor
  · rintro ⟨p, hp⟩
    exact ((encrypt_eq_ok_iff hc hk hd l).mp hp).1
  · intro hstart
    have hb : s.cipher.vectorLength ≤ blob.length := (Entropy.draw_ok hd).1 ▸ hstart.length_le
    obtain ⟨p, hp⟩ := (exists_decrypt_iff hc hk).mpr hb
    exact ⟨p, (encrypt_eq_ok_iff hc hk hd l).mpr ⟨hstart, hp⟩⟩

end Scheme

/-- With either cipher and any MAC, decryption under a key of an AES length takes exactly the blobs
of at least 16 bytes, and what it returns is encrypted to the same blob again if the source yields
the blob's vector. Under one vector encryption never fails, is injective and reaches all blobs that
start with the vector. -/
theorem blobs_are_encryptions {s : Scheme} {key : Bytes} (hs : s.cipher ∈ [aesCfb, aesCfb8])
    (hk : key.length ∈ [16, 24, 32]) :
    (∀ (blob : Bytes) (l : Ledger),
      ((∃ data, ((s.decrypt key blob).run l).1 = .ok data) ↔ 16 ≤ blob.length) ∧
      (blob.length < 16 →
        ((s.decrypt key blob).run l).1 = .error (.malformed 16 blob.length)) ∧
      ∀ data, ((s.decrypt key blob).run l).1 = .ok data → data.length = blob.length - 16 ∧
        ∀ (l' : Ledger) (rest : Entropy), l'.entropy.draw 16 = (.ok (blob.take 16), rest) →
          ((s.encrypt key data).run l').1 = .ok blob) ∧
    ∀ (vector : Bytes) (l l' : Ledger) (rest rest' : Entropy),
      l.entropy.draw 16 = (.ok vector, rest) → l'.entropy.draw 16 = (.ok vector, rest') →
      (∀ p p', ((s.encrypt key p).run l).1 = ((s.encrypt key p').run l').1 → p = p') ∧
      (∀ p, ∃ blob, ((s.encrypt key p).run l).1 = .ok blob) ∧
      ∀ blob, (∃ p, ((s.encrypt key p).run l).1 = .ok blob) ↔ vector <+: blob := by
  obtain ⟨hc, haccepted, hlength⟩ : s.cipher.Invertible ∧ s.cipher.validateKey key = .ok () ∧
      s.cipher.vectorLength = 16 := by
    simp only [List.mem_cons, List.not_mem_nil, or_false] at hs
    rcases hs with hs | hs <;> rw [hs] <;>
      exact ⟨Aes.inMode_invertible _ _, Aes.validateKey_eq_ok_iff.mpr hk, rfl⟩
  simp only [← hlength]
  constructor
  · intro blob l
    refine ⟨Scheme.exists_decrypt_iff hc haccepted, fun hb => ?_, fun data hdata => ?_⟩
    · exact (Scheme.performs_decrypt_short haccepted hb).fst_run l
    · refine ⟨Scheme.length_of_decrypt hc haccepted hdata, fun l' rest hd => ?_⟩
      exact (Scheme.encrypt_eq_ok_iff hc haccepted hd l).mpr ⟨List.take_prefix _ _, hdata⟩
  · intro vector l l' rest rest' hd hd'
    exact ⟨fun p p' h => Scheme.encrypt_injective hc haccepted hd hd' h,
      fun p => Scheme.exists_encrypt_eq_ok hc.toLawful haccepted hd p,
      fun blob => Scheme.exists_encrypt_iff hc haccepted hd⟩

/-- Twenty bytes that no one has encrypted, under a key of 32 bytes and with single bytes fed back:
they decrypt to four, which are encrypted to them again. Fifteen bytes are too few. -/
theorem blobs_are_encryptions_twenty :
    (∃ data, ((Scheme.decrypt ⟨aesCfb8, hmacSha512⟩ (List.replicate 32 7)
        (List.replicate 20 5)).run ⟨⟨[], none⟩, [], []⟩).1 = .ok data ∧ data.length = 4 ∧
      ((Scheme.encrypt ⟨aesCfb8, hmacSha512⟩ (List.replicate 32 7) data).run
        ⟨⟨List.replicate 16 5, none⟩, [], []⟩).1 = .ok (List.replicate 20 5) ∧
      ∀ p, ((Scheme.encrypt ⟨aesCfb8, hmacSha512⟩ (List.replicate 32 7) p).run
        ⟨⟨List.replicate 16 5, none⟩, [], []⟩).1 = .ok (List.replicate 20 5) → p = data) ∧
    ((Scheme.decrypt ⟨aesCfb8, hmacSha512⟩ (List.replicate 32 7) (List.replicate 15 5)).run
      ⟨⟨[], none⟩, [], []⟩).1 = .error (.malformed 16 15) := by
  have hkey : (List.replicate 32 7 : Bytes).length ∈ [16, 24, 32] := by decide
  have hlaw := blobs_are_encryptions (s := ⟨aesCfb8, hmacSha512⟩) (by simp) hkey
  have hlong := hlaw.1 (List.replicate 20 5) ⟨⟨[], none⟩, [], []⟩
  obtain ⟨data, hdata⟩ := hlong.1.mpr (by decide)
  obtain ⟨hlength, hagain⟩ := hlong.2.2 data hdata
  have hencrypt := hagain ⟨⟨List.replicate 16 5, none⟩, [], []⟩ ⟨[], none⟩ rfl
  refine ⟨⟨data, hdata, hlength, hencrypt, fun p hp => ?_⟩,
    (hlaw.1 (List.replicate 15 5) ⟨⟨[], none⟩, [], []⟩).2.1 (by decide)⟩
  exact (hlaw.2 (List.replicate 16 5) ⟨⟨List.replicate 16 5, none⟩, [], []⟩
    ⟨⟨List.replicate 16 5, none⟩, [], []⟩ ⟨[], none⟩ ⟨[], none⟩ rfl rfl).1 p data
      (hp.trans hencrypt.symm)

end Sealing
