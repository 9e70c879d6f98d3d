import Sealing.Proofs.Operation
import Sealing.Scheme

/-!
# The order of checks when opening

Opening starts with one MAC pass over the whole ciphertext. If it yields the presented tag, what
follows is decryption and nothing else; if it does not, nothing follows but a log event, so the
cipher is never asked about a ciphertext that is not authentic.
-/

namespace Sealing

/-- Whether a call is a MAC pass. -/
def PrimitiveCall.isMac : PrimitiveCall → Bool
  | .mac _ _ => true
  | _ => false

namespace Scheme

open Op (Performs)

/-- Asking about a key is one call. -/
theorem performs_validateKey (s : Scheme) (key : Bytes) :
    (s.validateKey key).Performs (s.cipher.validateKey key) [.validateKey key] [] :=
  (Op.performs_record _).bind_ok (Op.performs_ofExcept _)

/-- A tag is one MAC pass over the message. -/
theorem performs_tag (s : Scheme) (key message : Bytes) :
    (s.tag key message).Performs (s.mac.compute key message) [.mac key message] [] :=
  (Op.performs_record _).bind_ok (Op.performs_ofExcept _)

/-- Checking a tag is one MAC pass, never fails, and says whether the MAC yields that tag. -/
theorem performs_verifyTag {s : Scheme} {key message candidate : Bytes} {verdict : Bool}
    (h : verdict = true ↔ s.mac.compute key message = .ok candidate) :
    (s.verifyTag key message candidate).Performs (.ok verdict) [.mac key message] [] := by
  have htag := (s.performs_tag key message).attempt
  cases hm : s.mac.compute key message with
  | error e =>
    rw [hm] at h htag
    have hv : verdict = false := by simpa using h
    exact hv ▸ htag.bind_ok (Op.performs_pure false)
  | ok expected =>
    rw [hm] at h htag
    have hv : verdict = (expected == candidate) := by
      rw [Bool.eq_iff_iff, h, beq_iff_eq, Except.ok.injEq]
    exact hv ▸ htag.bind_ok (Op.performs_pure (expected == candidate))

/-- A key that the cipher refuses is reported before anything else of decryption. -/
theorem performs_decrypt_refused {s : Scheme} {key : Bytes} {e : SealError}
    (hk : s.cipher.validateKey key = .error e) (blob : Bytes) :
    (s.decrypt key blob).Performs (.error e) [.validateKey key] [] :=
  Performs.bind_error (hk ▸ s.performs_validateKey key)

/-- A blob without room for a vector is reported before the cipher runs. -/
theorem performs_decrypt_short {s : Scheme} {key blob : Bytes}
    (hk : s.cipher.validateKey key = .ok ()) (hb : blob.length < s.cipher.vectorLength) :
    (s.decrypt key blob).Performs (.error (.malformed s.cipher.vectorLength blob.length))
      [.validateKey key] [] := by
  have hkey := s.performs_validateKey key
  rw [hk] at hkey
  refine hkey.bind_ok (show Performs _ _ [] [] from ?_)
  simp only [hb, ite_true]
  exact (Op.performs_throw _).bind_error

/-- Decryption splits the vector off and hands the rest to the cipher. -/
theorem performs_decrypt {s : Scheme} {key blob : Bytes}
    (hk : s.cipher.validateKey key = .ok ()) (hb : s.cipher.vectorLength ≤ blob.length) :
    (s.decrypt key blob).Performs
      (s.cipher.decrypt key (blob.take s.cipher.vectorLength) (blob.drop s.cipher.vectorLength))
      [.validateKey key,
        .decrypt key (blob.take s.cipher.vectorLength) (blob.drop s.cipher.vectorLength)] [] := by
  have hkey := s.performs_validateKey key
  rw [hk] at hkey
  refine hkey.bind_ok (show Performs _ _ [_] [] from ?_)
  simp only [Nat.not_lt.mpr hb, ite_false]
  exact (Op.performs_record _).bind_ok (Op.performs_ofExcept _)

/-- The calls of a decryption: the key is validated, and then the cipher runs at most once. -/
theorem decrypt_performs (s : Scheme) (key blob : Bytes) :
    ∃ result calls, (s.decrypt key blob).Performs result calls [] ∧
      (calls = [.validateKey key] ∨ calls = [.validateKey key,
        .decrypt key (blob.take s.cipher.vectorLength)
          (blob.drop s.cipher.vectorLength)]) := by
  cases hk : s.cipher.validateKey key with
  | error e => exact ⟨_, _, performs_decrypt_refused hk blob, .inl rfl⟩
  | ok u =>
    by_cases hb : blob.length < s.cipher.vectorLength
    · exact ⟨_, _, performs_decrypt_short hk hb, .inl rfl⟩
    · exact ⟨_, _, performs_decrypt hk (Nat.not_lt.mp hb), .inr rfl⟩

/-- A tag that does not verify ends the operation after the MAC pass. -/
theorem performs_openParts_mismatch {s : Scheme} {key ciphertext tag : Bytes}
    (h : s.mac.compute key ciphertext ≠ .ok tag) :
    (s.openParts key ciphertext tag).Performs (.error .authenticationFailed)
      [.mac key ciphertext] [tagMismatch ciphertext tag] := by
  have hverify : (s.verifyTag key ciphertext tag).Performs (.ok false) _ _ :=
    performs_verifyTag (by simpa using h)
  exact hverify.bind_ok ((Op.performs_emit _).bind_ok (Op.performs_throw _))

/-- A tag that verifies leaves the rest to decryption. -/
theorem run_openParts_verified {s : Scheme} {key ciphertext tag : Bytes}
    (h : s.mac.compute key ciphertext = .ok tag) (l : Ledger) :
    (s.openParts key ciphertext tag).run l =
      (s.decrypt key ciphertext).run (l.extend [.mac key ciphertext] []) := by
  have hverify : (s.verifyTag key ciphertext tag).Performs (.ok true) _ _ :=
    performs_verifyTag (by simpa using h)
  exact Op.run_bind_ok (hverify l) _

/-- Under an accepted key a tag that verifies leads to the cipher's answer for what stands behind
the vector. -/
theorem fst_run_openParts_append {s : Scheme} {key vector body tag : Bytes}
    (hk : s.cipher.validateKey key = .ok ()) (hv : vector.length = s.cipher.vectorLength)
    (h : s.mac.compute key (vector ++ body) = .ok tag) (l : Ledger) :
    ((s.openParts key (vector ++ body) tag).run l).1 = s.cipher.decrypt key vector body := by
  have hlength : s.cipher.vectorLength ≤ (vector ++ body).length := by
    rw [List.length_append]
    omega
  rw [run_openParts_verified h, (performs_decrypt hk hlength).fst_run, ← hv, List.take_left,
    List.drop_left]

/-- Opening asks for one MAC pass first. What follows is decryption if the tag verified, and
otherwise no call at all; in that case the failure is always the same. -/
theorem openParts_verifies_first (s : Scheme) (key ciphertext tag : Bytes) (l : Ledger) :
    (s.mac.compute key ciphertext = .ok tag →
      (s.openParts key ciphertext tag).run l =
          (s.decrypt key ciphertext).run (l.extend [.mac key ciphertext] []) ∧
        ∀ l', ((s.openParts key ciphertext tag).run l).1 = ((s.decrypt key ciphertext).run l').1) ∧
    (s.mac.compute key ciphertext ≠ .ok tag →
      (s.openParts key ciphertext tag).run l =
        (.error .authenticationFailed,
          l.extend [.mac key ciphertext] [tagMismatch ciphertext tag])) ∧
    (∃ later, ((s.openParts key ciphertext tag).run l).2.calls =
        l.calls ++ .mac key ciphertext :: later ∧ ∀ c ∈ later, c.isMac = false) ∧
    (∀ e, ((s.openParts key ciphertext tag).run l).1 = .error e → e ≠ .authenticationFailed →
      s.mac.compute key ciphertext = .ok tag) ∧
    ∀ other, ((s.openParts key ciphertext tag).run l).1 ≠ .error .authenticationFailed →
      ((s.openParts key ciphertext other).run l).1 ≠ .error .authenticationFailed →
      other = tag := by
  have hverified (t : Bytes)
      (h : ((s.openParts key ciphertext t).run l).1 ≠ .error .authenticationFailed) :
      s.mac.compute key ciphertext = .ok t :=
    Classical.byContradiction fun hne => h ((performs_openParts_mismatch hne).fst_run l)
  obtain ⟨result, calls, hdecrypt, hcalls⟩ := s.decrypt_performs key ciphertext
  refine ⟨fun h => ⟨run_openParts_verified h l, fun l' => ?_⟩,
    fun h => performs_openParts_mismatch h l, ?_, ?_, ?_⟩
  · rw [run_openParts_verified h, hdecrypt.fst_run, hdecrypt.fst_run]
  · by_cases h : s.mac.compute key ciphertext = .ok tag
    · refine ⟨calls, ?_, ?_⟩
      · rw [run_openParts_verified h, hdecrypt]
        simp only [Ledger.extend_extend, Ledger.calls_extend, List.singleton_append]
      · rcases hcalls with rfl | rfl <;> simp [PrimitiveCall.isMac]
    · exact ⟨[], by rw [performs_openParts_mismatch h]; rfl, by simp⟩
  · intro e he hne
    exact hverified tag (by simpa [he] using hne)
  · intro other htag hother
    exact Except.ok.inj ((hverified other hother).symm.trans (hverified tag htag))

/-- A blob of five bytes is too short under its own tag, and not authentic under any other. -/
theorem openParts_short_blob :
    ((⟨aesCfb, hmacSha256⟩ : Scheme).openParts (List.replicate 16 0) [1, 2, 3, 4, 5]
        (Hash.hmac Hash.sha256 (List.replicate 16 0) [1, 2, 3, 4, 5])).run ⟨⟨[], none⟩, [], []⟩ =
      (.error (.malformed 16 5), ⟨⟨[], none⟩, [.mac (List.replicate 16 0) [1, 2, 3, 4, 5],
        .validateKey (List.replicate 16 0)], []⟩) ∧
    ((⟨aesCfb, hmacSha256⟩ : Scheme).openParts (List.replicate 16 0) [1, 2, 3, 4, 5] []).run
        ⟨⟨[], none⟩, [], []⟩ =
      (.error .authenticationFailed, ⟨⟨[], none⟩, [.mac (List.replicate 16 0) [1, 2, 3, 4, 5]],
        [tagMismatch [1, 2, 3, 4, 5] []]⟩) := by
  constructor
  · rw [((openParts_verifies_first _ _ _ _ _).1 rfl).1,
      performs_decrypt_short rfl (by decide)]
    rfl
  · refine (openParts_verifies_first _ _ _ _ _).2.1 fun h => ?_
    have hlength := congrArg List.length (Except.ok.inj h)
    rw [Hash.length_hmac] at hlength
    exact absurd hlength (by decide)

end Scheme

end Sealing
