import Sealing.Proofs.Opening

/-!
# The order of steps when sealing

Sealing validates the key, draws a vector, encrypts and tags, and stops at the first of these that
fails. Each step is described by the run it leads to, so a sealing that succeeds can be traced back
to the vector it drew.
-/

namespace Sealing

/-- A source that will deliver so many bytes. -/
def Entropy.Holds (source : Entropy) (count : Nat) : Prop :=
  source.failure = none ∧ count ≤ source.available.length

/-- Such a source delivers its next bytes and keeps the others. -/
theorem Entropy.Holds.draw_eq {source : Entropy} {count : Nat} (h : source.Holds count) :
    source.draw count = (.ok (source.available.take count),
      { source with available := source.available.drop count }) := by
  simp only [draw, h.1, Nat.not_lt.mpr h.2, ite_false]

namespace Scheme

open Op (Performs)

variable {s : Scheme} {key plaintext vector body ciphertext : Bytes} {l l' : Ledger}
  {rest : Entropy}

/-- A key that the cipher refuses is reported before the random source is asked. -/
theorem performs_encrypt_refused {e : SealError} (hk : s.cipher.validateKey key = .error e)
    (plaintext : Bytes) :
    (s.encrypt key plaintext).Performs (.error e) [.validateKey key] [] :=
  Performs.bind_error (hk ▸ s.performs_validateKey key)

/-- A source that does not deliver is reported before the cipher runs. -/
theorem run_encrypt_starved {text : String} (hk : s.cipher.validateKey key = .ok ())
    (hd : l.entropy.draw s.cipher.vectorLength = (.error text, rest)) :
    (s.encrypt key plaintext).run l =
      (.error (.randomSource text), l.extend [.validateKey key] []) := by
  have hkey : (s.validateKey key).run l = (.ok (), l.extend [.validateKey key] []) :=
    hk ▸ s.performs_validateKey key l
  have hdraw : (Op.draw s.cipher.vectorLength).run (l.extend [.validateKey key] []) =
      (.error (.randomSource text), l.extend [.validateKey key] []) := Op.run_draw_error hd
  rw [encrypt, Op.run_bind_ok hkey, Op.run_bind_error hdraw]

/-- A drawn vector comes first in the ciphertext, and the cipher's answer is the rest of it. -/
theorem run_encrypt (hk : s.cipher.validateKey key = .ok ())
    (hd : l.entropy.draw s.cipher.vectorLength = (.ok vector, rest)) :
    (s.encrypt key plaintext).run l =
      ((s.cipher.encrypt key vector plaintext).map (vector ++ ·),
        { l with entropy := rest }.extend
          [.validateKey key, .encrypt key vector plaintext] []) := by
  have hkey : (s.validateKey key).run l = (.ok (), l.extend [.validateKey key] []) :=
    hk ▸ s.performs_validateKey key l
  have hdraw : (Op.draw s.cipher.vectorLength).run (l.extend [.validateKey key] []) =
      (.ok vector, { l with entropy := rest }.extend [.validateKey key] []) := Op.run_draw_ok hd
  have hrecord := Op.performs_record (.encrypt key vector plaintext)
    ({ l with entropy := rest }.extend [.validateKey key] [])
  rw [encrypt, Op.run_bind_ok hkey, Op.run_bind_ok hdraw, Op.run_bind_ok hrecord]
  have hbody := (Op.performs_ofExcept (s.cipher.encrypt key vector plaintext))
    ({ l with entropy := rest }.extend [.validateKey key, .encrypt key vector plaintext] [])
  simp only [Ledger.extend_extend, List.append_nil] at hbody ⊢
  cases hc : s.cipher.encrypt key vector plaintext with
  | error e =>
    rw [hc] at hbody
    exact Op.run_bind_error hbody _
  | ok body =>
    rw [hc] at hbody
    exact Op.run_bind_ok hbody _

/-- A successful encryption went through every step. -/
theorem of_run_encrypt (h : (s.encrypt key plaintext).run l = (.ok ciphertext, l')) :
    ∃ vector rest body, s.cipher.validateKey key = .ok () ∧
      l.entropy.draw s.cipher.vectorLength = (.ok vector, rest) ∧
      s.cipher.encrypt key vector plaintext = .ok body ∧ ciphertext = vector ++ body ∧
      l' = { l with entropy := rest }.extend
        [.validateKey key, .encrypt key vector plaintext] [] := by
  cases hk : s.cipher.validateKey key with
  | error e =>
    rw [performs_encrypt_refused hk plaintext l] at h
    simp at h
  | ok u =>
    rcases hd : l.entropy.draw s.cipher.vectorLength with ⟨text | vector, rest⟩
    · rw [run_encrypt_starved hk hd] at h
      simp at h
    · rw [run_encrypt hk hd] at h
      cases hc : s.cipher.encrypt key vector plaintext with
      | error e =>
        rw [hc] at h
        simp [Except.map] at h
      | ok body =>
        rw [hc] at h
        obtain ⟨hciphertext, hl⟩ := Prod.mk.inj h
        exact ⟨vector, rest, body, rfl, rfl, hc, (Except.ok.inj hciphertext).symm, hl.symm⟩

/-- A sealing that cannot encrypt fails with the same error and leaves the same ledger. -/
theorem run_sealMessage_error {e : SealError}
    (h : (s.encrypt key plaintext).run l = (.error e, l')) :
    (s.sealMessage key plaintext).run l = (.error e, l') :=
  Op.run_bind_error h _

/-- A sealing tags the whole ciphertext last. -/
theorem run_sealMessage (h : (s.encrypt key plaintext).run l = (.ok ciphertext, l')) :
    (s.sealMessage key plaintext).run l =
      ((s.mac.compute key ciphertext).map (SealedMessage.mk ciphertext),
        l'.extend [.mac key ciphertext] []) := by
  have htag := s.performs_tag key ciphertext l'
  rw [sealMessage, Op.run_bind_ok h]
  cases hm : s.mac.compute key ciphertext with
  | error e =>
    rw [hm] at htag
    exact Op.run_bind_error htag _
  | ok tag =>
    rw [hm] at htag
    exact Op.run_bind_ok htag _

/-- What a successful sealing did: it drew a vector of the right length under an accepted key, and
the message is that vector, what the cipher made of the plaintext under it, and their tag. -/
structure Seals (s : Scheme) (key plaintext vector : Bytes) (m : SealedMessage) : Prop where
  accepted : s.cipher.validateKey key = .ok ()
  length_vector : vector.length = s.cipher.vectorLength
  encrypted : ∃ body, s.cipher.encrypt key vector plaintext = .ok body ∧
    m.ciphertext = vector ++ body
  tagged : s.mac.compute key m.ciphertext = .ok m.tag

/-- The calls of a successful sealing. -/
def sealCalls (key plaintext vector : Bytes) (m : SealedMessage) : List PrimitiveCall :=
  [.validateKey key, .encrypt key vector plaintext, .mac key m.ciphertext]

/-- Sealing returns exactly the messages that can be made from the next vector of the source. -/
theorem run_sealMessage_eq_ok_iff {m : SealedMessage} :
    (s.sealMessage key plaintext).run l = (.ok m, l') ↔
      ∃ vector rest, l.entropy.draw s.cipher.vectorLength = (.ok vector, rest) ∧
        s.Seals key plaintext vector m ∧
        l' = { l with entropy := rest }.extend (sealCalls key plaintext vector m) [] := by
  constructor
  · intro h
    rcases hencrypt : (s.encrypt key plaintext).run l with ⟨e | ciphertext, after⟩
    · rw [run_sealMessage_error hencrypt] at h
      simp at h
    · rw [run_sealMessage hencrypt] at h
      obtain ⟨vector, rest, body, hk, hd, hc, rfl, rfl⟩ := of_run_encrypt hencrypt
      cases hm : s.mac.compute key (vector ++ body) with
      | error e =>
        rw [hm] at h
        simp [Except.map] at h
      | ok tag =>
        rw [hm] at h
        obtain ⟨hresult, rfl⟩ := Prod.mk.inj h
        obtain rfl := Except.ok.inj hresult
        refine ⟨vector, rest, hd, ⟨hk, (Entropy.draw_ok hd).1, ⟨body, hc, rfl⟩, hm⟩, ?_⟩
        rw [Ledger.extend_extend]
        rfl
  · rintro ⟨vector, rest, hd, h, rfl⟩
    obtain ⟨body, hbody, hciphertext⟩ := h.encrypted
    have hencrypt : (s.encrypt key plaintext).run l = _ := run_encrypt h.accepted hd
    simp only [hbody, Except.map, ← hciphertext] at hencrypt
    rw [run_sealMessage hencrypt, h.tagged, Ledger.extend_extend]
    rfl

end Scheme

end Sealing
