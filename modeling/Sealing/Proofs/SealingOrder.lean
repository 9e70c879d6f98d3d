import Sealing.Proofs.Encrypting
import Sealing.Proofs.Transport

/-!
# The first failure of a sealing

Whoever seals asks the cipher about the key, draws a vector, encrypts, tags and, if there is a sink,
writes, in this order. The first of these stages that fails decides the error. Up to the draw the
random source is as it was; from the draw on exactly one vector is gone, whatever fails later.
-/

namespace Sealing

/-- A draw leaves a source able or unable to deliver, as it was. -/
theorem Entropy.failure_of_draw {source rest : Entropy} {count : Nat} {drawn : Except String Bytes}
    (h : source.draw count = (drawn, rest)) : rest.failure = source.failure := by
  unfold draw at h
  split at h
  · rw [← (Prod.mk.inj h).2]
  · split at h
    · rw [← (Prod.mk.inj h).2]
    · rw [← (Prod.mk.inj h).2]

namespace Scheme

variable {s : Scheme} {key plaintext vector body : Bytes} {l after : Ledger} {e : SealError}
  {rest : Entropy}

/-- All ways of sealing that need a tag fail alike, and leave a sink alone. -/
structure StopsUntagged (s : Scheme) (key plaintext : Bytes) (l : Ledger) (e : SealError)
    (after : Ledger) : Prop where
  sealMessage : (s.sealMessage key plaintext).run l = (.error e, after)
  encode : (s.encode key plaintext).run l = (.error e, after)
  encodeTo (sink : Sink) : s.encodeTo key plaintext sink l = ((.error e, sink), after)

/-- All ways of sealing fail alike, encryption by itself among them. -/
structure Stops (s : Scheme) (key plaintext : Bytes) (l : Ledger) (e : SealError)
    (after : Ledger) : Prop extends s.StopsUntagged key plaintext l e after where
  encrypt : (s.encrypt key plaintext).run l = (.error e, after)

/-- Without a message there is nothing to encode. -/
theorem stopsUntagged_of_run (h : (s.sealMessage key plaintext).run l = (.error e, after)) :
    s.StopsUntagged key plaintext l e after := by
  refine ⟨h, Op.run_bind_error h _, fun sink => ?_⟩
  rw [encodeTo, h]

/-- Without a ciphertext there is nothing to tag. -/
theorem stops_of_run (h : (s.encrypt key plaintext).run l = (.error e, after)) :
    s.Stops key plaintext l e after :=
  ⟨stopsUntagged_of_run (run_sealMessage_error h), h⟩

/-- Sealing yields a message. A sink is written to when all else is done: if it fails, that is the
error, and the ledger is the same. -/
structure Yields (s : Scheme) (key plaintext : Bytes) (l : Ledger) (m : SealedMessage)
    (after : Ledger) : Prop where
  sealMessage : (s.sealMessage key plaintext).run l = (.ok m, after)
  encode : (s.encode key plaintext).run l = (.ok m.toEnvelope.render, after)
  encodeTo_ok {sink written : Sink} : sink.writeEach m.toEnvelope.pieces = (.ok (), written) →
    s.encodeTo key plaintext sink l = ((.ok (), written), after)
  encodeTo_error {sink written : Sink} {text : String} :
    sink.writeEach m.toEnvelope.pieces = (.error text, written) →
      s.encodeTo key plaintext sink l = ((.error (.io text), written), after)

/-- What sealing returns, the other entry points deliver. -/
theorem yields_of_run {m : SealedMessage}
    (h : (s.sealMessage key plaintext).run l = (.ok m, after)) :
    s.Yields key plaintext l m after := by
  refine ⟨h, run_encode h, fun hwrite => ?_, fun hwrite => ?_⟩
  · rw [encodeTo, h]
    simp only [hwrite]
  · rw [encodeTo, h]
    simp only [hwrite]

/-! ## Stage by stage -/

/-- A key that the cipher refuses ends every sealing, whatever the source would deliver. -/
theorem stops_of_refused (hk : s.cipher.validateKey key = .error e) :
    s.Stops key plaintext l e (l.extend [.validateKey key] []) := by
  apply stops_of_run
  exact performs_encrypt_refused hk plaintext l

/-- A source that does not deliver ends it next, and keeps what it has. -/
theorem stops_of_starved {text : String} (hk : s.cipher.validateKey key = .ok ())
    (hd : l.entropy.draw s.cipher.vectorLength = (.error text, rest)) :
    s.Stops key plaintext l (.randomSource text) (l.extend [.validateKey key] []) := by
  apply stops_of_run
  exact run_encrypt_starved hk hd

/-- Then the cipher may fail, with the vector already drawn. -/
theorem stops_of_unencrypted (hk : s.cipher.validateKey key = .ok ())
    (hd : l.entropy.draw s.cipher.vectorLength = (.ok vector, rest))
    (hc : s.cipher.encrypt key vector plaintext = .error e) :
    s.Stops key plaintext l e
      ({ l with entropy := rest }.extend [.validateKey key, .encrypt key vector plaintext] []) := by
  apply stops_of_run
  rw [run_encrypt hk hd, hc]
  rfl

/-- If the cipher accepts key, vector and plaintext, its output follows the vector. -/
theorem run_encrypt_ok (hk : s.cipher.validateKey key = .ok ())
    (hd : l.entropy.draw s.cipher.vectorLength = (.ok vector, rest))
    (hc : s.cipher.encrypt key vector plaintext = .ok body) :
    (s.encrypt key plaintext).run l = (.ok (vector ++ body),
      { l with entropy := rest }.extend
        [.validateKey key, .encrypt key vector plaintext] []) := by
  rw [run_encrypt hk hd, hc]
  rfl

/-- Last of the primitives the MAC may fail, and the ciphertext is given up. -/
theorem stopsUntagged_of_untagged (hk : s.cipher.validateKey key = .ok ())
    (hd : l.entropy.draw s.cipher.vectorLength = (.ok vector, rest))
    (hc : s.cipher.encrypt key vector plaintext = .ok body)
    (hm : s.mac.compute key (vector ++ body) = .error e) :
    s.StopsUntagged key plaintext l e
      ({ l with entropy := rest }.extend [.validateKey key, .encrypt key vector plaintext,
        .mac key (vector ++ body)] []) := by
  apply stopsUntagged_of_run
  rw [run_sealMessage (run_encrypt_ok hk hd hc), hm, Ledger.extend_extend]
  rfl

/-- Sealing that goes wrong does so at the first stage that fails: the key, the draw, the cipher,
the MAC and then the sink. The calls are those of the stages that were reached. A source is left as
it was unless the draw succeeds, and then it is short of exactly one vector, for good. -/
theorem first_failure_ends_sealing (s : Scheme) (key plaintext : Bytes) (l : Ledger) :
    (∀ e, s.cipher.validateKey key = .error e →
      s.Stops key plaintext l e (l.extend [.validateKey key] [])) ∧
    (s.cipher.validateKey key = .ok () →
      (∀ text rest, l.entropy.draw s.cipher.vectorLength = (.error text, rest) →
        s.Stops key plaintext l (.randomSource text) (l.extend [.validateKey key] [])) ∧
      ∀ vector rest, l.entropy.draw s.cipher.vectorLength = (.ok vector, rest) →
        (vector.length = s.cipher.vectorLength ∧
          l.entropy.available = vector ++ rest.available ∧ rest.failure = l.entropy.failure) ∧
        (∀ e, s.cipher.encrypt key vector plaintext = .error e →
          s.Stops key plaintext l e ({ l with entropy := rest }.extend
            [.validateKey key, .encrypt key vector plaintext] [])) ∧
        ∀ body, s.cipher.encrypt key vector plaintext = .ok body →
          (s.encrypt key plaintext).run l = (.ok (vector ++ body),
            { l with entropy := rest }.extend
              [.validateKey key, .encrypt key vector plaintext] []) ∧
          (∀ e, s.mac.compute key (vector ++ body) = .error e →
            s.StopsUntagged key plaintext l e ({ l with entropy := rest }.extend
              [.validateKey key, .encrypt key vector plaintext, .mac key (vector ++ body)] [])) ∧
          ∀ tag, s.mac.compute key (vector ++ body) = .ok tag →
            s.Yields key plaintext l ⟨vector ++ body, tag⟩ ({ l with entropy := rest }.extend
              [.validateKey key, .encrypt key vector plaintext, .mac key (vector ++ body)] [])) := by
  refine ⟨fun e hk => stops_of_refused hk, fun hk => ⟨fun text rest hd => stops_of_starved hk hd,
    fun vector rest hd => ⟨?_, fun e hc => stops_of_unencrypted hk hd hc, fun body hc => ?_⟩⟩⟩
  · obtain ⟨hlength, havailable⟩ := Entropy.draw_ok hd
    exact ⟨hlength, havailable, Entropy.failure_of_draw hd⟩
  · refine ⟨run_encrypt_ok hk hd hc, fun e hm => stopsUntagged_of_untagged hk hd hc hm,
      fun tag hm => yields_of_run ?_⟩
    rw [run_sealMessage (run_encrypt_ok hk hd hc), hm, Ledger.extend_extend]
    rfl

/-- A cipher that finds out about a key only when it runs. -/
def lenientCipher : FeedbackCipher := { aesCfb with validateKey := fun _ => .ok () }

/-- A MAC without usable keys. -/
def refusingMac : MacAlgorithm := ⟨"refusing", 0, fun key _ => .error (.invalidKey key.length)⟩

/-- A sink that is closed from the start. -/
def closedSink : Sink := { limit := some 0, refusal := .fails "pipe closed" }

/-- A closed sink refuses every message. -/
theorem writeEach_closedSink (m : SealedMessage) :
    closedSink.writeEach m.toEnvelope.pieces = (.error "pipe closed", closedSink) := by
  have hpieces : ∃ rest, m.toEnvelope.pieces = [0x7B] :: rest := ⟨_, rfl⟩
  have hwrite : closedSink.writeAll [0x7B] = (.error "pipe closed", closedSink) := by
    rw [Sink.writeAll]
    rfl
  obtain ⟨rest, hrest⟩ := hpieces
  rw [hrest, Sink.writeEach, hwrite]

/-- One sealing for each stage that can fail: a key of five bytes under a source that fails, a
source that is a byte short, a key that only the cipher refuses, a MAC that refuses every key, and a
closed sink. From the cipher on, a source of seventeen bytes has one left. -/
theorem first_failure_ends_sealing_seventeen :
    Stops ⟨aesCfb, hmacSha256⟩ [1, 2, 3, 4, 5] [] ⟨⟨[], some "no source"⟩, [], []⟩ (.invalidKey 5)
      ⟨⟨[], some "no source"⟩, [.validateKey [1, 2, 3, 4, 5]], []⟩ ∧
    Stops ⟨aesCfb, hmacSha256⟩ (List.replicate 16 0) [] ⟨⟨List.replicate 15 7, none⟩, [], []⟩
      (.randomSource "entropy exhausted")
      ⟨⟨List.replicate 15 7, none⟩, [.validateKey (List.replicate 16 0)], []⟩ ∧
    Stops ⟨lenientCipher, hmacSha256⟩ [1, 2, 3, 4, 5] [] ⟨⟨List.replicate 17 7, none⟩, [], []⟩
      (.invalidKey 5) ⟨⟨[7], none⟩, [.validateKey [1, 2, 3, 4, 5],
        .encrypt [1, 2, 3, 4, 5] (List.replicate 16 7) []], []⟩ ∧
    StopsUntagged ⟨aesCfb, refusingMac⟩ (List.replicate 16 0) []
      ⟨⟨List.replicate 17 7, none⟩, [], []⟩ (.invalidKey 16)
      ⟨⟨[7], none⟩, [.validateKey (List.replicate 16 0),
        .encrypt (List.replicate 16 0) (List.replicate 16 7) [],
        .mac (List.replicate 16 0) (List.replicate 16 7)], []⟩ ∧
    encodeTo ⟨aesCfb, hmacSha256⟩ (List.replicate 16 0) [] closedSink
        ⟨⟨List.replicate 17 7, none⟩, [], []⟩ =
      ((.error (.io "pipe closed"), closedSink),
        ⟨⟨[7], none⟩, [.validateKey (List.replicate 16 0),
          .encrypt (List.replicate 16 0) (List.replicate 16 7) [],
          .mac (List.replicate 16 0) (List.replicate 16 7)], []⟩) := by
  have hdraw : Entropy.draw 16 ⟨List.replicate 17 7, none⟩ =
      (.ok (List.replicate 16 7), ⟨[7], none⟩) := by rfl
  have hempty : aesCfb.encrypt (List.replicate 16 0) (List.replicate 16 7) [] = .ok [] :=
    Aes.encrypt_inMode_eq_ok_iff.mpr ⟨⟨by decide, rfl⟩, by rw [FeedbackMode.encrypt]⟩
  have hlenient := ((first_failure_ends_sealing ⟨lenientCipher, hmacSha256⟩ [1, 2, 3, 4, 5] []
    ⟨⟨List.replicate 17 7, none⟩, [], []⟩).2 rfl).2 _ _ hdraw
  have hrefusing := ((first_failure_ends_sealing ⟨aesCfb, refusingMac⟩ (List.replicate 16 0) []
    ⟨⟨List.replicate 17 7, none⟩, [], []⟩).2 rfl).2 _ _ hdraw
  have hclosed := ((first_failure_ends_sealing ⟨aesCfb, hmacSha256⟩ (List.replicate 16 0) []
    ⟨⟨List.replicate 17 7, none⟩, [], []⟩).2 rfl).2 _ _ hdraw
  refine ⟨?_, ?_, ?_, ?_, ?_⟩
  · exact (first_failure_ends_sealing _ _ _ _).1 _ rfl
  · exact ((first_failure_ends_sealing _ _ _ _).2 rfl).1 _ _ rfl
  · exact hlenient.2.1 _ rfl
  · exact (hrefusing.2.2 [] hempty).2.1 _ rfl
  · exact ((hclosed.2.2 [] hempty).2.2 _ rfl).encodeTo_error (writeEach_closedSink _)

end Scheme

end Sealing
