import Sealing.Proofs.Canonical
import Sealing.Proofs.EnvelopeForms

/-!
# How an envelope arrives

Whoever opens an envelope has it in hand already, or gets it as a text of any form and reads it
first. Both come to the same: what is in the envelope decides, plaintext or failure, and the
failures have the same texts. With two parts in base64 there is no difference at all, since the same
calls are made. A part that is not base64 is only found out, and the text costs a MAC pass for that.
-/

namespace Sealing

namespace Scheme

open SealedMessage (ofEnvelope)

variable {s : Scheme} {key : Bytes} {e : Envelope} {m : SealedMessage} {f : SealError}
  {op : Op Bytes}

/-- The ways to open an envelope: it is at hand, or it is read from a text. -/
inductive Receives (s : Scheme) (key : Bytes) (e : Envelope) : Op Bytes → Prop
  /-- It has been read before. -/
  | inHand : Receives s key e (s.openEnvelope key e)
  /-- It is what the text is read as. -/
  | text {text : Bytes} {op : Op Bytes} : Envelope.parse text = .ok e → s.Decodes key text op →
      Receives s key e op

/-- The message in an envelope is what is opened. -/
theorem openEnvelope_of_ok (h : ofEnvelope e = .ok m) :
    s.openEnvelope key e = s.openMessage key m := by
  rw [openEnvelope, h]
  rfl

/-- In an envelope at hand a fault costs nothing. -/
theorem performs_openEnvelope_error (h : ofEnvelope e = .error f) :
    (s.openEnvelope key e).Performs (.error f) [] [] := by
  have hread : Op.Performs (MonadExcept.ofExcept (ofEnvelope e)) (.error f) [] [] :=
    h ▸ Op.performs_ofExcept _
  exact hread.bind_error

/-- However the envelope of a message arrives, it is the message that is opened. -/
theorem Receives.eq_openMessage (h : s.Receives key e op) (hm : ofEnvelope e = .ok m) :
    op = s.openMessage key m := by
  cases h with
  | inHand => exact openEnvelope_of_ok hm
  | text hparse hop =>
    rw [hop.eq_decodeBytes, decodeBytes_of_parseSealed ((parseSealed_of_parse hparse).trans hm)]

/-- In a text the same fault costs a MAC pass over the text. -/
theorem performs_decodes_error {text : Bytes} (hparse : Envelope.parse text = .ok e)
    (hf : ofEnvelope e = .error f) (hop : s.Decodes key text op) :
    op.Performs (.error f) [.mac key text] [] := by
  rw [hop.eq_decodeBytes]
  exact performs_decodeBytes_rejected ((parseSealed_of_parse hparse).trans hf)

/-- However an envelope with a fault arrives, it is the fault that is reported. -/
theorem Receives.fst_run_error (h : s.Receives key e op) (hf : ofEnvelope e = .error f)
    (l : Ledger) : (op.run l).1 = .error f := by
  cases h with
  | inHand => exact (performs_openEnvelope_error hf).fst_run l
  | text hparse hop => exact (performs_decodes_error hparse hf hop).fst_run l

/-- There is one result for an envelope. Neither its way nor the ledger has a part in it. -/
theorem exists_receives_eq (s : Scheme) (key : Bytes) (e : Envelope) :
    ∃ result, ∀ op, s.Receives key e op → ∀ l, (op.run l).1 = result := by
  cases hread : ofEnvelope e with
  | ok m =>
    obtain ⟨result, later, events, hopen, -⟩ := s.openMessage_performs key m
    refine ⟨result, fun op hop l => ?_⟩
    rw [hop.eq_openMessage hread, hopen.fst_run]
  | error f => exact ⟨.error f, fun op hop l => hop.fst_run_error hread l⟩

/-- An envelope is read from every object of the JSON grammar that has its parts among the members,
once each. -/
theorem receives_decode {t : String} (h : Envelope.Written .characters (Utf8.encode t) e) :
    s.Receives key e (s.decode key t) := by
  have hwritten := (Envelope.written_bytes_iff (Utf8.valid_encode t)).mpr h
  exact .text (Envelope.parse_eq_ok_iff.mpr (.inl hwritten)) (.characters rfl)

/-- An envelope is opened to the same plaintext, or not opened for the same reason, whether it is at
hand, comes in its own written form or in any other text that is read as it. If both parts are
base64, every way is the same operation on what they stand for. Otherwise the first part that is not
is the reason; then no call is made for an envelope at hand, and one MAC pass over a text. -/
theorem opens_however_it_arrives (s : Scheme) (key : Bytes) (e : Envelope) :
    (s.Receives key e (s.openEnvelope key e) ∧ s.Receives key e (s.decode key e.render) ∧
      s.Receives key e (s.decodeBytes key (Utf8.encode e.render)) ∧
      ∀ t, Envelope.Written .characters (Utf8.encode t) e → s.Receives key e (s.decode key t)) ∧
    (∃ result, ∀ op, s.Receives key e op → ∀ l, (op.run l).1 = result) ∧
    (∀ ciphertext tag, Base64.decode e.ciphertext = .ok ciphertext →
      Base64.decode e.hmac = .ok tag → ∀ op, s.Receives key e op →
        ∀ l, op.run l = (s.openParts key ciphertext tag).run l) ∧
    (∀ f, Base64.decode e.ciphertext = .error f → ∀ op, s.Receives key e op →
      ∀ l, (op.run l).1 = .error (.decode s!"ciphertext: {f.message}")) ∧
    (∀ ciphertext f, Base64.decode e.ciphertext = .ok ciphertext →
      Base64.decode e.hmac = .error f → ∀ op, s.Receives key e op →
        ∀ l, (op.run l).1 = .error (.decode s!"hmac: {f.message}")) ∧
    (Base64.Flawed e.ciphertext ∨ Base64.Flawed e.hmac →
      (∀ l, ((s.openEnvelope key e).run l).2 = l) ∧
      ∀ text op, Envelope.parse text = .ok e → s.Decodes key text op →
        ∀ l, (op.run l).2 = l.extend [.mac key text] []) := by
  have hparse := e.parse_render
  refine ⟨⟨.inHand, .text hparse (.characters rfl), .text hparse .bytes,
    fun t h => receives_decode h⟩, s.exists_receives_eq key e, ?_, ?_, ?_, ?_⟩
  · intro ciphertext tag hciphertext htag op hop l
    rw [hop.eq_openMessage (SealedMessage.ofEnvelope_eq_ok hciphertext htag), openMessage]
  · intro f hciphertext op hop l
    exact hop.fst_run_error (SealedMessage.ofEnvelope_eq_error_ciphertext hciphertext) l
  · intro ciphertext f hciphertext htag op hop l
    exact hop.fst_run_error (SealedMessage.ofEnvelope_eq_error_tag hciphertext htag) l
  · intro hflaw
    have hnone : ¬∃ m, ofEnvelope e = .ok m := fun hread =>
      have hparts := SealedMessage.exists_ofEnvelope_iff.mp hread
      hflaw.elim hparts.1 hparts.2
    obtain ⟨reason, hf⟩ := SealedMessage.exists_ofEnvelope_eq_error hnone
    refine ⟨fun l => ?_, fun text op hparse hop l => ?_⟩
    · rw [performs_openEnvelope_error hf, Ledger.extend_nil]
    · rw [performs_decodes_error hparse hf hop]

/-- With its members swapped, another one between them and an escape in its base64, an envelope is
opened like the message in it. If both parts have faults, that of the ciphertext is reported, and no
call is made for an envelope at hand. -/
theorem opens_however_it_arrives_swapped :
    (∀ l, ((⟨aesCfb, hmacSha256⟩ : Scheme).decode (List.replicate 16 0)
        "\x7b\"hmac\":\"BQ==\",\"x\":[1],\"ciphertext\":\"AQI\\u0044\"\x7d").run l =
      ((⟨aesCfb, hmacSha256⟩ : Scheme).openParts (List.replicate 16 0) [1, 2, 3] [5]).run l) ∧
    (∀ l, (((⟨aesCfb, hmacSha256⟩ : Scheme).decode (List.replicate 16 0)
        (Envelope.mk "AQI" "!").render).run l).1 =
      .error (.decode "ciphertext: Invalid padding")) ∧
    (∀ l, (((⟨aesCfb, hmacSha256⟩ : Scheme).openEnvelope (List.replicate 16 0)
        ⟨"AQI", "!"⟩).run l).2 = l) ∧
    ∀ l, (((⟨aesCfb, hmacSha256⟩ : Scheme).openEnvelope (List.replicate 16 0)
        ⟨"AQID", "!"⟩).run l).1 =
      .error (.decode "hmac: Invalid symbol 33, offset 0.") := by
  obtain ⟨⟨-, hrendered, -⟩, -, -, hciphertext, -, hcalls⟩ :=
    opens_however_it_arrives ⟨aesCfb, hmacSha256⟩ (List.replicate 16 0) ⟨"AQI", "!"⟩
  refine ⟨fun l => ?_, hciphertext .invalidPadding (by rfl) _ hrendered,
    (hcalls (.inl (.ungrouped (by decide)))).1, ?_⟩
  · have hparse : Envelope.parse (Utf8.encode
        "\x7b\"hmac\":\"BQ==\",\"x\":[1],\"ciphertext\":\"AQI\\u0044\"\x7d") =
        .ok ⟨"AQID", "BQ=="⟩ :=
      Envelope.toOption_parse_eq_some_iff.mp (by decide +kernel)
    exact (opens_however_it_arrives _ _ ⟨"AQID", "BQ=="⟩).2.2.1 [1, 2, 3] [5] (by rfl) (by rfl) _
      (.text hparse (.characters rfl)) l
  · obtain ⟨⟨hinHand, -⟩, -, -, -, htag, -⟩ :=
      opens_however_it_arrives ⟨aesCfb, hmacSha256⟩ (List.replicate 16 0) ⟨"AQID", "!"⟩
    exact htag [1, 2, 3] (.invalidByte 0 33) (by rfl) (by rfl) _ hinHand

end Scheme

end Sealing
