import Sealing.Proofs.Transport

/-!
# The cost of decoding

Whatever is wrong with a text, decoding it costs one MAC pass, and the pass comes before every
other call. A text that holds no message is tagged itself, and its error does not depend on the
key; a text that holds one has its ciphertext tagged, and the cipher is asked exactly if the tag
matches. It makes no difference whether the text comes as characters, as bytes or from a source.
-/

namespace Sealing

namespace SealedMessage

variable {part text : String} {ciphertext tag : Bytes} {e : Envelope} {fault : Base64.DecodeError}

private theorem readPart_eq_ok (part : String) (h : Base64.decode text = .ok tag) :
    readPart part text = .ok tag := by
  rw [readPart, h]

/-- A part that is not base64 is reported as such, with the reason. -/
theorem readPart_eq_error (part : String) (h : Base64.decode text = .error fault) :
    readPart part text = .error (.decode s!"{part}: {fault.message}") := by
  rw [readPart, h]

/-- The ciphertext is read first, so its error is the one that is reported. -/
theorem ofEnvelope_of_error {f : SealError} (h : readPart "ciphertext" e.ciphertext = .error f) :
    ofEnvelope e = .error f := by
  rw [ofEnvelope, h]

/-- After the ciphertext the tag decides. -/
theorem ofEnvelope_of_ok (h : readPart "ciphertext" e.ciphertext = .ok ciphertext) :
    ofEnvelope e = (readPart "hmac" e.hmac).map (SealedMessage.mk ciphertext) := by
  rw [ofEnvelope, h]
  cases readPart "hmac" e.hmac <;> rfl

/-- An envelope whose parts decode is read. -/
theorem ofEnvelope_eq_ok (hciphertext : Base64.decode e.ciphertext = .ok ciphertext)
    (htag : Base64.decode e.hmac = .ok tag) : ofEnvelope e = .ok ⟨ciphertext, tag⟩ := by
  rw [ofEnvelope_of_ok (readPart_eq_ok _ hciphertext), readPart_eq_ok _ htag]
  rfl

/-- If the ciphertext does not decode, it is what the envelope fails on. -/
theorem ofEnvelope_eq_error_ciphertext (h : Base64.decode e.ciphertext = .error fault) :
    ofEnvelope e = .error (.decode s!"ciphertext: {fault.message}") :=
  ofEnvelope_of_error (readPart_eq_error _ h)

/-- A fault of the tag is reported if the ciphertext has none. -/
theorem ofEnvelope_eq_error_tag (hciphertext : Base64.decode e.ciphertext = .ok ciphertext)
    (htag : Base64.decode e.hmac = .error fault) :
    ofEnvelope e = .error (.decode s!"hmac: {fault.message}") := by
  rw [ofEnvelope_of_ok (readPart_eq_ok _ hciphertext), readPart_eq_error _ htag]
  rfl

end SealedMessage

namespace Scheme

variable {s : Scheme} {key text : Bytes} {op : Op Bytes}

/-- A byte string is unreadable if it is no envelope, or if a part of the envelope is not
base64. -/
inductive Unreadable (text : Bytes) : Prop
  | noEnvelope {f : Json.Error} : Envelope.parse text = .error f → Unreadable text
  | noCiphertext {e : Envelope} {f : Base64.DecodeError} :
      Envelope.parse text = .ok e → Base64.decode e.ciphertext = .error f → Unreadable text
  | noTag {e : Envelope} {f : Base64.DecodeError} :
      Envelope.parse text = .ok e → Base64.decode e.hmac = .error f → Unreadable text

/-- A byte string contains a message if it is an envelope whose parts are those of the message in
base64. -/
def Contains (text : Bytes) (m : SealedMessage) : Prop :=
  ∃ e, Envelope.parse text = .ok e ∧ Base64.decode e.ciphertext = .ok m.ciphertext ∧
    Base64.decode e.hmac = .ok m.tag

/-- The parts of a text are those of the envelope that it is parsed to. -/
theorem parseSealed_of_parse {e : Envelope} (h : Envelope.parse text = .ok e) :
    parseSealed text = SealedMessage.ofEnvelope e := by
  rw [parseSealed, h]

/-- The message of an envelope is found. -/
theorem Contains.parseSealed_eq {m : SealedMessage} (h : Contains text m) :
    parseSealed text = .ok m := by
  obtain ⟨e, he, hciphertext, htag⟩ := h
  rw [parseSealed_of_parse he, SealedMessage.ofEnvelope_eq_ok hciphertext htag]

/-- An unreadable text is reported as such, with a reason. -/
theorem Unreadable.exists_parseSealed_eq (h : Unreadable text) :
    ∃ reason, parseSealed text = .error (.decode reason) := by
  have hfirst {e : Envelope} {f : Base64.DecodeError} (he : Envelope.parse text = .ok e)
      (hciphertext : Base64.decode e.ciphertext = .error f) :
      ∃ reason, parseSealed text = .error (.decode reason) := by
    have hread := SealedMessage.ofEnvelope_eq_error_ciphertext hciphertext
    exact ⟨_, (parseSealed_of_parse he).trans hread⟩
  cases h with
  | noEnvelope he => exact ⟨_, by rw [parseSealed, he]⟩
  | noCiphertext he hciphertext => exact hfirst he hciphertext
  | @noTag e f he htag =>
    cases hciphertext : Base64.decode e.ciphertext with
    | error g => exact hfirst he hciphertext
    | ok ciphertext =>
      have hread := SealedMessage.ofEnvelope_eq_error_tag hciphertext htag
      exact ⟨_, (parseSealed_of_parse he).trans hread⟩

/-- A written envelope contains its message. -/
theorem contains_render (m : SealedMessage) : Contains (Utf8.encode m.toEnvelope.render) m :=
  ⟨m.toEnvelope, Envelope.parse_render _, Base64.decode_encode _, Base64.decode_encode _⟩

/-- What contains a message is not unreadable. -/
theorem Contains.not_unreadable {m : SealedMessage} (h : Contains text m) : ¬Unreadable text := by
  intro hunreadable
  obtain ⟨reason, herror⟩ := hunreadable.exists_parseSealed_eq
  rw [h.parseSealed_eq] at herror
  contradiction

/-- A text contains at most one message. -/
theorem Contains.unique {m m' : SealedMessage} (h : Contains text m) (h' : Contains text m') :
    m = m' :=
  Except.ok.inj (h.parseSealed_eq.symm.trans h'.parseSealed_eq)

/-- Every byte string is unreadable or contains a message. -/
theorem exists_contains_of_not_unreadable (h : ¬Unreadable text) : ∃ m, Contains text m := by
  cases he : Envelope.parse text with
  | error f => exact absurd (.noEnvelope he) h
  | ok e =>
    cases hciphertext : Base64.decode e.ciphertext with
    | error f => exact absurd (.noCiphertext he hciphertext) h
    | ok ciphertext =>
      cases htag : Base64.decode e.hmac with
      | error f => exact absurd (.noTag he htag) h
      | ok tag => exact ⟨⟨ciphertext, tag⟩, e, he, hciphertext, htag⟩

/-- A text that holds no message is tagged as a whole, and its error is returned. -/
theorem performs_decodeBytes_rejected {e : SealError} (h : parseSealed text = .error e) :
    (s.decodeBytes key text).Performs (.error e) [.mac key text] [] := by
  rw [decodeBytes, h]
  exact (s.performs_tag key text).attempt.bind_ok (Op.performs_throw e)

/-- The calls that may follow the MAC pass over a ciphertext: none if the tag does not match, and
otherwise the validation of the key and then at most one decryption. -/
def Follows (s : Scheme) (key : Bytes) (m : SealedMessage) (later : List PrimitiveCall) : Prop :=
  (s.mac.compute key m.ciphertext ≠ .ok m.tag → later = []) ∧
    (s.mac.compute key m.ciphertext = .ok m.tag →
      later = [.validateKey key] ∨
        later = [.validateKey key, .decrypt key (m.ciphertext.take s.cipher.vectorLength)
          (m.ciphertext.drop s.cipher.vectorLength)])

/-- No MAC pass follows the first one. -/
theorem Follows.isMac_eq_false {m : SealedMessage} {later : List PrimitiveCall}
    (h : s.Follows key m later) : ∀ c ∈ later, c.isMac = false := by
  by_cases hmac : s.mac.compute key m.ciphertext = .ok m.tag
  · rcases h.2 hmac with rfl | rfl <;> simp [PrimitiveCall.isMac]
  · simp [h.1 hmac]

/-- Opening has one outcome on every ledger, and starts with a MAC pass over the ciphertext. -/
theorem openMessage_performs (s : Scheme) (key : Bytes) (m : SealedMessage) :
    ∃ result later events,
      (s.openMessage key m).Performs result (.mac key m.ciphertext :: later) events ∧
        s.Follows key m later := by
  by_cases hmac : s.mac.compute key m.ciphertext = .ok m.tag
  · obtain ⟨result, calls, hdecrypt, hcalls⟩ := s.decrypt_performs key m.ciphertext
    refine ⟨result, calls, [], fun l => ?_, fun hne => absurd hmac hne, fun _ => hcalls⟩
    rw [openMessage, run_openParts_verified hmac, hdecrypt, Ledger.extend_extend]
    rfl
  · exact ⟨_, [], _, performs_openParts_mismatch hmac, fun _ => rfl, fun h => absurd h hmac⟩

/-- Decoding has one outcome on every ledger. -/
theorem decodeBytes_performs (s : Scheme) (key text : Bytes) :
    ∃ result calls events, (s.decodeBytes key text).Performs result calls events := by
  cases h : parseSealed text with
  | error e => exact ⟨_, _, _, performs_decodeBytes_rejected h⟩
  | ok m =>
    obtain ⟨result, later, events, hopen, -⟩ := s.openMessage_performs key m
    exact ⟨result, _, events, decodeBytes_of_parseSealed h ▸ hopen⟩

/-- The ways to decode a byte string: as it is, as the characters it stands for, and from a source
that delivers it. -/
inductive Decodes (s : Scheme) (key text : Bytes) : Op Bytes → Prop
  | bytes : Decodes s key text (s.decodeBytes key text)
  | characters {t : String} : Utf8.encode t = text → Decodes s key text (s.decode key t)
  | source {source : Source} : source.Delivers text → Decodes s key text (s.decodeFrom key source)

/-- All of them are one operation. -/
theorem Decodes.eq_decodeBytes (h : s.Decodes key text op) : op = s.decodeBytes key text := by
  cases h with
  | bytes => rfl
  | characters ht => rw [decode, ht]
  | source hsource => exact decodeFrom_of_delivers hsource

/-- Decoding makes one MAC pass, before every other call. An unreadable text is tagged itself and
no call follows; the error is that of the text, whatever the key and the MAC are. In every other
text it is the ciphertext that is tagged, and the cipher is asked exactly if the tag matches. -/
theorem decodes_after_one_mac (text : Bytes) :
    (∀ (s : Scheme) (key : Bytes) (op : Op Bytes), s.Decodes key text op → ∀ l,
      ∃ message later, (op.run l).2.calls = l.calls ++ .mac key message :: later ∧
        ∀ c ∈ later, c.isMac = false) ∧
    (Unreadable text → ∃ reason, ∀ (s : Scheme) (key : Bytes) (op : Op Bytes),
      s.Decodes key text op → ∀ l,
        op.run l = (.error (.decode reason), l.extend [.mac key text] [])) ∧
    (¬Unreadable text → ∃ m, Contains text m ∧ ∀ (s : Scheme) (key : Bytes) (op : Op Bytes),
      s.Decodes key text op → ∀ l,
        ∃ later, (op.run l).2.calls = l.calls ++ .mac key m.ciphertext :: later ∧
          s.Follows key m later) := by
  have hunreadable (h : Unreadable text) : ∃ reason, ∀ (s : Scheme) (key : Bytes) (op : Op Bytes),
      s.Decodes key text op → ∀ l,
        op.run l = (.error (.decode reason), l.extend [.mac key text] []) := by
    obtain ⟨reason, hparse⟩ := h.exists_parseSealed_eq
    refine ⟨reason, fun s key op hop l => ?_⟩
    rw [hop.eq_decodeBytes]
    exact performs_decodeBytes_rejected hparse l
  have hreadable (h : ¬Unreadable text) : ∃ m, Contains text m ∧
      ∀ (s : Scheme) (key : Bytes) (op : Op Bytes), s.Decodes key text op → ∀ l,
        ∃ later, (op.run l).2.calls = l.calls ++ .mac key m.ciphertext :: later ∧
          s.Follows key m later := by
    obtain ⟨m, hm⟩ := exists_contains_of_not_unreadable h
    refine ⟨m, hm, fun s key op hop l => ?_⟩
    obtain ⟨result, later, events, hopen, hfollows⟩ := s.openMessage_performs key m
    refine ⟨later, ?_, hfollows⟩
    rw [hop.eq_decodeBytes, decodeBytes_of_parseSealed hm.parseSealed_eq, hopen,
      Ledger.calls_extend]
  refine ⟨fun s key op hop l => ?_, hunreadable, hreadable⟩
  by_cases h : Unreadable text
  · obtain ⟨reason, hrun⟩ := hunreadable h
    exact ⟨text, [], by rw [hrun s key op hop, Ledger.calls_extend], by simp⟩
  · obtain ⟨m, -, hrun⟩ := hreadable h
    obtain ⟨later, hcalls, hfollows⟩ := hrun s key op hop l
    exact ⟨m.ciphertext, later, hcalls, hfollows.isMac_eq_false⟩

/-- An empty object is tagged itself. In the envelope of five bytes under their own tag it is the
five bytes that are tagged, and then the key is asked about. -/
theorem decodes_after_one_mac_short :
    (∃ reason, ((⟨aesCfb, hmacSha256⟩ : Scheme).decode (List.replicate 16 0) "\x7b\x7d").run
        ⟨⟨[], none⟩, [], []⟩ =
      (.error (.decode reason),
        ⟨⟨[], none⟩, [.mac (List.replicate 16 0) (Utf8.encode "\x7b\x7d")], []⟩)) ∧
    ∃ later, (((⟨aesCfb, hmacSha256⟩ : Scheme).decodeBytes (List.replicate 16 0) (Utf8.encode
        (SealedMessage.mk [1, 2, 3, 4, 5] (Hash.hmac Hash.sha256 (List.replicate 16 0)
          [1, 2, 3, 4, 5])).toEnvelope.render)).run ⟨⟨[], none⟩, [], []⟩).2.calls =
        .mac (List.replicate 16 0) [1, 2, 3, 4, 5] :: .validateKey (List.replicate 16 0) :: later ∧
      later.length ≤ 1 := by
  constructor
  · have hempty : Unreadable (Utf8.encode "\x7b\x7d") := .noEnvelope (by cbv)
    obtain ⟨reason, hrun⟩ := (decodes_after_one_mac (Utf8.encode "\x7b\x7d")).2.1 hempty
    exact ⟨reason, hrun _ _ _ (.characters rfl) _⟩
  · have hm := contains_render (SealedMessage.mk [1, 2, 3, 4, 5]
      (Hash.hmac Hash.sha256 (List.replicate 16 0) [1, 2, 3, 4, 5]))
    obtain ⟨m, hm', hrun⟩ := (decodes_after_one_mac _).2.2 hm.not_unreadable
    obtain rfl := hm.unique hm'
    obtain ⟨later, hcalls, hfollows⟩ := hrun ⟨aesCfb, hmacSha256⟩ (List.replicate 16 0) _ .bytes
      ⟨⟨[], none⟩, [], []⟩
    rcases hfollows.2 rfl with rfl | rfl
    · exact ⟨[], hcalls, by decide⟩
    · exact ⟨[_], hcalls, by decide⟩

end Scheme

end Sealing
