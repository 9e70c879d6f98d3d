import Sealing.Proofs.Base64
import Sealing.Proofs.Record
import Sealing.Proofs.RoundTrip

/-!
# Decoding inverts encoding

A sealed message is written as base64 inside a JSON object. Nothing in base64 has to be escaped,
so the text is known exactly and its length with it. Each layer is read back by its own reader, and
a source may deliver the text in any pieces; so whoever decodes the text opens the message that was
sealed.
-/

namespace Sealing

/-- A source delivers these bytes and then the end of its input. It may be interrupted before, and
what stands behind the end does not matter. -/
inductive Source.Delivers : Source → Bytes → Prop
  | ended : Delivers [] []
  | closed (rest : Source) : Delivers (.chunk [] :: rest) []
  | interrupted {rest : Source} {text : Bytes} :
      Delivers rest text → Delivers (.interruption :: rest) text
  | chunk {data text : Bytes} {rest : Source} :
      data ≠ [] → Delivers rest text → Delivers (.chunk data :: rest) (data ++ text)

/-- Reading to the end finds exactly what is delivered. -/
theorem Source.readAll_eq_ok_iff {source : Source} {text : Bytes} :
    source.readAll = .ok text ↔ source.Delivers text := by
  constructor
  · intro h
    fun_induction readAll source generalizing text with
    | case1 =>
      obtain rfl := Except.ok.inj h
      exact .ended
    | case2 rest ih => exact .interrupted (ih h)
    | case3 => contradiction
    | case4 rest =>
      obtain rfl := Except.ok.inj h
      exact .closed rest
    | case5 b data rest more hmore ih =>
      obtain rfl := Except.ok.inj h
      exact .chunk (List.cons_ne_nil b data) (ih hmore)
    | case6 => contradiction
  · intro h
    induction h with
    | ended => rfl
    | closed rest => rfl
    | interrupted _ ih => exact ih
    | @chunk data text rest hdata _ ih =>
      obtain ⟨b, data, rfl⟩ := List.exists_cons_of_ne_nil hdata
      rw [readAll, ih]

/-- An envelope is read back from its written form. -/
theorem Envelope.parse_render (e : Envelope) : parse (Utf8.encode e.render) = .ok e := by
  have hnames : (members.map Prod.fst).Nodup := by decide
  exact Json.map_parseRecord_render "Envelope" hnames (List.cons_ne_nil _ _) ofRecord e.toRecord

namespace SealedMessage

/-- A message is read back from its envelope. -/
theorem ofEnvelope_toEnvelope (m : SealedMessage) : ofEnvelope m.toEnvelope = .ok m := by
  simp only [ofEnvelope, toEnvelope, readPart, Base64.decode_encode]

end SealedMessage

namespace Base64

/-- Nothing in base64 has to be escaped in a text literal. -/
theorem literal_encode (b : Bytes) :
    Json.literal (encode b) = '"' :: (encode b).toList ++ ['"'] := by
  have hself : ∀ c ∈ encodeBytes b,
      Json.escaped (Char.ofNat c.toNat) = [Char.ofNat c.toNat] :=
    forall_mem_encodeBytes (by decide) (by decide) b
  rw [Json.literal, Json.flatMap_escaped_eq_self]
  rw [encode, String.toList_ofList]
  intro c hc
  obtain ⟨d, hd, rfl⟩ := List.mem_map.mp hc
  exact hself d hd

end Base64

/-- The written form of a message. -/
theorem SealedMessage.render_toEnvelope (m : SealedMessage) :
    m.toEnvelope.render = "\x7b\"ciphertext\":\"" ++ Base64.encode m.ciphertext ++
      "\",\"hmac\":\"" ++ Base64.encode m.tag ++ "\"\x7d" := by
  have hpieces : Json.Record.pieces Envelope.members m.toEnvelope.toRecord =
      [['\x7b'], Json.literal "ciphertext", [':'], Json.literal (Base64.encode m.ciphertext), [','],
        Json.literal "hmac", [':'], Json.literal (Base64.encode m.tag), ['\x7d']] := rfl
  have hciphertext : Json.literal "ciphertext" = "\"ciphertext\"".toList := by decide
  have hhmac : Json.literal "hmac" = "\"hmac\"".toList := by decide
  apply String.toList_inj.mp
  rw [Envelope.render, Json.Record.render, String.toList_ofList, hpieces]
  simp only [Base64.literal_encode, hciphertext, hhmac, String.toList_append]
  simp

/-- The length of the written form follows from those of the parts. -/
theorem SealedMessage.length_render_toEnvelope (m : SealedMessage) :
    (Utf8.encode m.toEnvelope.render).length =
      27 + 4 * ((m.ciphertext.length + 2) / 3) + 4 * ((m.tag.length + 2) / 3) := by
  have hfirst : (Utf8.encode "\x7b\"ciphertext\":\"").length = 15 := by decide
  have hsecond : (Utf8.encode "\",\"hmac\":\"").length = 10 := by decide
  have hthird : (Utf8.encode "\"\x7d").length = 2 := by decide
  rw [render_toEnvelope]
  simp only [Utf8.encode_append, List.length_append, Base64.utf8Encode_encode,
    Base64.length_encodeBytes, hfirst, hsecond, hthird]
  omega

namespace Scheme

variable {s : Scheme} {key plaintext : Bytes} {l after : Ledger} {m : SealedMessage}

/-- The message in a written envelope. -/
theorem parseSealed_render (m : SealedMessage) :
    parseSealed (Utf8.encode m.toEnvelope.render) = .ok m := by
  rw [parseSealed, Envelope.parse_render]
  exact m.ofEnvelope_toEnvelope

/-- A text that holds a message is opened as that message. -/
theorem decodeBytes_of_parseSealed {text : Bytes} (h : parseSealed text = .ok m) :
    s.decodeBytes key text = s.openMessage key m := by
  rw [decodeBytes, h]

/-- What is delivered is decoded, however it is cut. -/
theorem decodeFrom_of_delivers {source : Source} {text : Bytes} (h : source.Delivers text) :
    s.decodeFrom key source = s.decodeBytes key text := by
  rw [decodeFrom, Source.readAll_eq_ok_iff.mpr h]

/-- Encoding writes the message that sealing returns. -/
theorem run_encode (h : (s.sealMessage key plaintext).run l = (.ok m, after)) :
    (s.encode key plaintext).run l = (.ok m.toEnvelope.render, after) :=
  Op.run_bind_ok h _

/-- What a text is worth to a caller who holds the key. -/
structure Carries (s : Scheme) (key plaintext : Bytes) (text : String) : Prop where
  decode (l : Ledger) : ((s.decode key text).run l).1 = .ok plaintext
  decodeBytes (l : Ledger) : ((s.decodeBytes key (Utf8.encode text)).run l).1 = .ok plaintext
  decodeFrom (l : Ledger) {source : Source} : source.Delivers (Utf8.encode text) →
    ((s.decodeFrom key source).run l).1 = .ok plaintext

/-- A message that keeps its promise is carried by its envelope. -/
theorem RoundTrip.carries (h : s.RoundTrip key plaintext l m after) :
    s.Carries key plaintext m.toEnvelope.render := by
  have hbytes : s.decodeBytes key (Utf8.encode m.toEnvelope.render) = s.openMessage key m :=
    decodeBytes_of_parseSealed (parseSealed_render m)
  refine ⟨fun l => ?_, fun l => ?_, fun l source hsource => ?_⟩
  · rw [Scheme.decode, hbytes]
    exact h.openedWhole l
  · rw [hbytes]
    exact h.openedWhole l
  · rw [decodeFrom_of_delivers hsource, hbytes]
    exact h.openedWhole l

end Scheme

namespace Suite

@[simp] theorem encode_sealer (suite : Suite) : suite.sealer.encode = suite.scheme.encode := rfl

@[simp] theorem decode_sealer (suite : Suite) : suite.sealer.decode = suite.scheme.decode := rfl

@[simp] theorem decodeBytes_sealer (suite : Suite) :
    suite.sealer.decodeBytes = suite.scheme.decodeBytes := rfl

/-- Decoding inverts encoding for every suite and every key of an AES length. The text is the JSON
object of the base64 of what sealing returns from the same random bytes, its length depends on
that of the plaintext only, and it is decoded as a text, as bytes and from every source that
delivers it, by the scheme as by its sealer. -/
theorem encode_carries (suite : Suite) (key plaintext : Bytes) (l : Ledger)
    (hk : key.length ∈ [16, 24, 32]) (hl : l.entropy.Holds 16) :
    ∃ m after text, (suite.scheme.sealMessage key plaintext).run l = (.ok m, after) ∧
      (suite.scheme.encode key plaintext).run l = (.ok text, after) ∧
      (suite.sealer.encode key plaintext).run l = (.ok text, after) ∧
      text = "\x7b\"ciphertext\":\"" ++ Base64.encode m.ciphertext ++
        "\",\"hmac\":\"" ++ Base64.encode m.tag ++ "\"\x7d" ∧
      (Utf8.encode text).length = 27 + 4 * ((16 + plaintext.length + 2) / 3) +
        4 * ((suite.sealer.tagLength + 2) / 3) ∧
      suite.scheme.Carries key plaintext text ∧
      (∀ l', ((suite.sealer.decode key text).run l').1 = .ok plaintext) ∧
      ∀ l', ((suite.sealer.decodeBytes key (Utf8.encode text)).run l').1 = .ok plaintext := by
  rw [encode_sealer, decode_sealer, decodeBytes_sealer]
  obtain ⟨m, after, h⟩ := suite.exists_roundTrip hk hl plaintext
  have hcarries := h.carries
  have hencode := Scheme.run_encode h.sealed
  refine ⟨m, after, m.toEnvelope.render, h.sealed, hencode, hencode, m.render_toEnvelope, ?_,
    hcarries, hcarries.decode, hcarries.decodeBytes⟩
  obtain ⟨body, hciphertext, hbody⟩ := h.ciphertext
  have htag : m.tag.length = suite.sealer.tagLength := suite.length_tag h.tag
  have hlength : m.ciphertext.length = 16 + plaintext.length := by
    rw [hciphertext, vectorLength_scheme, List.length_append, List.length_take_of_le hl.2, hbody]
  rw [m.length_render_toEnvelope, hlength, htag]

/-- A plaintext of 17 bytes under a key of 32 bytes and the suite with the longest tags. -/
theorem encode_carries_seventeen : ∃ m after text,
    (aesCfbHmacSha512.scheme.sealMessage (List.replicate 32 1) (List.replicate 17 5)).run
      ⟨⟨List.replicate 16 2, none⟩, [], []⟩ = (.ok m, after) ∧
    (aesCfbHmacSha512.sealer.encode (List.replicate 32 1) (List.replicate 17 5)).run
      ⟨⟨List.replicate 16 2, none⟩, [], []⟩ = (.ok text, after) ∧
    (Utf8.encode text).length = 159 ∧
    aesCfbHmacSha512.scheme.Carries (List.replicate 32 1) (List.replicate 17 5) text := by
  obtain ⟨m, after, text, hseal, -, hencode, -, hlength, hcarries, -⟩ :=
    encode_carries .aesCfbHmacSha512 (List.replicate 32 1) (List.replicate 17 5)
      ⟨⟨List.replicate 16 2, none⟩, [], []⟩ (by decide) ⟨rfl, by decide⟩
  exact ⟨m, after, text, hseal, hencode, hlength.trans (by decide), hcarries⟩

end Suite

end Sealing
