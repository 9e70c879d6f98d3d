import Sealing.Proofs.Decoding
import Sealing.Proofs.RecordForms
import Sealing.Proofs.Separation

/-!
# The texts of envelopes

An envelope is read from a JSON object in which each of its two names stands exactly once, in front
of a literal; what other members the object has makes no difference. The one other text it is read
from is the list of two literals. Every other text is a failure to decode, whoever decodes it.
-/

namespace Sealing

namespace Envelope

open Json

variable {text : Bytes} {e e' : Envelope}

/-- Exactly one of the members has the name, and its value is a literal of the text. -/
def HasText (found : List (String × Bytes)) (name t : String) : Prop :=
  ∃ v, found.filter (fun f => f.1 = name) = [(name, v)] ∧ Quotes v t

/-- Among the members stand both parts of the envelope, under their names. -/
structure StandsIn (e : Envelope) (found : List (String × Bytes)) : Prop where
  ciphertext : HasText found "ciphertext" e.ciphertext
  hmac : HasText found "hmac" e.hmac

/-- The object forms of an envelope. Members with other names may have any values. -/
def Written (α : Repertoire) (text : Bytes) (e : Envelope) : Prop :=
  ∃ found, IsObjectText α found text ∧ e.StandsIn found

/-- The list forms of an envelope: the literals of both texts. -/
def Listed (text : Bytes) (e : Envelope) : Prop :=
  ∃ before b₁ c b₂ b₃ h b₄ after, IsBlanks before ∧ IsBlanks b₁ ∧ Quotes c e.ciphertext ∧
    IsBlanks b₂ ∧ IsBlanks b₃ ∧ Quotes h e.hmac ∧ IsBlanks b₄ ∧ IsBlanks after ∧
    text = before ++ Ascii.openBracket :: (b₁ ++ (c ++ (b₂ ++ Ascii.comma ::
      (b₃ ++ (h ++ (b₄ ++ Ascii.closeBracket :: after))))))

/-- The written forms of an envelope are those of its record as an object. -/
theorem isObjectOf_toRecord_iff {α : Repertoire} :
    IsObjectOf α members e.toRecord text ↔ Written α text e := by
  have hvalues (found : List (String × Bytes)) :
      HasValues found members e.toRecord ↔ e.StandsIn found :=
    ⟨fun ⟨hc, hh, _⟩ => ⟨hc, hh⟩, fun ⟨hc, hh⟩ => ⟨hc, hh, trivial⟩⟩
  simp only [IsObjectOf, Written, hvalues]

/-- The listed forms of an envelope are those of its record as a list. -/
theorem isListOf_toRecord_iff : IsListOf members e.toRecord text ↔ Listed text e := by
  constructor
  · rintro ⟨before, items, b₄, after, hbefore,
      ⟨b₁, c, _, hb₁, hc, ⟨_, h, _, ⟨b₂, b₃, hb₂, hb₃, rfl⟩, hh, rfl, rfl⟩, rfl⟩, hb₄, hafter, rfl⟩
    exact ⟨before, b₁, c, b₂, b₃, h, b₄, after, hbefore, hb₁, hc, hb₂, hb₃, hh, hb₄, hafter,
      by simp⟩
  · rintro ⟨before, b₁, c, b₂, b₃, h, b₄, after, hbefore, hb₁, hc, hb₂, hb₃, hh, hb₄, hafter, rfl⟩
    exact ⟨before, _, b₄, after, hbefore, ⟨b₁, c, _, hb₁, hc, ⟨_, h, [], ⟨b₂, b₃, hb₂, hb₃, rfl⟩,
      hh, rfl, rfl⟩, rfl⟩, hb₄, hafter, by simp⟩

/-- The list form without blanks. -/
def renderList (e : Envelope) : String :=
  String.ofList ('[' :: (literal e.ciphertext ++ ',' :: (literal e.hmac ++ [']'])))

/-- The list form of an envelope begins with a bracket. -/
theorem head?_renderList (e : Envelope) : e.renderList.toList.head? = some '[' := by
  rw [renderList, String.toList_ofList]
  rfl

/-- The list form of an envelope is one of its listed forms. -/
theorem listed_renderList (e : Envelope) : Listed (Utf8.encode e.renderList) e := by
  refine ⟨[], [], _, [], [], _, [], [], .nil, .nil, quotes_literal _, .nil, .nil,
    quotes_literal _, .nil, .nil, ?_⟩
  rw [renderList, Utf8.encode_ofList, Utf8.encodeChars_cons, Utf8.encodeChars_append,
    Utf8.encodeChars_cons, Utf8.encodeChars_append]
  rfl

/-- An envelope is read exactly from its forms. -/
theorem parse_eq_ok_iff : parse text = .ok e ↔ Written .bytes text e ∨ Listed text e := by
  have hnames : (members.map Prod.fst).Nodup := by decide
  rw [← isObjectOf_toRecord_iff, ← isListOf_toRecord_iff,
    ← parseRecord_eq_ok_iff "Envelope" hnames, parse]
  cases parseRecord "Envelope" members text with
  | error f => simp [Except.map]
  | ok r =>
    constructor
    · intro h
      obtain rfl := Except.ok.inj h
      rfl
    · intro h
      obtain rfl := Except.ok.inj h
      rfl

/-- In a text whose bytes are characters the repertoire makes no difference. -/
theorem written_bytes_iff (h : Utf8.Valid text) :
    Written .bytes text e ↔ Written .characters text e :=
  exists_congr fun _ => and_congr_left' (isObjectText_bytes_iff h)

/-- A reading as an option succeeds where the reading does. -/
theorem toOption_parse_eq_some_iff : (parse text).toOption = some e ↔ parse text = .ok e := by
  cases parse text <;> simp [Except.toOption]

/-- A reading as an option fails where there is nothing to be read. -/
theorem toOption_parse_eq_none_iff :
    (parse text).toOption = none ↔ ¬∃ e, parse text = .ok e := by
  cases parse text <;> simp [Except.toOption]

/-- The list form opens with a bracket. -/
theorem Listed.head?_dropWhile {t : String} (h : Listed (Utf8.encode t) e) :
    (t.toList.dropWhile (· ∈ [' ', '\t', '\n', '\r'])).head? = some '[' := by
  have hblank : ∀ b ∈ [Ascii.space, Ascii.tab, Ascii.lineFeed, Ascii.carriageReturn],
      b < 0x80 ∧ Char.ofNat b.toNat ∈ [' ', '\t', '\n', '\r'] := by
    decide +kernel
  obtain ⟨before, _, _, _, _, _, _, _, hbefore, -, -, -, -, -, -, -, h⟩ := h
  replace h : Utf8.encodeChars t.toList = _ := h
  generalize t.toList = cs at h
  induction before generalizing cs with
  | nil =>
    obtain ⟨ds, rfl, -⟩ := Utf8.exists_of_encodeChars_eq_ascii (by decide) h
    rfl
  | cons b before ih =>
    obtain ⟨hb, hbefore⟩ := List.forall_mem_cons.mp hbefore
    obtain ⟨hlt, hmem⟩ := hblank b hb
    obtain ⟨ds, rfl, hds⟩ := Utf8.exists_of_encodeChars_eq_ascii hlt h
    have hstep : (Char.ofNat b.toNat :: ds).dropWhile (· ∈ [' ', '\t', '\n', '\r']) =
        ds.dropWhile (· ∈ [' ', '\t', '\n', '\r']) :=
      List.dropWhile_cons_of_pos (decide_eq_true hmem)
    rw [hstep]
    exact ih hbefore ds hds

/-- The object form opens with a brace. -/
theorem Written.head?_skipBlanks {α : Repertoire} (h : Written α text e) :
    (skipBlanks text).head? = some Ascii.openBrace := by
  obtain ⟨found, ⟨before, s, after, hbefore, hs, -, rfl⟩, -⟩ := h
  have hbrace : isBlank Ascii.openBrace = false := by decide
  rw [skipBlanks_append hbefore]
  cases hs <;> rw [List.cons_append, skipBlanks_cons hbrace, List.head?_cons]

end Envelope

/-- However the envelope of a message is written, it is the message that is opened. -/
theorem Scheme.decodeBytes_of_parse {s : Scheme} {key text : Bytes} {m : SealedMessage}
    (h : Envelope.parse text = .ok m.toEnvelope) :
    s.decodeBytes key text = s.openMessage key m :=
  decodeBytes_of_parseSealed ((parseSealed_of_parse h).trans m.ofEnvelope_toEnvelope)

/-- Whoever decodes the text, by any scheme and under any key, fails for the same reason. -/
def Scheme.Undecodable (text : Bytes) : Prop :=
  ∃ reason, ∀ (s : Scheme) (key : Bytes) (op : Op Bytes), s.Decodes key text op →
    ∀ l, (op.run l).1 = .error (.decode reason)

/-- What is no envelope cannot be decoded. -/
theorem Scheme.undecodable_of_parse {text : Bytes} (h : ¬∃ e, Envelope.parse text = .ok e) :
    Undecodable text := by
  cases hparse : Envelope.parse text with
  | ok e => exact absurd ⟨e, hparse⟩ h
  | error f =>
    refine ⟨f.message, fun s key op hop l => ?_⟩
    have hsealed : parseSealed text = .error (.decode f.message) := by rw [parseSealed, hparse]
    rw [hop.eq_decodeBytes, (performs_decodeBytes_rejected hsealed).fst_run]

namespace Envelope

open Json

/-- Among the texts that do not open with a bracket, exactly the object forms of an envelope are
read as it, and whatever is not an object form of any is a failure to decode. -/
theorem parse_iff_written {t : String}
    (hfirst : (t.toList.dropWhile (· ∈ [' ', '\t', '\n', '\r'])).head? ≠ some '[') :
    (∀ e, parse (Utf8.encode t) = .ok e ↔ Written .characters (Utf8.encode t) e) ∧
    ((¬∃ e, Written .characters (Utf8.encode t) e) →
      (∃ f, parse (Utf8.encode t) = .error f) ∧ Scheme.Undecodable (Utf8.encode t)) := by
  have hiff (e : Envelope) :
      parse (Utf8.encode t) = .ok e ↔ Written .characters (Utf8.encode t) e := by
    rw [parse_eq_ok_iff, written_bytes_iff (Utf8.valid_encode t)]
    exact or_iff_left fun hlisted => hfirst hlisted.head?_dropWhile
  refine ⟨hiff, fun hnone => ?_⟩
  have hparse : ¬∃ e, parse (Utf8.encode t) = .ok e := by simpa only [hiff] using hnone
  refine ⟨?_, Scheme.undecodable_of_parse hparse⟩
  cases h : parse (Utf8.encode t) with
  | ok e => exact absurd ⟨e, h⟩ hparse
  | error f => exact ⟨f, rfl⟩

/-- A number beyond every double, a surrogate without a partner and a nested name stand in an
ignored member, and a name is written with an escape. With a comma too many the same members are
not an object. -/
theorem parse_iff_written_escaped :
    Written .characters (Utf8.encode
      "\x7b\"x\":[\x7b\"a\":-1E999\x7d,\"\\ud800\"],\"cip\\u0068ertext\":\"A\",\"hmac\":\"B\"\x7d")
      ⟨"A", "B"⟩ ∧
    Scheme.Undecodable (Utf8.encode "\x7b\"ciphertext\":\"AA\",\"hmac\":\"BQ\",\x7d") := by
  constructor
  · exact ((parse_iff_written (by decide)).1 _).mp
      (toOption_parse_eq_some_iff.mp (by decide +kernel))
  · have hiff := parse_iff_written
      (t := "\x7b\"ciphertext\":\"AA\",\"hmac\":\"BQ\",\x7d") (by decide)
    have hparse := toOption_parse_eq_none_iff.mp (show (parse (Utf8.encode
      "\x7b\"ciphertext\":\"AA\",\"hmac\":\"BQ\",\x7d")).toOption = none by decide +kernel)
    exact (hiff.2 (by simpa only [hiff.1] using hparse)).2

/-- The list forms of an envelope are read as it. Every other text is the object form of an
envelope, or a failure to decode; so a value that is neither a list nor an object is a failure. -/
theorem listed_or_written (text : Bytes) :
    (∀ e, Listed text e → parse text = .ok e) ∧
    ((¬∃ e, Listed text e) →
      (∃ e, Written .bytes text e ∧ parse text = .ok e) ∨
        (∃ f, parse text = .error f) ∧ Scheme.Undecodable text) ∧
    ∀ before v after, IsBlanks before → Derives .bytes .value v → text = before ++ (v ++ after) →
      v.head? ≠ some Ascii.openBrace → (¬∃ e, Listed text e) → Scheme.Undecodable text := by
  have hcases (hnone : ¬∃ e, Listed text e) : (∃ e, Written .bytes text e ∧ parse text = .ok e) ∨
      (∃ f, parse text = .error f) ∧ Scheme.Undecodable text := by
    cases h : parse text with
    | ok e => exact .inl ⟨e, (parse_eq_ok_iff.mp h).resolve_right fun he => hnone ⟨e, he⟩, rfl⟩
    | error f =>
      refine .inr ⟨⟨f, rfl⟩, Scheme.undecodable_of_parse ?_⟩
      rintro ⟨e, he⟩
      rw [h] at he
      contradiction
  refine ⟨fun e he => parse_eq_ok_iff.mpr (.inr he), hcases, ?_⟩
  rintro before v after hbefore hv rfl hhead hnone
  rcases hcases hnone with ⟨e, he, -⟩ | ⟨-, h⟩
  · obtain ⟨b, w, rfl, hblank, -⟩ := hv.exists_cons
    have hopen := he.head?_skipBlanks
    rw [skipBlanks_append hbefore, List.cons_append, skipBlanks_cons hblank] at hopen
    exact absurd hopen hhead
  · exact h

/-- A pair of literals is read. A number is neither a list nor an object, and cannot be decoded. -/
theorem listed_or_written_pair :
    parse (Utf8.encode "[\"AA==\",\"BQ==\"]") = .ok ⟨"AA==", "BQ=="⟩ ∧
    Scheme.Undecodable (Utf8.encode "7") := by
  constructor
  · have htext : "[\"AA==\",\"BQ==\"]" = renderList ⟨"AA==", "BQ=="⟩ := by decide
    exact (listed_or_written _).1 _ (htext ▸ listed_renderList _)
  · have hnone : ¬∃ e, Listed (Utf8.encode "7") e := by
      rintro ⟨e, he⟩
      exact absurd he.head?_dropWhile (by decide)
    have hwhole : IsWhole [0x37] :=
      .inr ⟨⟨List.cons_ne_nil _ _, List.forall_mem_singleton.mpr (by decide)⟩, by decide⟩
    exact (listed_or_written _).2.2 [] [0x37] [] .nil (.number hwhole.isNumber) (by decide)
      (by decide) hnone

end Envelope

/-! ## A list that is decoded -/

/-- The message of a vector of zeros, under a key of zeros. -/
def SealedMessage.zeros : SealedMessage :=
  ⟨List.replicate 16 0, Hash.hmac Hash.sha256 (List.replicate 16 0) (List.replicate 16 0)⟩

/-- The sealed message of zeros opens to nothing, under the key of zeros. -/
theorem SealedMessage.fst_run_openMessage_zeros (l : Ledger) :
    ((Suite.aesCfbHmacSha256.scheme.openMessage (List.replicate 16 0) zeros).run l).1 = .ok [] :=
  Suite.fst_run_openMessage_vector _ (by decide) (by decide) rfl l

/-- The list form of an envelope is decoded. -/
theorem Scheme.decode_renderList_zeros :
    SealedMessage.zeros.toEnvelope.renderList.toList.head? = some '[' ∧
    ∀ l, ((Suite.aesCfbHmacSha256.scheme.decode (List.replicate 16 0)
      SealedMessage.zeros.toEnvelope.renderList).run l).1 = .ok [] := by
  refine ⟨Envelope.head?_renderList _, fun l => ?_⟩
  have hparse := Envelope.parse_eq_ok_iff.mpr
    (.inr SealedMessage.zeros.toEnvelope.listed_renderList)
  rw [decode, decodeBytes_of_parse hparse]
  exact SealedMessage.fst_run_openMessage_zeros l

end Sealing
