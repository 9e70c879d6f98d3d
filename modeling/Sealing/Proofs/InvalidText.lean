import Sealing.Proofs.EnvelopeForms
import Sealing.Proofs.Rejection

/-!
# Byte strings that are no texts

Names and the two parts of an envelope are read as texts, and outside of literals every byte is a
token. Only the literals of an ignored value are passed over without a look at their characters, so
a byte string that is no text can be read as an envelope, but only if what spoils it stands there.
Otherwise it is a failure to decode, and a rejected request.
-/

namespace Sealing

namespace Envelope

open Json

variable {text note : Bytes} {e : Envelope} {name t : String} {found : List (String × Bytes)}

/-- The byte string is the object form of an envelope, and the value of some ignored member is no
text. -/
def Overlooked (text : Bytes) : Prop :=
  ∃ (e : Envelope) (found : List (String × Bytes)), IsObjectText .bytes found text ∧
    e.StandsIn found ∧ ∃ f ∈ found, f.1 ∉ members.map Prod.fst ∧ ¬Utf8.Valid f.2

/-- The value behind a name that is looked at is a text. -/
theorem HasText.valid {f : String × Bytes} (h : HasText found name t) (hf : f ∈ found)
    (hname : f.1 = name) : Utf8.Valid f.2 := by
  obtain ⟨v, hfilter, hv⟩ := h
  have hmem : f ∈ found.filter (fun f => f.1 = name) :=
    List.mem_filter.mpr ⟨hf, decide_eq_true hname⟩
  rw [hfilter, List.mem_singleton] at hmem
  rw [hmem]
  exact Quotes.valid hv

/-- Listed forms are texts. -/
theorem Listed.valid (h : Listed text e) : Utf8.Valid text := by
  have hopen : Ascii.openBracket < 0x80 := by decide
  have hcomma : Ascii.comma < 0x80 := by decide
  have hclose : Ascii.closeBracket < 0x80 := by decide
  obtain ⟨before, b₁, c, b₂, b₃, v, b₄, after, hbefore, hb₁, hc, hb₂, hb₃, hv, hb₄, hafter,
    rfl⟩ := h
  rw [Utf8.valid_append_iff_right hbefore.lt, Utf8.valid_cons_iff hopen,
    Utf8.valid_append_iff_right hb₁.lt]
  refine Utf8.Valid.append (Quotes.valid hc) ?_
  rw [Utf8.valid_append_iff_right hb₂.lt, Utf8.valid_cons_iff hcomma,
    Utf8.valid_append_iff_right hb₃.lt]
  refine Utf8.Valid.append (Quotes.valid hv) ?_
  rw [Utf8.valid_append_iff_right hb₄.lt, Utf8.valid_cons_iff hclose]
  exact ⟨_, Utf8.encodeChars_map_ofNat hafter.lt⟩

/-- What is no text is read exactly if everything that spoils it is overlooked. -/
theorem exists_parse_iff_overlooked (h : ¬Utf8.Valid text) :
    (∃ e, parse text = .ok e) ↔ Overlooked text := by
  constructor
  · rintro ⟨e, he⟩
    obtain ⟨found, htext, hstands⟩ | hlisted := parse_eq_ok_iff.mp he
    · obtain ⟨f, hf, hvalid⟩ : ∃ f ∈ found, ¬Utf8.Valid f.2 := by simpa [htext.valid_iff] using h
      refine ⟨e, found, htext, hstands, f, hf, fun hname => hvalid ?_, hvalid⟩
      rcases List.mem_cons.mp hname with hname | hname
      · exact hstands.ciphertext.valid hf hname
      · exact hstands.hmac.valid hf (List.mem_singleton.mp hname)
    · exact absurd hlisted.valid h
  · rintro ⟨e, found, htext, hstands, -⟩
    exact ⟨e, parse_eq_ok_iff.mpr (.inl ⟨found, htext, hstands⟩)⟩

/-! ## A note in an envelope -/

/-- The object form of an envelope with a note as its last member. -/
def noted (e : Envelope) (note : Bytes) : Bytes :=
  Utf8.encode "\x7b\"ciphertext\":" ++ Utf8.encodeChars (literal e.ciphertext) ++
    Utf8.encode ",\"hmac\":" ++ Utf8.encodeChars (literal e.hmac) ++
    Utf8.encode ",\"note\":" ++ note ++ [Ascii.closeBrace]

/-- The members of an envelope with a note. -/
def notedMembers (e : Envelope) (note : Bytes) : List (String × Bytes) :=
  [("ciphertext", Utf8.encodeChars (literal e.ciphertext)),
    ("hmac", Utf8.encodeChars (literal e.hmac)), ("note", note)]

/-- An envelope with a note is an object, if the note is a value. -/
theorem isObject_noted (e : Envelope) (hnote : Derives .bytes .value note) :
    IsObject .bytes (notedMembers e note) (noted e note) := by
  have hlabel (name : String) :
      IsLabel (Denotes · name.toList) (Utf8.encodeChars (literal name) ++ [Ascii.colon]) := by
    obtain ⟨content, hcontent, hname⟩ := quotes_literal name
    exact ⟨[], content, [], [], .nil, hcontent, .nil, .nil, by simp [hname]⟩
  have hmembers : MembersOf .bytes (notedMembers e note) _ :=
    .more (hlabel "ciphertext") (Quotes.derives (quotes_literal _)) .nil
      (.more (hlabel "hmac") (Quotes.derives (quotes_literal _)) .nil
        (.last (hlabel "note") hnote .nil))
  have hciphertext : Utf8.encode "\x7b\"ciphertext\":" =
      Ascii.openBrace :: (Utf8.encodeChars (literal "ciphertext") ++ [Ascii.colon]) := by decide
  have hhmac : Utf8.encode ",\"hmac\":" =
      Ascii.comma :: (Utf8.encodeChars (literal "hmac") ++ [Ascii.colon]) := by decide
  have hname : Utf8.encode ",\"note\":" =
      Ascii.comma :: (Utf8.encodeChars (literal "note") ++ [Ascii.colon]) := by decide
  rw [noted, hciphertext, hhmac, hname]
  simpa only [List.append_assoc, List.cons_append, List.nil_append, List.append_nil]
    using IsObject.members hmembers

/-- The members of an envelope stand among those of one with a note. -/
theorem standsIn_notedMembers (e : Envelope) (note : Bytes) : e.StandsIn (notedMembers e note) :=
  ⟨⟨_, by simp [notedMembers], quotes_literal _⟩, ⟨_, by simp [notedMembers], quotes_literal _⟩⟩

/-- Whatever value the note has, the envelope is read. -/
theorem parse_noted (e : Envelope) (hnote : Derives .bytes .value note) :
    parse (noted e note) = .ok e := by
  have htext : IsObjectText .bytes (notedMembers e note) (noted e note) :=
    ⟨[], _, [], .nil, isObject_noted e hnote, .nil, by simp⟩
  exact parse_eq_ok_iff.mpr (.inl ⟨_, htext, standsIn_notedMembers e note⟩)

/-- An envelope with a note is a text exactly if the note is. -/
theorem valid_noted_iff (e : Envelope) (hnote : Derives .bytes .value note) :
    Utf8.Valid (noted e note) ↔ Utf8.Valid note := by
  rw [(isObject_noted e hnote).valid_iff, notedMembers]
  simp [Utf8.valid_encodeChars]

/-- A literal of one byte that belongs to no character. -/
def strayLiteral : Bytes := [Ascii.quotation, 0xFF, Ascii.quotation]

/-- A literal of a stray byte is a value, as long as bytes are not asked to make up characters. -/
theorem derives_strayLiteral : Derives .bytes .value strayLiteral := by
  have hplain : Repertoire.bytes.Plain [0xFF] := ⟨0xFF, ⟨by decide, by decide, by decide⟩, rfl⟩
  exact .text (.plain hplain .nil)

/-- A literal of a stray byte is no text. -/
theorem not_valid_strayLiteral : ¬Utf8.Valid strayLiteral := by
  rw [← Utf8.isSome_decode?_iff]
  decide

end Envelope

/-- A request whose body cannot be decoded is rejected. -/
theorem Scheme.Undecodable.status_answer {text : Bytes} (h : Undecodable text) (suite : Suite)
    (k : Key) (limit : Nat) {r : Http.Request} (hbody : r.body = text)
    (hopens : (suite.service k limit).Opens r) (l : Ledger) :
    (((suite.service k limit).answer r).run l).1.status = 400 := by
  obtain ⟨reason, hrun⟩ := h
  have hfails : (suite.service k limit).FailsOpening l r (.decode reason) :=
    ⟨hopens, hrun suite.scheme k.bytes _ (hbody ▸ .bytes) l⟩
  exact hfails.status_answer

namespace Envelope

open Json

/-- What is no text is read as an envelope exactly if all that spoils it stands in ignored values.
Everything else that is no text is a failure to decode, and a rejected request to every service. -/
theorem overlooked_or_undecodable {text : Bytes} (h : ¬Utf8.Valid text) :
    ((∃ e, parse text = .ok e) ↔ Overlooked text) ∧
    (¬Overlooked text → Scheme.Undecodable text ∧
      ∀ (suite : Suite) (k : Key) (limit : Nat) (r : Http.Request) (l : Ledger),
        r.body = text → (suite.service k limit).Opens r →
          (((suite.service k limit).answer r).run l).1.status = 400) := by
  have hiff := exists_parse_iff_overlooked h
  refine ⟨hiff, fun hnot => ?_⟩
  have hundecodable := Scheme.undecodable_of_parse (mt hiff.mp hnot)
  exact ⟨hundecodable, fun suite k limit r l hbody hopens =>
    hundecodable.status_answer suite k limit hbody hopens l⟩

/-- A stray byte by itself cannot be decoded; in a note it is overlooked. -/
theorem overlooked_or_undecodable_stray :
    Scheme.Undecodable [0xFF] ∧ Overlooked (noted ⟨"AA==", "BQ=="⟩ strayLiteral) := by
  constructor
  · have hstray : ¬Utf8.Valid [0xFF] := by
      rw [← Utf8.isSome_decode?_iff]
      decide
    have h := overlooked_or_undecodable hstray
    have hparse := toOption_parse_eq_none_iff.mp
      (show (parse [0xFF]).toOption = none by decide +kernel)
    exact (h.2 fun hoverlooked => hparse (h.1.mpr hoverlooked)).1
  · have hvalid := (valid_noted_iff ⟨"AA==", "BQ=="⟩ derives_strayLiteral).not.mpr
      not_valid_strayLiteral
    exact (overlooked_or_undecodable hvalid).1.mp ⟨_, parse_noted _ derives_strayLiteral⟩

end Envelope

/-- An envelope is decoded although its note is no text. -/
theorem Scheme.decodeBytes_noted_stray :
    ¬Utf8.Valid (SealedMessage.zeros.toEnvelope.noted Envelope.strayLiteral) ∧
    ∀ l, ((Suite.aesCfbHmacSha256.scheme.decodeBytes (List.replicate 16 0)
      (SealedMessage.zeros.toEnvelope.noted Envelope.strayLiteral)).run l).1 = .ok [] := by
  constructor
  · rw [Envelope.valid_noted_iff _ Envelope.derives_strayLiteral]
    exact Envelope.not_valid_strayLiteral
  · intro l
    rw [decodeBytes_of_parse (Envelope.parse_noted _ Envelope.derives_strayLiteral)]
    exact SealedMessage.fst_run_openMessage_zeros l

end Sealing
