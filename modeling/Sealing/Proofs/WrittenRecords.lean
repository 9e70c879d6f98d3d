import Sealing.Proofs.ErrorBodies
import Sealing.Proofs.RecordForms

/-!
# Written records

A record is written as an object of the JSON grammar that has the members of the record in order
and no others, and it is read back from there. Of the grammar the writer uses little: no blanks, the
escapes that a text needs, and digits for a count. Nothing depends on what the texts consist of, or
on the size of a count.
-/

namespace Sealing

namespace Json

variable {m : String × Kind} {ms : Members}

/-- The members of a record in order, each with what is written for its value. -/
def Record.written : (ms : Members) → Record ms → List (String × Bytes)
  | [], _ => []
  | m :: ms, (v, r) => (m.1, Utf8.encodeChars (m.2.render v)) :: Record.written ms r

/-- The digits of a count are a whole number, and its value is the count. -/
theorem isWhole_toDigits (n : UInt64) :
    IsWhole (Utf8.encodeChars (Nat.toDigits 10 n.toNat)) ∧
      decimalFrom 0 (Utf8.encodeChars (Nat.toDigits 10 n.toNat)) = n.toNat := by
  have hend : EndsNumber [] := fun _ hb => nomatch hb
  obtain ⟨b, s, hs, -, hcount⟩ := readCount_toDigits n hend
  obtain ⟨t, hwhole, hvalue, ht⟩ := exists_of_readCount hcount
  rw [← hs, List.append_nil, List.append_nil] at ht
  rw [ht]
  exact ⟨hwhole, hvalue⟩

/-- What is written for a value is a written form of it. -/
theorem Kind.writes_render (kind : Kind) (v : kind.Carrier) :
    kind.Writes v (Utf8.encodeChars (kind.render v)) := by
  cases kind with
  | text => exact quotes_literal v
  | count => exact isWhole_toDigits v

/-- What a value is written as is a value of the grammar. -/
theorem Kind.derives_render (kind : Kind) (v : kind.Carrier) :
    Derives .characters .value (Utf8.encodeChars (kind.render v)) :=
  (kind.writes_render v).derives.characters (Utf8.valid_encodeChars _)

/-- The literal of a name and a colon make a label. -/
theorem isLabel_literal (name : String) :
    IsLabel (Denotes · name.toList) (Utf8.encodeChars (literal name) ++ [Ascii.colon]) := by
  obtain ⟨content, hcontent, hliteral⟩ := quotes_literal name
  refine ⟨[], content, [], [], .nil, hcontent, .nil, .nil, ?_⟩
  rw [hliteral]
  simp

/-- From the first name on, the members are written one after the other. -/
theorem membersOf_memberPieces (v : m.2.Carrier) (r : Record ms) :
    MembersOf .characters (Record.written (m :: ms) (.cons v r))
      (Utf8.encodeChars (literal m.1) ++ Ascii.colon :: (Utf8.encodeChars (m.2.render v) ++
        Utf8.encodeChars (Record.memberPieces ms [','] r).flatten)) := by
  rw [List.append_cons]
  induction ms generalizing m with
  | nil => exact .last (isLabel_literal m.1) (m.2.derives_render v) .nil
  | cons m' ms ih =>
    obtain ⟨v', r, rfl⟩ := r.exists_cons
    have hpieces : Utf8.encodeChars (Record.memberPieces (m' :: ms) [','] (.cons v' r)).flatten =
        [] ++ Ascii.comma :: ((Utf8.encodeChars (literal m'.1) ++ [Ascii.colon]) ++
          (Utf8.encodeChars (m'.2.render v') ++
            Utf8.encodeChars (Record.memberPieces ms [','] r).flatten)) := by
      rw [Record.memberPieces_cons]
      simp only [List.flatten_cons, Utf8.encodeChars_append, List.append_assoc]
      rfl
    rw [hpieces]
    exact .more (isLabel_literal m.1) (m.2.derives_render v) .nil (ih v' r)

/-- A record is written as the object of its members. -/
theorem isObject_render (hne : ms ≠ []) (r : Record ms) :
    IsObject .characters (Record.written ms r) (Utf8.encode (Record.render ms r)) := by
  obtain ⟨m, ms, rfl⟩ := List.exists_cons_of_ne_nil hne
  obtain ⟨v, r, rfl⟩ := r.exists_cons
  have hobject := IsObject.members (membersOf_memberPieces v r)
  rw [Record.render, Utf8.encode_ofList, encodeChars_pieces]
  simpa only [List.append_assoc, List.cons_append] using hobject

end Json

open Json

/-- An envelope is written as the object of two literals. -/
theorem Envelope.isObject_render (e : Envelope) : ∃ c h, Quotes c e.ciphertext ∧ Quotes h e.hmac ∧
    IsObject .characters [("ciphertext", c), ("hmac", h)] (Utf8.encode e.render) :=
  ⟨_, _, quotes_literal _, quotes_literal _, Json.isObject_render (List.cons_ne_nil _ _) e.toRecord⟩

namespace Service

/-- An error body is written as the object of two literals. -/
theorem ErrorBody.isObject_render (e : ErrorBody) : ∃ c m, Quotes c e.code ∧ Quotes m e.message ∧
    IsObject .characters [("code", c), ("message", m)] (Utf8.encode e.render) :=
  ⟨_, _, quotes_literal _, quotes_literal _, Json.isObject_render (List.cons_ne_nil _ _) e.toRecord⟩

/-- A health report is written as the object of two literals and a whole number. -/
theorem Health.isObject_render (h : Health) : ∃ s t n, Quotes s h.status ∧ Quotes t h.suite ∧
    IsWhole n ∧ decimalFrom 0 n = h.tagLength.toNat ∧
    IsObject .characters [("status", s), ("suite", t), ("tag_len", n)] (Utf8.encode h.render) := by
  obtain ⟨hwhole, hvalue⟩ := isWhole_toDigits h.tagLength
  exact ⟨_, _, _, quotes_literal _, quotes_literal _, hwhole, hvalue,
    Json.isObject_render (List.cons_ne_nil _ _) h.toRecord⟩

end Service

open Service in
/-- What is written as a JSON object is read back from it, whatever the texts and however large the
count: envelopes, error bodies and health reports. So a client reads of an internal failure exactly
what the service has to say of it. -/
theorem written_objects_parse_back :
    (∀ e : Envelope, Envelope.parse (Utf8.encode e.render) = .ok e ∧
      ∃ c h, Quotes c e.ciphertext ∧ Quotes h e.hmac ∧
        IsObject .characters [("ciphertext", c), ("hmac", h)] (Utf8.encode e.render)) ∧
    (∀ e : ErrorBody, ErrorBody.parse (Utf8.encode e.render) = .ok e ∧
      ∃ c m, Quotes c e.code ∧ Quotes m e.message ∧
        IsObject .characters [("code", c), ("message", m)] (Utf8.encode e.render)) ∧
    (∀ h : Health, Health.parse (Utf8.encode h.render) = .ok h ∧
      ∃ s t n, Quotes s h.status ∧ Quotes t h.suite ∧ IsWhole n ∧
        decimalFrom 0 n = h.tagLength.toNat ∧
        IsObject .characters [("status", s), ("suite", t), ("tag_len", n)]
          (Utf8.encode h.render)) ∧
    ∀ text : String, ErrorBody.parse (Utf8.encode (ErrorBody.ofFailure (.internal text)).render) =
      .ok ⟨"internal_error", "internal error: " ++ text⟩ := by
  refine ⟨fun e => ⟨e.parse_render, e.isObject_render⟩,
    fun e => ⟨e.parse_render, e.isObject_render⟩,
    fun h => ⟨h.parse_render, h.isObject_render⟩, fun text => ?_⟩
  rw [ErrorBody.parse_render]
  rfl

/-- Short escapes and one by code, a separator of lines that stands for itself, the largest count. -/
example : (Service.Health.mk "\"\\\n\x1f" "\u2028" 18446744073709551615).render =
    "\x7b\"status\":\"\\\"\\\\\\n\\u001f\",\"suite\":\"\u2028\"," ++
      "\"tag_len\":18446744073709551615\x7d" := by
  decide +kernel

end Sealing
